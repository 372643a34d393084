/-
  NoteAccess.Session.Startup

  From a command line to a session: the configuration, whose levels are the
  environment, the system's file, the user's file and the command line, then the
  log, then the components.
-/

import NoteAccess.Session

namespace NoteAccess

/-! ## The configuration -/

namespace Config

variable {κ : Type} [Yaml.Loader]

/-- The configuration with the system's file, if there is one. -/
def loadSystem (c : Config κ) (t : FileTree) (world : Surroundings) (path : Text) :
    Except LoadError (Config κ) := do
  let p := (Place.path world.folder ++ FilePath.ofText path).segments
  if ← (t.isFile p).mapError (systemFault p) then c.loadFile t world path .system else return c

/-- The configuration of a command line as far as variables and files say. -/
def ofFiles (t : FileTree) (world : Surroundings) (system : Text) (a : CommandLine.Arguments) :
    Except LoadError (Config κ) := do
  let c ← (Config.initial.loadEnvironment world.environment).loadSystem t world system
  match a.config with
  | some path => c.loadFile t world path .user
  | none => return c

/-- The configuration of a command line; its settings have been checked. -/
def ofArguments [Stack] (t : FileTree) (world : Surroundings) (system : Text) (a : CommandLine.Arguments) :
    Except LoadError (Config κ) := do
  let c ← ofFiles t world system a
  let c ← (c.loadCopy (a.settings world) .arguments).mapError .ofMerging
  c.check
  return c

end Config

/-! ## The log -/

/-- Why there is no log. -/
inductive LogError where
  | unknownLevel (u : Level.Unknown)
  | fault (f : Fault)

/-- How lines are logged. -/
structure LogSetup where
  level : Level
  layout : Layout
  file : Option Place := none

namespace LogSetup

/-- The level that settings name; that of information if they do not. -/
def levelOf [Stack] (v : Value) : Except LogError Level :=
  if v.isTruthy then (Level.ofValue v).mapError .unknownLevel else .ok (.ofSeverity .info)

/-- The layout that settings name. -/
def layoutOf (v : Value) : Except LogError Layout :=
  if !v.isTruthy then .ok (.ofText Setting.defaultFormat)
  else match v with
    | .text t => if Layout.isAccepted t then .ok (.ofText t) else .error (.fault .badValue)
    | _ => .error (.fault .wrongKind)

/-- The tree with a file for log lines, which may be there, and its place. -/
def openFile (t : FileTree) (world : Surroundings) (path : Text) : FileTree × Except Fault Place :=
  match (world.locate path).bind fun p => (t.makeFolders p.parent.segments).map (p, ·) with
  | .error f => (t, .error f)
  | .ok (p, t) =>
    let file := FilePath.foldDots p.segments
    match t.locate file with
    | .error f => (t, .error f)
    | .ok (_, some (.file ..)) => (t, .ok file)
    | .ok (_, some _) => (t, .error .isFolder)
    | .ok (_, none) =>
      match t.write file [] with
      | .error f => (t, .error f)
      | .ok t => (t, .ok file)

/-- The tree with the file that settings name. -/
def fileOf (t : FileTree) (world : Surroundings) (v : Value) : FileTree × Except LogError (Option Place) :=
  if !v.isTruthy then (t, .ok none)
  else match v with
    | .text path =>
      let (t, p) := openFile t world path
      (t, (p.mapError .fault).map some)
    | _ => (t, .error (.fault .wrongKind))

/-- How lines are logged by the logging section of settings. -/
def ofSettings [Stack] (t : FileTree) (world : Surroundings) (logging : Value.Mapping) :
    FileTree × Except LogError LogSetup :=
  let value (key : Text) : Value := (Value.field? key logging).getD .null
  match (levelOf (value Setting.levelKey)).bind fun level =>
      (layoutOf (value Setting.formatKey)).map (level, ·) with
  | .error e => (t, .error e)
  | .ok (level, layout) =>
    let (t, file) := fileOf t world (value Setting.fileKey)
    (t, file.map fun file => { level, layout, file })

/-- The logging section of settings, with what the command line says over it. -/
def sectionOf (a : CommandLine.Arguments) (settings : Value) : Value.Mapping :=
  match settings with
  | .dict entries =>
    match Value.field? Setting.loggingKey entries with
    | some (.dict logging) => a.logging.foldl (fun l (k, v) => Value.insert k v l) logging
    | _ => a.logging
  | _ => a.logging

end LogSetup

/-! ## Components -/

namespace Act

/-- The settings of a running session. -/
def settings [Stack] : Act Value := do ofExcept .ofMerging (← get).config.settings

/-- A setting of a running session. -/
def setting [Stack] (key : Text) : Act Value := do
  match ← settings with
  | .dict entries => return (Value.field? key entries).getD .null
  | v => throw (.lacking v.kindName "get")

/-- A path that is a setting. -/
def settingPath (v : Value) : Act Text :=
  match v with
  | .text t => return t
  | v => throw (.fault .wrongKind ("expected str, bytes or os.PathLike object, not " ++ v.kindName))

/-- The vault of the settings is used. -/
def openVault [Stack] : Act Vault := do
  let v ← setting Setting.vaultPathKey
  let path ← settingPath (if v.isTruthy then v else .text ".")
  let s ← get
  let root ← ofExcept (Failure.ofPath s.world s.tree path) (s.world.resolve s.tree path)
  let vault : Vault := { root }
  set { s with vault := some vault }
  return vault

/-- The rules file of the settings is used; a relative path begins in the vault. -/
def chooseRules [Stack] (vault : Vault) : Act FilePath := do
  let path ← settingPath (← setting Setting.rulesFileKey)
  let s ← get
  let p ← ofExcept (Failure.ofSystem []) (s.world.expand (FilePath.ofText path))
  let file := Place.path vault.root ++ p
  set { s with rulesPath := some file }
  return file

/-- An engine for the settings, without rules, is used. -/
def openEngine [Stack] : Act Unit := do
  let snapshot ← ofExcept Failure.ofSetting (Snapshot.ofSettings (← settings))
  let concurrency ← ofExcept Failure.ofSetting (Setting.concurrency (← setting Setting.concurrencyKey))
  modify fun s => { s with engine := some { snapshot, concurrency } }

/-- The failure of a rules file. -/
def rulesFailure : RulesFile.Error → Failure
  | .fault f message => .fault f message
  | e => .rulesFile e

/-- The rules of a file are used; each of its warnings is logged. -/
def reloadRules (file : FilePath) : Act Unit := do
  let s ← get
  let engine ← need s.engine "reload_from_file"
  let (engine, warnings) ← absorb rulesFailure (engine.reloadFile s.tree file)
  modify fun s => { s with engine := some engine }
  warnings.forM fun w => log .warning "Rules file warning" [("detail", w.text)]

/-- Vault, rules file and engine of the settings are used.  The command that writes the
    rules file does not read it. -/
def prepare [Stack] : Act Unit := do
  log .info "Initializing components..." []
  log .debug "Creating FilesystemVault" []
  let vault ← openVault
  let file ← chooseRules vault
  log .debug "Creating PolicyEngine" []
  openEngine
  match (← get).arguments.job with
  | .init _ => pure ()
  | _ => reloadRules file
  let count := ((← get).engine.map fun (e : Engine) => e.snapshot.rules.size).getD 0
  log .info "All components initialized successfully"
    [("vault", Place.text vault.root), ("rules", Text.ofNat count)]

end Act

end NoteAccess
