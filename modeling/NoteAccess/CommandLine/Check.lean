/-
  NoteAccess.CommandLine.Check

  What a command line names must be there: the configuration file, the vault, the
  methods.  What it says about settings becomes a level of the configuration.
-/

import NoteAccess.CommandLine.Arguments
import NoteAccess.Surroundings

namespace NoteAccess.CommandLine

/-- Why a command line is not accepted. -/
inductive ArgumentError where
  | noConfig (path : Text)
  | configNotFile (path : Text)
  | noVault (path : Text)
  | vaultNotFolder (path : Text)
  | rulesNotFile (path : Text)
  | unknownMethod (word : Text)
  | intervalNotPositive (seconds : Float)
  /-- A failure that is not worded here. -/
  | fault (f : Fault)

/-- The wording of a command line that is not accepted. -/
def ArgumentError.message : ArgumentError → Text
  | noConfig path => "Configuration file does not exist: " ++ path
  | configNotFile path => "Configuration path is not a file: " ++ path
  | noVault path => "Vault directory does not exist: " ++ path
  | vaultNotFolder path => "Vault is not a directory: " ++ path
  | rulesNotFile path => "Rules path is a directory: " ++ path
  | unknownMethod word => "Unknown method in --methods: " ++ word
  | intervalNotPositive seconds => "Watch interval must be positive: " ++ Decimal.writeFloat seconds
  | fault _ => []

namespace Arguments

/-! ## What must be there -/

/-- The configuration file is there. -/
def checkConfig (t : FileTree) (s : Surroundings) (path : Text) : Except ArgumentError Unit := do
  let p := (Place.path s.folder ++ FilePath.ofText path).segments
  if !(← (t.exists? p).mapError .fault) then throw (.noConfig path)
  if !(← (t.isFile p).mapError .fault) then throw (.configNotFile path)

/-- The vault is a folder. -/
def checkVault (t : FileTree) (s : Surroundings) (path : Text) : Except ArgumentError Unit := do
  let p := (← (s.locate path).mapError .fault).segments
  if !(← (t.exists? p).mapError .fault) then throw (.noVault path)
  if !(← (t.isFolder p).mapError .fault) then throw (.vaultNotFolder path)

/-- The rules file, which need not be there, is not a folder. -/
def checkRules (t : FileTree) (s : Surroundings) (path : Text) : Except ArgumentError Unit := do
  let p := (← (s.locate path).mapError .fault).segments
  if ← (t.isFolder p).mapError .fault then throw (.rulesNotFile path)

/-- All words between commas that are not blank are methods. -/
def checkMethods (methods : Text) : Except ArgumentError Unit :=
  (methods.pieces CodePoint.comma).forM fun (word : Text) =>
    if word.strip.isEmpty || (Method.ofWord? word.strip).isSome then .ok () else .error (.unknownMethod word)

/-- What a job is given can be used. -/
def checkJob : Job → Except ArgumentError Unit
  | .rules (.add _ _ _ methods _) => checkMethods methods
  | .watch (.float x) => if x ≤ 0 then .error (.intervalNotPositive x) else .ok ()
  | .watch _ => .error (.fault .wrongKind)
  | _ => .ok ()

/-- What a command line names can be used. -/
def check (a : Arguments) (t : FileTree) (s : Surroundings) : Except ArgumentError Unit := do
  a.config.forM (checkConfig t s)
  a.vault.forM (checkVault t s)
  a.rules.forM (checkRules t s)
  checkJob a.job

/-! ## Settings -/

/-- The logging section of the settings on a command line. -/
def logging (a : Arguments) : List (Value × Value) :=
  (if a.debug then [(.text Setting.levelKey, .text "DEBUG")] else []) ++
    (a.logFile.map fun f => (.text Setting.fileKey, .text f)).toList

/-- The settings on a command line. -/
def settings (a : Arguments) (s : Surroundings) : List (Value × Value) :=
  let place (key : Text) (path : Text) : Value × Value := (.text key, .text (s.absolute path))
  (a.vault.map (place Setting.vaultPathKey)).toList ++
    (a.rules.map (place Setting.rulesFileKey)).toList ++
    (if a.logging.isEmpty then [] else [(.text Setting.loggingKey, .dict a.logging)])

end Arguments

end NoteAccess.CommandLine
