/-
  NoteAccess.Config.File

  Configuration files: loading one into a level, loading all of them again, and
  looking after files that may change.

  A file that cannot be loaded leaves its level as it was.
-/

import NoteAccess.Config
import NoteAccess.Surroundings
import NoteAccess.Yaml.Loader

namespace NoteAccess

/-- Why a configuration is not accepted; paths are as they were given. -/
inductive ConfigError where
  | missing (path : Text)
  | malformed (path : Text)
  | notMapping (path : Text)
  | unreadable (path cause : Text)
  | refused (r : Setting.Refusal)

namespace ConfigError

/-- The wording of a configuration that is not accepted, without the cause. -/
def message : ConfigError → Text
  | missing path => "Config file not found: " ++ path
  | malformed path => "YAML parse error in " ++ path
  | notMapping path => "Invalid config format in " ++ path
  | unreadable path _ => "Error loading config " ++ path
  | refused r => "Invalid configuration: " ++ r.message

/-- What the wording goes on with. -/
def cause : ConfigError → Text
  | unreadable _ cause => ": " ++ cause
  | _ => []

/-- What kind of mistake it is. -/
def code : ConfigError → FailureCode
  | missing _ => .notFound
  | unreadable .. => .internalError
  | _ => .invalidInput

end ConfigError

/-- Why a configuration file is not loaded. -/
inductive LoadError where
  | config (e : ConfigError)
  /-- A failure that is not worded here. -/
  | fault (f : Fault) (message : Text)

namespace LoadError

/-- A file that is not loaded as an incident. -/
def incident : LoadError → Incident
  | config e => ⟨"ConfigError", e.message, e.cause⟩
  | fault f message => .ofFault f message

/-- The failure of levels that cannot be merged. -/
def ofMerging (f : Fault) : LoadError := .fault f Stack.exceeded

/-- The failure of settings that are not accepted. -/
def ofSetting : SettingFailure → LoadError
  | .refused r => .config (.refused r)
  | .fault f => .fault f (Layered.complaint f)

end LoadError

namespace Config

variable {κ : Type}

/-! ## Checking -/

/-- Whether the settings are accepted. -/
def check [Stack] (c : Config κ) : Except LoadError Unit := do
  (Setting.check (← c.settings.mapError .ofMerging)).mapError .ofSetting

/-! ## Loading -/

variable [Yaml.Loader]

/-- A failure of the file system as it is. -/
def systemFault (p : Place) (f : Fault) : LoadError := .fault f (FileTree.incident f p).message

/-- The entries that the bytes of a configuration file give; `shown` is its path for messages. -/
def entriesOf (shown : Text) (bytes : List UInt8) : Except LoadError Value.Mapping :=
  match (Yaml.Loader.file bytes).map Yaml.Document.value with
  | .error .malformed => .error (.config (.malformed shown))
  | .error (.fault f message) =>
    .error (if f.isSystem then .config (.unreadable shown message) else .fault f message)
  | .ok .null => .ok []
  | .ok (.dict entries) => .ok entries
  | .ok _ => .error (.config (.notMapping shown))

/-- The entries of a configuration file; `shown` is its path for messages. -/
def readEntries (t : FileTree) (p : Place) (shown : Text) : Except LoadError Value.Mapping := do
  if !(← (t.exists? p).mapError (systemFault p)) then throw (.config (.missing shown))
  let content ← (t.read p).mapError fun f => .config (.unreadable shown (FileTree.incident f p).message)
  entriesOf shown content.toBytes

/-- Where the mappings stand that have more than one place in a configuration file. -/
def readSharing (t : FileTree) (p : Place) : Value.Sharing :=
  match (t.read p).toOption.bind fun content => (Yaml.Loader.file content.toBytes).toOption with
  | some d => d.shared
  | none => []

/-- An association list with a value at a key. -/
def assign {α β : Type} [BEq α] (key : α) (b : β) (l : List (α × β)) : List (α × β) :=
  if (l.lookup key).isSome then l.map fun (k, c) => if k == key then (k, b) else (k, c) else l ++ [(key, b)]

/-- The configuration with the time of a file. -/
def noteTime (c : Config κ) (p : Place) (time : Int) : Config κ := { c with times := assign p time c.times }

/-- The configuration with the file at a place loaded into a level. -/
def loadPlace (c : Config κ) (t : FileTree) (p : Place) (shown : Text) (tier : Tier) :
    Except LoadError (Config κ) := do
  let entries ← readEntries t p shown
  let time ← (t.time p).mapError (systemFault p)
  return { (c.loadEntries entries tier (readSharing t p)).noteTime p time with files := assign p tier c.files }

/-- The configuration with a file loaded into a level. -/
def loadFile (c : Config κ) (t : FileTree) (s : Surroundings) (path : Text) (tier : Tier) :
    Except LoadError (Config κ) := do
  let p ← (s.resolve t path).mapError fun f => .fault f (s.incident t path f).message
  c.loadPlace t p path tier

/-- The configuration with a known file loaded again into a level. -/
def reloadPlace (c : Config κ) (t : FileTree) (p : Place) (tier : Tier) : Except LoadError (Config κ) := do
  let q ← (t.resolve p).mapError fun f => .fault f (t.resolveIncident f p).message
  c.loadPlace t q (Place.text p) tier

/-- The end of loading known files again: after the lines to be logged it is told, if all
    levels can be merged. -/
def announce [Stack] (c : Config κ) (lines : List (Notice κ)) :
    Config κ × List (Notice κ) × Except LoadError Unit :=
  match c.notices with
  | .ok told => (c, lines ++ told, .ok ())
  | .error f => (c, lines, .error (.ofMerging f))

/-- Load known files again, with the lines to be logged; a failure that is not worded
    here ends it. -/
def reloadFrom [Stack] (c : Config κ) (t : FileTree) (lines : List (Notice κ)) :
    List (Place × Tier) → Config κ × List (Notice κ) × Except LoadError Unit
  | [] => c.announce lines
  | (p, tier) :: rest =>
    match c.reloadPlace t p tier with
    | .ok c => reloadFrom c t lines rest
    | .error (.config e) =>
      let line := LogLine.ofCause .warning "Config reload failed, keeping previous values"
        [("file", Place.text p), ("error", e.message)] e.cause
      reloadFrom c t (lines ++ [.line line]) rest
    | .error e => (c, lines, .error e)

/-- The configuration with all its files loaded again. -/
def reload [Stack] (c : Config κ) (t : FileTree) : Config κ × List (Notice κ) × Except LoadError Unit :=
  c.reloadFrom t [] c.files

/-! ## Looking after files -/

/-- The configuration with a file to be looked after; its time is noted unless it is
    known. -/
def watch (c : Config κ) (t : FileTree) (p : Place) (hook : Option κ) : Config κ × Except Fault Unit :=
  let c := { c with watched := assign p hook c.watched }
  if (c.times.lookup p).isSome then (c, .ok ())
  else
    match t.exists? p with
    | .error f => (c, .error f)
    | .ok there => (c.noteTime p (if there then (t.time p).toOption.getD 0 else 0), .ok ())

/-- The time of a file, if it is later than the one that is known. -/
def newerTime? (c : Config κ) (t : FileTree) (p : Place) : Except Fault (Option Int) := do
  if !(← t.exists? p) then return none
  let time ← t.time p
  return if time ≤ (c.times.lookup p).getD 0 then none else some time

/-- The line that a changed file is not taken over. -/
def changeLine (p : Place) (e : LoadError) : Notice κ :=
  .line (.ofIncident "Failed to apply change to watched file" [("file", Place.text p)] e.incident)

/-- What a change of a file leads to: somebody is told, or the file is loaded. -/
def apply [Stack] (c : Config κ) (t : FileTree) (p : Place) (hook : Option κ) : Config κ × List (Notice κ) :=
  match hook with
  | some k => (c, [.file k p])
  | none =>
    match c.reloadPlace t p ((c.files.lookup p).getD .user) with
    | .error e => (c, [changeLine p e])
    | .ok c =>
      match c.notices with
      | .ok told => (c, told)
      | .error f => (c, [changeLine p (.ofMerging f)])

/-- The result of a pass over the files that are looked after. -/
structure Pass (κ : Type) where
  config : Config κ
  /-- The files that have changed. -/
  changed : List Place := []
  notices : List (Notice κ) := []
  failure : Option Fault := none

/-- A pass over files. -/
def pollFrom [Stack] (t : FileTree) (pass : Pass κ) : List (Place × Option κ) → Pass κ
  | [] => pass
  | (p, hook) :: rest =>
    match pass.config.newerTime? t p with
    | .error f => { pass with failure := some f }
    | .ok none => pollFrom t pass rest
    | .ok (some time) =>
      let (c, notices) := (pass.config.noteTime p time).apply t p hook
      pollFrom t
        { config := c, changed := pass.changed ++ [p], notices := pass.notices ++ notices } rest

/-- A pass over the files that are looked after: what is newer than it is known to be has
    changed. -/
def poll [Stack] (c : Config κ) (t : FileTree) : Pass κ := pollFrom t { config := c } c.watched

end Config

end NoteAccess
