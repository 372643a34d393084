/-
  NoteAccess.Policy.Engine

  A policy in use.  Rules and settings are replaced separately: new rules keep
  the settings and new settings keep the rules, and what fails changes nothing.
  Bulk filters evaluate each candidate by itself.
-/

import NoteAccess.Policy.Evaluation
import NoteAccess.Rule.File

namespace NoteAccess

/-- A policy in use, with the bound on evaluations at once. -/
structure Engine where
  snapshot : Snapshot := {}
  concurrency : Nat := Setting.defaultConcurrency

namespace Engine

/-! ## Changes -/

/-- The engine with the rules of a listing. -/
def install (e : Engine) (l : Listing) : Engine :=
  { e with snapshot := e.snapshot.withRules l.ruleSet l.entries }

/-- The engine with the rules of a text. -/
def reloadText (e : Engine) (content : Text) : Run Fault (Engine × List RuleWarning) := do
  let l ← Listing.ofText content
  return (e.install l, l.warnings)

/-- The engine with the rules of a file; a missing file has none. -/
def reloadFile (e : Engine) (t : FileTree) (path : FilePath) :
    Run RulesFile.Error (Engine × List RuleWarning) := do
  match ← (RulesFile.load t path).attempt with
  | .error f =>
    Run.emit (.line (.ofCause .error "Rules reload failed, keeping previous rules"
      [("file", path.text), ("error", f.message)] f.cause))
    Run.fail f
  | .ok none =>
    Run.log .warning "Rules file not found, no rules active" [("file", path.text)]
    return (e.install .empty, [])
  | .ok (some l) => return (e.install l, l.warnings)

/-- The engine with other settings and the same rules. -/
def updateSettings [Stack] (e : Engine) (settings : Value) : Except SettingFailure Engine := do
  let s ← Snapshot.ofSettings settings
  let concurrency ← match settings with
    | .dict entries =>
      match Value.field? Setting.concurrencyKey entries with
      | none | some .null => pure e.concurrency
      | some v => Setting.concurrency v
    | _ => pure e.concurrency
  return { snapshot := s.withRules e.snapshot.rules e.snapshot.entries, concurrency }

/-! ## Bulk filters -/

/-- The decisions on candidates, each evaluated whether or not others fail; the first
    failure is that of the whole. -/
def evaluateAll [Stack] (s : Snapshot) (src : Sources) (request : Request) :
    List Value → Run Fault (List Decision)
  | [] => return []
  | v :: rest =>
    let x := s.evaluate src request v
    let later := evaluateAll s src request rest
    ⟨x.events ++ later.events, do return (← x.result) :: (← later.result)⟩

/-- The count of what was filtered and of what is left, as a line of the log. -/
def logFiltered (what : Text) (total allowed : Nat) : Run Fault Unit :=
  Run.log .debug what [("total", Text.ofNat total), ("allowed", Text.ofNat allowed)]

/-- The candidates on which access is granted. -/
def filterPaths [Stack] (e : Engine) (src : Sources) (request : Request) (paths : List Value) :
    Run Fault (List Value) := do
  let decisions ← evaluateAll e.snapshot src request paths
  let kept := ((paths.zip decisions).filter (·.2.allowed)).map (·.1)
  logFiltered "Filtered paths" paths.length kept.length
  return kept

/-- The fields of a record that may hold its path, the first one set counts. -/
def pathFields : List Text := ["filename", "path"]

/-- The path that the fields of a record give: the first of the two that is not null,
    if it is a text and not empty. -/
def recordPath? (fields : List (Value × Value)) : Option Text :=
  match pathFields.findSome? fun k => (Value.field? k fields).filter (!·.isNull) with
  | some (.text t) => if t.isEmpty then none else some t
  | _ => none

/-- The positions of the records that are kept: those without a path, and those on
    whose path access is granted. -/
def filterRecords [Stack] (e : Engine) (src : Sources) (request : Request)
    (records : List (List (Value × Value))) : Run Fault (List Nat) := do
  let indexed := records.zipIdx.filterMap fun (r, i) => (recordPath? r).map (i, ·)
  let decisions ← evaluateAll e.snapshot src request (indexed.map fun (_, p) => .text p)
  let denied := ((indexed.zip decisions).filter (! ·.2.allowed)).map (·.1.1)
  let kept := (List.range records.length).filter (! denied.contains ·)
  logFiltered "Filtered records" records.length kept.length
  return kept

/-- The beginning of the paths of what a folder holds. -/
def folderLead (directory : Text) : Text :=
  let d := VaultPath.normalize directory
  if !d.isEmpty && !d.endsWith [CodePoint.slash] then d ++ [CodePoint.slash] else d

/-- The names in a folder on which access is granted. -/
def filterListing [Stack] (e : Engine) (src : Sources) (request : Request) (directory : Text)
    (names : List Text) : Run Fault (List Text) := do
  let lead := folderLead directory
  let kept ← e.filterPaths src request (names.map fun n => .text (lead ++ n))
  return kept.map fun v => v.toText.drop lead.length

end Engine

end NoteAccess
