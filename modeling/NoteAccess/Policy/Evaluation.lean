/-
  NoteAccess.Policy.Evaluation

  The decision on one path: first whether the request can be evaluated, then the
  global tags, then folder, name, tag and keyword rules, then the default policy.

  The first matching rule of a kind ends its kind; if the rule does not speak
  about the method, the next kind is asked.  Tags are looked up at most once, and
  content only for keyword rules.
-/

import NoteAccess.Decision.Matching
import NoteAccess.Policy.Snapshot

namespace NoteAccess

namespace Sources

/-- The tags of a path; a missing source and a failing lookup leave them unread. -/
def lookupTags {ε : Type} (s : Sources) (path : Text) : Run ε TagLookup := do
  match s.tags with
  | none =>
    Run.emit (.unsourced path)
    return .unavailable ()
  | some lookup =>
    Run.emit (.tags path)
    match lookup path with
    | .ok answer => return answer
    | .error e =>
      Run.logIncident "Metadata provider failed" [("path", path)] e
      return .unavailable ()

/-- The content of a path; a missing source and a failing lookup leave it unread. -/
def lookupContent {ε : Type} (s : Sources) (path : Text) : Run ε ContentLookup := do
  match s.content with
  | none =>
    Run.emit (.unsourced path)
    return .unavailable "no content provider"
  | some lookup =>
    Run.emit (.content path)
    match lookup path with
    | .ok answer => return answer
    | .error e =>
      Run.logIncident "Content provider failed" [("path", path)] e
      return .unavailable e.message

end Sources

/-- The method of a request: as it is written, if it is given, or one that stands for none given. -/
inductive Request where
  | given (word : Option Text)
  | assumed (m : Method)

namespace Request

/-- The method that is meant. -/
def method : Request → Except Setting.Refusal (Option Method)
  | given word => Setting.method word
  | assumed m => .ok (some m)

/-- The method as log lines show it. -/
def logText : Request → Text
  | given word => word.getD Value.null.toText
  | assumed m => "HttpMethod." ++ m.name

end Request

namespace Snapshot

/-- The decision, if a stage has one that speaks about the method; else what follows. -/
def orElse (d : Option Decision) (m : Option Method) (next : Run Fault Decision) : Run Fault Decision :=
  match d with
  | some d => if d.appliesTo m then return d else next
  | none => next

/-- The decision of the keyword rules, and of the default policy behind them. -/
def keywordStage [Stack] (s : Snapshot) (src : Sources) (m : Option Method) (path : Text) :
    Run Fault Decision := do
  let final : Run Fault Decision := return .byDefault s.defaultPolicy
  if s.rules.keyword.isEmpty then final
  else orElse (← Matching.byKeyword (← src.lookupContent path) s.rules.keyword) m final

/-- The decision of the tag rules and of what follows them; `known` are the tags if they
    have been looked up already. -/
def tagStage [Stack] (s : Snapshot) (src : Sources) (m : Option Method) (path : Text)
    (known : Option TagLookup) : Run Fault Decision := do
  if s.rules.tag.isEmpty then s.keywordStage src m path
  else
    let tags ← match known with
      | some tags => pure tags
      | none => src.lookupTags path
    orElse (← Matching.byTag tags s.rules.tag) m (s.keywordStage src m path)

/-- The decision of the rules and of the default policy behind them. -/
def ruleStages [Stack] (s : Snapshot) (src : Sources) (m : Option Method) (path : Text)
    (known : Option TagLookup) : Run Fault Decision := do
  orElse (← Matching.byFolder path s.rules.folder) m (do
    orElse (← Matching.byName path s.rules.name) m (s.tagStage src m path known))

/-- The decision of the global tags and of what follows them. -/
def tagFirst [Stack] (s : Snapshot) (src : Sources) (m : Option Method) (path : Text) : Run Fault Decision := do
  if s.hasGlobalTag then
    let tags ← src.lookupTags path
    match Matching.byGlobalTags tags s.allowTag s.denyTag with
    | some d => return d
    | none => s.ruleStages src m path (some tags)
  else s.ruleStages src m path none

/-- The decision on a path. -/
def decide [Stack] (s : Snapshot) (src : Sources) (request : Request) (path : Text) : Run Fault Decision :=
  if !s.enabled then return .filteringOff
  else match request.method with
    | .error r => return .methodRefused r
    | .ok m =>
      let path := VaultPath.normalize path
      match VaultPath.check path with
      | .error r => return .pathRefused r
      | .ok () =>
        if s.readOnly && m.any Method.isWrite then return .readOnly
        else s.tagFirst src m path

/-- The decision on a candidate: one that is no text fails where its path is needed. -/
def decideValue [Stack] (s : Snapshot) (src : Sources) (request : Request) (candidate : Value) :
    Run Fault Decision :=
  match candidate with
  | .text path => s.decide src request path
  | _ =>
    if !s.enabled then return .filteringOff
    else match request.method with
      | .error r => return .methodRefused r
      | .ok _ => Run.fail .lacksOperation

/-- The decision on a candidate, with its line in the log. -/
def evaluate [Stack] (s : Snapshot) (src : Sources) (request : Request) (candidate : Value) :
    Run Fault Decision := do
  let d ← s.decideValue src request candidate
  Run.log .debug "Access decision"
    [("path", candidate.toText), ("method", request.logText),
      ("allowed", (Value.bool d.allowed).toText), ("reason", d.reason)]
  return d

end Snapshot

end NoteAccess
