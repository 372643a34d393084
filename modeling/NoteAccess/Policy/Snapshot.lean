/-
  NoteAccess.Policy.Snapshot

  Everything that one evaluation reads: the rules, the default policy, the global
  tags, and whether filtering and writing are on.
-/

import NoteAccess.Rule.Listing
import NoteAccess.Fault

namespace NoteAccess

/-- A policy. -/
structure Snapshot where
  rules : RuleSet := {}
  entries : List RuleEntry := []
  defaultPolicy : Mode := .deny
  /-- The tag that grants access, in normal form; empty if there is none. -/
  allowTag : Text := []
  /-- The tag that refuses access, in normal form; empty if there is none. -/
  denyTag : Text := []
  enabled : Bool := true
  readOnly : Bool := false

namespace Snapshot

/-- Whether a global tag is set. -/
def hasGlobalTag (s : Snapshot) : Bool := !(s.allowTag.isEmpty && s.denyTag.isEmpty)

/-- The policy with other rules. -/
def withRules (s : Snapshot) (rules : RuleSet) (entries : List RuleEntry) : Snapshot :=
  { s with rules, entries }

/-- The normal form of a global tag; what counts as unset gives the empty one. -/
def globalTag (v : Option Value) : Except Fault Text :=
  match v with
  | none => .ok []
  | some v =>
    if !v.isTruthy then .ok []
    else match v with
      | .text t => .ok (Tag.normalize t)
      | .bytes content =>
        if content.all (fun b => b == 32 || (9 ≤ b && b ≤ 13)) then .ok [] else .error .wrongKind
      | _ => .error .lacksOperation

/-- The policy of settings, without rules. -/
def ofSettings (settings : Value) : Except SettingFailure Snapshot := do
  match settings with
  | .dict entries =>
    let defaultPolicy ←
      (Setting.defaultPolicy ((Value.field? Setting.defaultPolicyKey entries).getD (.text Mode.deny.word))).mapError
        SettingFailure.refused
    let allowTag ← (globalTag (Value.field? Setting.allowTagKey entries)).mapError .fault
    let denyTag ← (globalTag (Value.field? Setting.denyTagKey entries)).mapError .fault
    return {
      defaultPolicy, allowTag, denyTag
      enabled := ((Value.field? Setting.enabledKey entries).map Value.isTruthy).getD true
      readOnly := ((Value.field? Setting.readOnlyKey entries).map Value.isTruthy).getD false }
  | _ => throw (.fault .lacksOperation)

end Snapshot

end NoteAccess
