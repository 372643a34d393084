/-
  NoteAccess.Proofs.Policy.Stages

  What the stages of an evaluation decide, without their traces.  `decideBy`
  asks kinds for their opinions, one after the other, and the default policy
  behind them; the stages of the rules end with exactly this
  (`result_ruleStages`), in front of which the global tags stand
  (`result_tagFirst`).

  So two evaluations in which the kinds have the same opinions decide alike
  (`tagFirst_congr`), whatever paths and rules these are opinions about.
-/

import NoteAccess.Proofs.Decision.FirstMatch

namespace NoteAccess

namespace Matching

variable {test test' : Rule → Run Fault Bool}

/-- Tests that agree on the enabled rules find the same rule. -/
theorem firstMatch_congr {rules : List Rule}
    (h : ∀ r ∈ rules, r.enabled = true → (test r).result = (test' r).result) :
    (firstMatch test rules).result = (firstMatch test' rules).result := by
  induction rules with
  | nil => rfl
  | cons r rules ih =>
    have hrest := ih fun q hq => h q (List.mem_cons_of_mem _ hq)
    rw [firstMatch, firstMatch]
    by_cases hr : r.enabled = true
    · rw [if_pos hr, if_pos hr, Run.result_bind, Run.result_bind, h r (List.mem_cons_self ..) hr]
      congr 1
      funext b
      cases b with
      | false => exact hrest
      | true => rfl
    · rw [if_neg hr, if_neg hr]
      exact hrest

theorem byFirst_congr {k : Kind} {rules : List Rule}
    (h : ∀ r ∈ rules, r.enabled = true → (test r).result = (test' r).result) :
    (byFirst k test rules).result = (byFirst k test' rules).result := by
  unfold byFirst
  rw [Run.result_bind, Run.result_bind, firstMatch_congr h]

theorem opinion_nil [Stack] (src : Sources) (path : Text) (k : Kind) : opinion src path k [] = pure none := by
  cases k <;> rfl

/-- Global tags that are not set decide nothing, whatever the tags are. -/
theorem byGlobalTags_of_unset {s : Snapshot} (h : ¬ s.hasGlobalTag = true) (answer : TagLookup) :
    byGlobalTags answer s.allowTag s.denyTag = none := by
  unfold byGlobalTags
  rw [if_pos]
  simpa [Snapshot.hasGlobalTag] using h

end Matching

namespace Snapshot

open Matching

variable {s s' : Snapshot} {src src' : Sources} {m : Option Method} {path path' : Text}

/-! ## Kinds in order -/

/-- An opinion that speaks about the method, or else what follows. -/
def settle (o : Option Decision) (m : Option Method) (next : Except Fault Decision) :
    Except Fault Decision :=
  match o with
  | some d => if d.appliesTo m then .ok d else next
  | none => next

/-- The decision of kinds tried in order, and of the default policy behind them. -/
def decideBy [Stack] (s : Snapshot) (src : Sources) (m : Option Method) (path : Text) :
    List Kind → Except Fault Decision
  | [] => .ok (.byDefault s.defaultPolicy)
  | k :: kinds =>
    (opinion src path k (s.rules.ofKind k)).result.bind fun o =>
      settle o m (s.decideBy src m path kinds)

theorem result_orElse (o : Option Decision) (m : Option Method) (next : Run Fault Decision) :
    (orElse o m next).result = settle o m next.result := by
  cases o with
  | none => rfl
  | some d =>
    rw [orElse, settle]
    split
    · rfl
    · rfl

/-- A kind in front of a run that decides by later kinds. -/
theorem result_opinion_bind [Stack] {k : Kind} {kinds : List Kind} {next : Run Fault Decision}
    (hnext : next.result = s.decideBy src m path kinds) :
    (opinion src path k (s.rules.ofKind k) >>= fun o => orElse o m next).result =
      s.decideBy src m path (k :: kinds) := by
  rw [Run.result_bind, decideBy]
  congr 1
  funext o
  rw [result_orElse, hnext]

/-- A kind without rules changes nothing. -/
theorem decideBy_cons_of_isEmpty [Stack] {k : Kind} {kinds : List Kind}
    (h : (s.rules.ofKind k).isEmpty = true) :
    s.decideBy src m path (k :: kinds) = s.decideBy src m path kinds := by
  rw [decideBy, List.isEmpty_iff.mp h, opinion_nil]
  rfl

theorem result_keywordStage [Stack] :
    (s.keywordStage src m path).result = s.decideBy src m path [.keyword] := by
  unfold keywordStage
  -- Without rules the content is not looked up, and the kind has no opinion anyway.
  by_cases hempty : s.rules.keyword.isEmpty = true
  · rw [if_pos hempty, decideBy_cons_of_isEmpty (k := .keyword) hempty]
    rfl
  · rw [if_neg hempty, Run.result_bind_of_ok (Sources.result_lookupContent src path)]
    exact result_opinion_bind (k := .keyword) rfl

/-- The tags of the rules are those that the global tags were compared with, if there
    were any. -/
theorem result_tagStage [Stack] {known : Option TagLookup}
    (hknown : known = none ∨ known = some (src.tagAnswer path)) :
    (s.tagStage src m path known).result = s.decideBy src m path [.tag, .keyword] := by
  unfold tagStage
  by_cases hempty : s.rules.tag.isEmpty = true
  · rw [if_pos hempty, result_keywordStage]
    exact (decideBy_cons_of_isEmpty (k := .tag) hempty).symm
  · rw [if_neg hempty]
    rcases hknown with rfl | rfl
    · rw [Run.result_bind_of_ok (Sources.result_lookupTags src path)]
      exact result_opinion_bind (k := .tag) result_keywordStage
    · rw [Run.result_bind_of_ok (Run.result_pure _)]
      exact result_opinion_bind (k := .tag) result_keywordStage

/-- The stages of the rules ask the kinds in order. -/
theorem result_ruleStages [Stack] {known : Option TagLookup}
    (hknown : known = none ∨ known = some (src.tagAnswer path)) :
    (s.ruleStages src m path known).result = s.decideBy src m path Kind.all :=
  result_opinion_bind (k := .folder) (result_opinion_bind (k := .name) (result_tagStage hknown))

/-- The global tags decide, or else the kinds in order. -/
theorem result_tagFirst [Stack] :
    (s.tagFirst src m path).result =
      (byGlobalTags (src.tagAnswer path) s.allowTag s.denyTag).elim
        (s.decideBy src m path Kind.all) .ok := by
  unfold tagFirst
  by_cases hset : s.hasGlobalTag = true
  · rw [if_pos hset, Run.result_bind_of_ok (Sources.result_lookupTags src path)]
    cases byGlobalTags (src.tagAnswer path) s.allowTag s.denyTag with
    | some d => rfl
    | none => exact result_ruleStages (.inr rfl)
  · rw [if_neg hset, byGlobalTags_of_unset hset]
    exact result_ruleStages (.inl rfl)

/-! ## Guards -/

/-- The guards in front of the stages let a request about a path in normal form through. -/
structure Admits (s : Snapshot) (request : Request) (path : Text) (m : Option Method) : Prop where
  filtering : s.enabled = true
  method : request.method = .ok m
  pathChecked : VaultPath.check path = .ok ()
  mayWrite : (s.readOnly && m.any Method.isWrite) = false

/-- A guard that keeps a request from the stages decides at once. -/
theorem exists_decide_eq_pure [Stack] (src : Sources) {request : Request}
    (hnot : ∀ m, ¬ s.Admits request (VaultPath.normalize path) m) : ∃ d, s.decide src request path = pure d := by
  unfold Snapshot.decide
  by_cases hon : s.enabled = true
  · rw [if_neg (by simp [hon])]
    cases hm : request.method with
    | error refusal => exact ⟨_, rfl⟩
    | ok m =>
      dsimp only
      cases hpath : VaultPath.check (VaultPath.normalize path) with
      | error refusal => exact ⟨_, rfl⟩
      | ok _ =>
        dsimp only
        split
        · exact ⟨_, rfl⟩
        · next hwrite => exact absurd ⟨hon, hm, hpath, Bool.eq_false_iff.mpr hwrite⟩ (hnot m)
  · rw [if_pos (by simpa using hon)]
    exact ⟨_, rfl⟩

theorem decide_of_admits [Stack] {request : Request} (h : s.Admits request (VaultPath.normalize path) m) :
    s.decide src request path = s.tagFirst src m (VaultPath.normalize path) := by
  unfold Snapshot.decide
  rw [if_neg (by simp [h.filtering]), h.method]
  dsimp only
  rw [h.pathChecked]
  dsimp only
  rw [if_neg (Bool.eq_false_iff.mp h.mayWrite)]

/-! ## Evaluations that decide alike -/

/-- Kinds with the same opinions and the same default policy decide alike. -/
theorem decideBy_congr [Stack] {kinds : List Kind} (hdefault : s.defaultPolicy = s'.defaultPolicy)
    (h : ∀ k ∈ kinds, (opinion src path k (s.rules.ofKind k)).result =
      (opinion src' path' k (s'.rules.ofKind k)).result) :
    s.decideBy src m path kinds = s'.decideBy src' m path' kinds := by
  induction kinds with
  | nil => rw [decideBy, decideBy, hdefault]
  | cons k kinds ih =>
    rw [decideBy, decideBy, h k (List.mem_cons_self ..),
      ih fun j hj => h j (List.mem_cons_of_mem _ hj)]

/-- So do the stages behind the guards, if the tags are the same too. -/
theorem tagFirst_congr [Stack] (hdefault : s.defaultPolicy = s'.defaultPolicy)
    (hallow : s.allowTag = s'.allowTag) (hdeny : s.denyTag = s'.denyTag)
    (htags : src.tagAnswer path = src'.tagAnswer path')
    (h : ∀ k, (opinion src path k (s.rules.ofKind k)).result =
      (opinion src' path' k (s'.rules.ofKind k)).result) :
    (s.tagFirst src m path).result = (s'.tagFirst src' m path').result := by
  rw [result_tagFirst, result_tagFirst, htags, hallow, hdeny, decideBy_congr hdefault fun k _ => h k]

theorem result_evaluate [Stack] (s : Snapshot) (src : Sources) (request : Request) (path : Text) :
    (s.evaluate src request (.text path)).result = (s.decide src request path).result := by
  unfold evaluate
  rw [Run.result_bind]
  show ((s.decide src request path).result.bind fun d => .ok d) = _
  cases (s.decide src request path).result with
  | error f => rfl
  | ok d => rfl

/-- Paths with the same normal form are decided alike. -/
theorem decide_congr [Stack] {request : Request} (h : VaultPath.normalize path = VaultPath.normalize path') :
    s.decide src request path = s.decide src request path' := by
  unfold Snapshot.decide
  rw [h]

/-- Policies with the same guards decide alike if the stages do on what the guards let through. -/
theorem result_decide_congr [Stack] {request : Request} (hon : s.enabled = s'.enabled)
    (hwrite : s.readOnly = s'.readOnly)
    (hpath : VaultPath.check (VaultPath.normalize path) = VaultPath.check (VaultPath.normalize path'))
    (h : ∀ m, s.Admits request (VaultPath.normalize path) m →
      (s.tagFirst src m (VaultPath.normalize path)).result =
        (s'.tagFirst src' m (VaultPath.normalize path')).result) :
    (s.decide src request path).result = (s'.decide src' request path').result := by
  unfold Snapshot.decide
  dsimp only
  rw [← hon, ← hwrite, ← hpath]
  split
  · rfl
  · next hoff =>
    cases hm : request.method with
    | error refusal => rfl
    | ok m =>
      dsimp only
      cases hchecked : VaultPath.check (VaultPath.normalize path) with
      | error refusal => rfl
      | ok _ =>
        dsimp only
        split
        · rfl
        · next hmay => exact h m ⟨by simpa using hoff, hm, hchecked, Bool.eq_false_iff.mpr hmay⟩

end Snapshot

end NoteAccess
