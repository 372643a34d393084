/-
  NoteAccess.Proofs.Policy.Pruning

  Rules that have no effect on a decision.  Of the rules of a kind only the first
  that matches a note counts (`firstMatch_of_sublist`), and for notes that cannot
  be read it counts that there are tag or keyword rules at all.  So rules before
  the first match, rules behind it and rules that are malformed may be deleted
  (`Pruned`) without any effect on what the kind says (`result_opinion_of_pruned`).

  This is about rules that have been read: they are all different, so that a rule
  of the list is one place in it, and they have programs, so that no rule fails
  when it is tried, unless there is no room for what it is expanded to.  With fewer
  rules there are fewer to fail, so a decision stays and a failure may go
  (`decideBy_of_opinions`).
-/

import NoteAccess.Proofs.Policy.Totality

namespace NoteAccess

namespace Matching

variable {test : Rule → Run Fault Bool} {rules kept : List Rule} {r : Rule}

/-! ## Searches in fewer rules -/

/-- The first rule that matches is the first among fewer rules, if it is one of them. -/
theorem IsFirst.of_sublist (h : IsFirst test rules r) (hsub : kept.Sublist rules)
    (hnodup : rules.Nodup) (hmem : r ∈ kept) : IsFirst test kept r := by
  obtain ⟨earlier, later, rfl, hon, htest, hearlier⟩ := h
  obtain ⟨front, back, rfl, hfront, hback⟩ := List.sublist_append_iff.mp hsub
  have hnotEarlier : r ∉ earlier := fun hr =>
    (List.nodup_append.mp hnodup).2.2 r hr r (List.mem_cons_self ..) rfl
  have hnotLater : r ∉ later := (List.nodup_cons.mp (List.nodup_append.mp hnodup).2.1).1
  -- The rule is in one place only, so what is kept of the rest begins with it.
  have hr : r ∈ back := (List.mem_append.mp hmem).resolve_left fun hr => hnotEarlier (hfront.subset hr)
  cases hback with
  | cons _ hback => exact absurd (hback.subset hr) hnotLater
  | cons_cons _ hback =>
    refine ⟨front, _, rfl, hon, htest, ?_⟩
    exact fun q hq => hearlier q (hfront.subset hq)

/-- A search in fewer rules ends as before if the first rule that matches is still there. -/
theorem firstMatch_of_sublist (hsub : kept.Sublist rules) (hnodup : rules.Nodup)
    (hfirst : ∀ r, IsFirst test rules r → r ∈ kept) (hok : (firstMatch test rules).Succeeds) :
    (firstMatch test kept).result = (firstMatch test rules).result := by
  obtain ⟨found, hfound⟩ := hok
  rw [hfound]
  cases found with
  | none =>
    rw [firstMatch_eq_none_iff] at hfound ⊢
    exact fun q hq => hfound q (hsub.subset hq)
  | some r =>
    rw [firstMatch_eq_some_iff] at hfound ⊢
    exact hfound.of_sublist hsub hnodup (hfirst r hfound)

theorem byFirst_of_sublist {k : Kind} {o : Option Decision} (hsub : kept.Sublist rules) (hnodup : rules.Nodup)
    (hfirst : ∀ r, IsFirst test rules r → r ∈ kept) (ho : (byFirst k test rules).result = .ok o) :
    (byFirst k test kept).result = .ok o := by
  obtain ⟨found, hfound, h⟩ := Run.bind_eq_ok.mp ho
  have hsame := firstMatch_of_sublist hsub hnodup hfirst ⟨found, hfound⟩
  exact Run.bind_eq_ok.mpr ⟨found, hsame.trans hfound, h⟩

/-- Rules about something looked up say the same of what was found, and as long as there is
    one of them they refuse what cannot be read. -/
theorem byLookup_of_sublist {ε α : Type} {k : Kind} {d : Decision} {answer : Lookup ε α} {o : Option Decision}
    {tests : α → Rule → Run Fault Bool} (hsub : kept.Sublist rules) (hnodup : rules.Nodup)
    (hfirst : ∀ r, IsFirst (testOn answer tests) rules r → r ∈ kept)
    (hempty : rules ≠ [] → kept ≠ []) (ho : (byLookup k d tests answer rules).result = .ok o) :
    (byLookup k d tests answer kept).result = .ok o := by
  by_cases hrules : rules = []
  · rw [hrules, List.sublist_nil] at hsub
    rwa [hsub, ← hrules]
  · have hkept := hempty hrules
    unfold byLookup at ho ⊢
    rw [if_neg (by simpa using hrules)] at ho
    rw [if_neg (by simpa using hkept)]
    cases answer with
    | notFound => exact ho
    | unavailable reason => exact ho
    | found a => exact byFirst_of_sublist hsub hnodup hfirst ho

/-! ## Pruned rules -/

/-- `kept` are the rules of a kind without some that are not the first to match the note at
    a path; tag and keyword rules are not all deleted. -/
structure Pruned [Stack] (src : Sources) (path : Text) (k : Kind) (rules kept : List Rule) : Prop where
  sublist : kept.Sublist rules
  first : ∀ r, IsFirst (ruleMatches src path k) rules r → r ∈ kept
  notEmptied : k = .tag ∨ k = .keyword → rules ≠ [] → kept ≠ []

theorem Pruned.nil [Stack] {src : Sources} {path : Text} {k : Kind} : Pruned src path k [] [] :=
  ⟨List.Sublist.refl _, fun _ h => absurd h not_isFirst_nil, fun _ h => h⟩

/-- Rules are pruned if they still have the rule that a search finds. -/
theorem Pruned.of_found [Stack] {src : Sources} {path : Text} {k : Kind}
    (hfound : (firstMatch (ruleMatches src path k) rules).result = .ok (some r))
    (hsub : kept.Sublist rules) (hmem : r ∈ kept) : Pruned src path k rules kept where
  sublist := hsub
  first _ hq := hq.unique (firstMatch_eq_some_iff.mp hfound) ▸ hmem
  notEmptied _ _ := List.ne_nil_of_mem hmem

/-- Pruned rules say what all rules say, if these say anything. -/
theorem result_opinion_of_pruned [Stack] {src : Sources} {path : Text} {k : Kind} {o : Option Decision}
    (h : Pruned src path k rules kept) (hnodup : rules.Nodup)
    (ho : (opinion src path k rules).result = .ok o) : (opinion src path k kept).result = .ok o := by
  cases k with
  | folder => exact byFirst_of_sublist h.sublist hnodup h.first ho
  | name => exact byFirst_of_sublist h.sublist hnodup h.first ho
  | tag => exact byLookup_of_sublist h.sublist hnodup h.first (h.notEmptied (.inl rfl)) ho
  | keyword => exact byLookup_of_sublist h.sublist hnodup h.first (h.notEmptied (.inr rfl)) ho

end Matching

namespace Snapshot

open Matching

variable {s s' : Snapshot} {src : Sources} {m : Option Method} {path : Text} {d : Decision}

/-- If each kind says what it says under another policy, the decision is the same. -/
theorem decideBy_of_opinions [Stack] {kinds : List Kind} (hdefault : s.defaultPolicy = s'.defaultPolicy)
    (h : ∀ k o, (opinion src path k (s.rules.ofKind k)).result = .ok o →
      (opinion src path k (s'.rules.ofKind k)).result = .ok o)
    (hd : s.decideBy src m path kinds = .ok d) : s'.decideBy src m path kinds = .ok d := by
  induction kinds with
  | nil => rwa [decideBy, ← hdefault]
  | cons k kinds ih =>
    rw [decideBy] at hd ⊢
    cases ho : (opinion src path k (s.rules.ofKind k)).result with
    | error f =>
      rw [ho] at hd
      cases hd
    | ok o =>
      rw [ho] at hd
      rw [h k o ho]
      show settle o m _ = _
      replace hd : settle o m (s.decideBy src m path kinds) = .ok d := hd
      unfold settle at hd ⊢
      cases o with
      | none => exact ih hd
      | some d' =>
        dsimp only at hd ⊢
        split
        · next happlies => rwa [if_pos happlies] at hd
        · next happlies =>
          rw [if_neg happlies] at hd
          exact ih hd

/-- So it is if the global tags decide first. -/
theorem tagFirst_of_opinions [Stack] (hdefault : s.defaultPolicy = s'.defaultPolicy)
    (hallow : s.allowTag = s'.allowTag) (hdeny : s.denyTag = s'.denyTag)
    (h : ∀ k o, (opinion src path k (s.rules.ofKind k)).result = .ok o →
      (opinion src path k (s'.rules.ofKind k)).result = .ok o)
    (hd : (s.tagFirst src m path).result = .ok d) : (s'.tagFirst src m path).result = .ok d := by
  rw [result_tagFirst] at hd ⊢
  rw [← hallow, ← hdeny]
  cases hglobal : byGlobalTags (src.tagAnswer path) s.allowTag s.denyTag with
  | some g =>
    rw [hglobal] at hd
    exact hd
  | none =>
    rw [hglobal] at hd
    exact decideBy_of_opinions hdefault h hd

/-- Only first matches count: a policy whose rules have been read decides on a path, and the
    decision stays the same if other rules than the first of each kind that matches are
    deleted, whatever methods these are about.  Only if it comes to a rule that there is no
    room for is there no decision at all. -/
theorem evaluate_pruned [Stack] {l : Listing} (hl : l.IsRead) {s : Snapshot} (hs : s.rules = l.ruleSet)
    {kept : RuleSet} {src : Sources} {path : Text}
    (hkept : ∀ k, Pruned src (VaultPath.normalize path) k (s.rules.ofKind k) (kept.ofKind k))
    (entries : List RuleEntry) (request : Request) :
    (s.Overflows src request (VaultPath.normalize path) ∧
        (s.evaluate src request (.text path)).result = .error .tooDeep) ∨
      ∃ d, (s.evaluate src request (.text path)).result = .ok d ∧
        ((s.withRules kept entries).evaluate src request (.text path)).result = .ok d := by
  have hcompiles : s.Compiles := by
    intro k
    rw [hs]
    exact hl.compiles k
  cases hd : (s.evaluate src request (.text path)).result with
  | error f =>
    obtain ⟨rfl, hover⟩ := hcompiles.evaluate_eq_error_iff.mp hd
    exact .inl ⟨hover, rfl⟩
  | ok d =>
    refine .inr ⟨d, rfl, ?_⟩
    rw [result_evaluate] at hd
    rw [result_evaluate, ← hd]
    -- The guards do not look at the rules, and behind them each kind says the same.
    have hsame : (s.decide src request path).result =
        ((s.withRules kept entries).decide src request path).result := by
      refine result_decide_congr rfl rfl rfl fun m hm => ?_
      rw [decide_of_admits hm] at hd
      have hkinds : ∀ k o, (opinion src (VaultPath.normalize path) k (s.rules.ofKind k)).result = .ok o →
          (opinion src (VaultPath.normalize path) k (kept.ofKind k)).result = .ok o := by
        intro k o ho
        have hnodup : (s.rules.ofKind k).Nodup := by
          rw [hs]
          exact hl.nodup_ofKind k
        exact result_opinion_of_pruned (hkept k) hnodup ho
      have hpruned : ((s.withRules kept entries).tagFirst src m (VaultPath.normalize path)).result = .ok d :=
        tagFirst_of_opinions (s := s) rfl rfl rfl hkinds hd
      rw [hd, hpruned]
    exact hsame.symm

/-! ## A plan that is written -/

/-- Rules about work: the first folder rule that matches is about reading only, and a tag
    rule is malformed. -/
def workText : Text :=
  "deny folder Private/**\ndeny folder Work/** GET\ndeny folder Work/a.md\ndeny tag ~(\nallow tag #plan"

/-- The folder rule about reading. -/
def readingRule : Rule := { mode := .deny, pattern := "Work/**", methods := some [.get], sourceLine := 1 }

/-- The rule about plans. -/
def planRule : Rule := { mode := .allow, pattern := "#plan", sourceLine := 4 }

/-- The rules of the text. -/
def workRules : RuleSet where
  folder := [{ mode := .deny, pattern := "Private/**", sourceLine := 0 }, readingRule,
    { mode := .deny, pattern := "Work/a.md", sourceLine := 2 }]
  tag := [{ mode := .deny, pattern := "(", isRegex := true, sourceLine := 3 }, planRule]

/-- The rules of the text that count for a plan. -/
def planRules : RuleSet where
  folder := [readingRule]
  tag := [planRule]

/-- All notes are plans. -/
def planSources : Sources := ⟨some fun _ => .ok (.found ["#plan"]), none⟩

attribute [local instance] Stack.usual

theorem pruned_planRules (k : Kind) :
    Pruned planSources (VaultPath.normalize "/Work/a.md") k (workRules.ofKind k) (planRules.ofKind k) := by
  cases k with
  | folder =>
    have hfound : (firstMatch (ruleMatches planSources (VaultPath.normalize "/Work/a.md") .folder)
        workRules.folder).result = .ok (some readingRule) := by cbv
    exact .of_found hfound (by decide) (List.mem_singleton_self _)
  | name => exact .nil
  | tag =>
    have hfound : (firstMatch (ruleMatches planSources (VaultPath.normalize "/Work/a.md") .tag)
        workRules.tag).result = .ok (some planRule) := by decide +kernel
    exact .of_found hfound (by decide) (List.mem_singleton_self _)
  | keyword => exact .nil

/-- A plan may be written, with all rules and with the two that count: behind the folder rule
    about reading no other folder rule is asked. -/
theorem evaluate_pruned_plan :
    (∃ l : Listing, (Listing.ofText workText).result = .ok l ∧ l.ruleSet = workRules) ∧
      (Snapshot.evaluate { rules := workRules } planSources (.assumed .put) (.text "/Work/a.md")).result =
        .ok (.rule .tag planRule) ∧
      (Snapshot.evaluate { rules := planRules } planSources (.assumed .put) (.text "/Work/a.md")).result =
        .ok (.rule .tag planRule) := by
  have hread : (Listing.ofText workText).result.map Listing.ruleSet = .ok workRules := by decide +kernel
  obtain ⟨l, hl, hrules⟩ : ∃ l, (Listing.ofText workText).result = .ok l ∧ l.ruleSet = workRules := by
    cases h : (Listing.ofText workText).result with
    | error f => rw [h] at hread; cases hread
    | ok l => rw [h] at hread; exact ⟨l, rfl, Except.ok.inj hread⟩
  -- Two rules are quickly evaluated, and so the others need not be.
  have hplan : (Snapshot.evaluate { rules := planRules } planSources (.assumed .put)
      (.text "/Work/a.md")).result = .ok (.rule .tag planRule) := by
    rw [result_evaluate]
    cbv
  obtain ⟨hover, -⟩ | ⟨d, hd, hpruned⟩ :=
    evaluate_pruned (.inr ⟨workText, hl⟩) (s := { rules := workRules }) hrules.symm pruned_planRules []
      (.assumed .put)
  · exact absurd hover (not_overflows_of_fits (by decide))
  have hsame : d = .rule .tag planRule := Except.ok.inj (hpruned.symm.trans hplan)
  exact ⟨⟨l, hl, hrules⟩, hsame ▸ hd, hplan⟩

end Snapshot

end NoteAccess
