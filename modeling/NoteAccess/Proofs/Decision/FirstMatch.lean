/-
  NoteAccess.Proofs.Decision.FirstMatch

  What the rules of one kind decide.  `IsFirst` says which rule of a list is the
  first to match, and `firstMatch` finds exactly that one.  `ruleMatches` is the
  test of each kind on the note at a path, as the sources answer, and
  `opinion_eq_ok` is all that the rules of a kind can say: the first matching
  rule, nothing, or a refusal because the note could not be read.
-/

import NoteAccess.Proofs.Run

namespace NoteAccess.Matching

/-! ## The first matching rule -/

/-- `r` is enabled and passes the test, and no enabled rule before it does. -/
def IsFirst (test : Rule → Run Fault Bool) (rules : List Rule) (r : Rule) : Prop :=
  ∃ earlier later, rules = earlier ++ r :: later ∧ r.enabled = true ∧
    (test r).result = .ok true ∧ ∀ q ∈ earlier, q.enabled = true → (test q).result = .ok false

variable {test : Rule → Run Fault Bool} {rules : List Rule} {r : Rule}

theorem not_isFirst_nil : ¬ IsFirst test [] r := by
  rintro ⟨earlier, later, h, -⟩
  simp at h

/-- The first rule of a list is its head, if the head matches, or it is the first of the
    tail, if the head is disabled or does not match. -/
theorem isFirst_cons_iff {q : Rule} :
    IsFirst test (q :: rules) r ↔
      (q = r ∧ r.enabled = true ∧ (test r).result = .ok true) ∨
        ((q.enabled = true → (test q).result = .ok false) ∧ IsFirst test rules r) := by
  constructor
  · rintro ⟨earlier, later, heq, hon, htest, hearlier⟩
    cases earlier with
    | nil =>
      simp only [List.nil_append, List.cons.injEq] at heq
      exact Or.inl ⟨heq.1, hon, htest⟩
    | cons p earlier =>
      simp only [List.cons_append, List.cons.injEq] at heq
      obtain ⟨rfl, rfl⟩ := heq
      refine Or.inr ⟨hearlier q (List.mem_cons_self ..), earlier, later, rfl, hon, htest, ?_⟩
      exact fun p hp => hearlier p (List.mem_cons_of_mem _ hp)
  · rintro (⟨rfl, hon, htest⟩ | ⟨hq, earlier, later, rfl, hon, htest, hearlier⟩)
    · exact ⟨[], rules, rfl, hon, htest, fun _ hp => absurd hp List.not_mem_nil⟩
    · refine ⟨q :: earlier, later, rfl, hon, htest, ?_⟩
      intro p hp
      rcases List.mem_cons.mp hp with rfl | hp
      · exact hq
      · exact hearlier p hp

/-- The search ends with a rule exactly if it is the first that matches. -/
theorem firstMatch_eq_some_iff :
    (firstMatch test rules).result = .ok (some r) ↔ IsFirst test rules r := by
  -- The search peels off one rule at a time, and so does `isFirst_cons_iff`.
  induction rules with
  | nil => simp [firstMatch, not_isFirst_nil]
  | cons q rules ih =>
    rw [isFirst_cons_iff, firstMatch]
    by_cases hq : q.enabled = true
    · rw [if_pos hq, Run.bind_eq_ok]
      constructor
      · rintro ⟨b, hb, h⟩
        cases b with
        | false => exact Or.inr ⟨fun _ => hb, ih.mp h⟩
        | true =>
          simp only [if_true, Run.result_pure, Except.ok.injEq, Option.some.injEq] at h
          subst h
          exact Or.inl ⟨rfl, hq, hb⟩
      · rintro (⟨rfl, -, htest⟩ | ⟨htest, h⟩)
        · exact ⟨true, htest, rfl⟩
        · exact ⟨false, htest hq, ih.mpr h⟩
    · rw [if_neg hq, ih]
      constructor
      · exact fun h => Or.inr ⟨fun hon => absurd hon hq, h⟩
      · rintro (⟨rfl, hon, -⟩ | ⟨-, h⟩)
        · exact absurd hon hq
        · exact h

/-- The search ends without a rule exactly if no enabled rule matches. -/
theorem firstMatch_eq_none_iff :
    (firstMatch test rules).result = .ok none ↔
      ∀ q ∈ rules, q.enabled = true → (test q).result = .ok false := by
  induction rules with
  | nil => exact iff_of_true rfl fun _ hq => absurd hq List.not_mem_nil
  | cons q rules ih =>
    rw [List.forall_mem_cons, firstMatch]
    by_cases hq : q.enabled = true
    · rw [if_pos hq, Run.bind_eq_ok]
      constructor
      · rintro ⟨b, hb, h⟩
        cases b with
        | false => exact ⟨fun _ => hb, ih.mp h⟩
        | true => cases h
      · rintro ⟨htest, h⟩
        exact ⟨false, htest hq, ih.mpr h⟩
    · rw [if_neg hq, ih]
      exact (and_iff_right fun hon => absurd hon hq).symm

theorem not_isFirst_of_firstMatch_eq_none (h : (firstMatch test rules).result = .ok none) :
    ¬ IsFirst test rules r := by
  intro hr
  rw [firstMatch_eq_some_iff.mpr hr] at h
  cases h

theorem IsFirst.unique {q : Rule} (hr : IsFirst test rules r) (hq : IsFirst test rules q) :
    r = q := by
  have h := firstMatch_eq_some_iff.mpr hr
  rw [firstMatch_eq_some_iff.mpr hq] at h
  simpa using h.symm

/-- The events of a search are those of the tests on its rules. -/
theorem mem_events_firstMatch {e : Event} (h : e ∈ (firstMatch test rules).events) :
    ∃ q ∈ rules, e ∈ (test q).events := by
  induction rules with
  | nil => simp [firstMatch] at h
  | cons q rules ih =>
    have hrest : e ∈ (firstMatch test rules).events → ∃ p ∈ q :: rules, e ∈ (test p).events := by
      intro h
      obtain ⟨p, hp, he⟩ := ih h
      exact ⟨p, List.mem_cons_of_mem _ hp, he⟩
    rw [firstMatch] at h
    split at h
    · rw [Run.mem_events_bind] at h
      obtain h | ⟨b, -, h⟩ := h
      · exact ⟨q, List.mem_cons_self .., h⟩
      · cases b with
        | false => exact hrest h
        | true => simp at h
    · exact hrest h

/-! ## The tests of the kinds -/

/-- The test on what was found; what was not found passes none. -/
def testOn {ε α : Type} (answer : Lookup ε α) (tests : α → Rule → Run Fault Bool) (r : Rule) :
    Run Fault Bool :=
  match answer with
  | .found a => tests a r
  | _ => return false

/-- Whether a rule of a kind matches the note at a path; a note without readable tags or
    content matches no rule about them. -/
def ruleMatches [Stack] (src : Sources) (path : Text) : Kind → Rule → Run Fault Bool
  | .folder => (patternMatches · path)
  | .name => (patternMatches · (VaultPath.basename path))
  | .tag => testOn (src.tagAnswer path) tagRuleMatches
  | .keyword => testOn (src.contentAnswer path) keywordMatches

variable {src : Sources} {path : Text} {k : Kind} {e : Event}

/-- A test with a pattern leaves no event but that the pattern is malformed. -/
theorem mem_events_patternMatches [Stack] {t : Text} (h : e ∈ (patternMatches r t).events) :
    ∃ p, e = .malformed p := by
  unfold patternMatches at h
  rw [Run.mem_events_bind] at h
  obtain h | ⟨program, -, h⟩ := h
  · exact ⟨_, Run.mem_events_made h⟩
  · simp at h

theorem mem_events_tagRuleMatches {tags : List Text} (h : e ∈ (tagRuleMatches tags r).events) :
    ∃ p, e = .malformed p := by
  unfold tagRuleMatches at h
  split at h
  · rw [Run.mem_events_bind] at h
    obtain h | ⟨program, -, h⟩ := h
    · exact ⟨_, Run.mem_events_made h⟩
    · simp at h
  · simp at h

theorem mem_events_keywordMatches [Stack] {t : Text} (h : e ∈ (keywordMatches t r).events) :
    ∃ p, e = .malformed p := by
  unfold keywordMatches at h
  split at h
  · exact mem_events_patternMatches h
  · simp at h

/-! ## The opinion of a kind -/

/-- What the rules of a kind say about the note at a path, as the sources answer. -/
def opinion [Stack] (src : Sources) (path : Text) (k : Kind) (rules : List Rule) :
    Run Fault (Option Decision) :=
  match k with
  | .folder => byFolder path rules
  | .name => byName path rules
  | .tag => byTag (src.tagAnswer path) rules
  | .keyword => byKeyword (src.contentAnswer path) rules

/-- The decision of a kind whose note cannot be read. -/
def unread : Kind → Option Decision
  | .tag => some .tagsUnread
  | .keyword => some .contentUnread
  | _ => none

/-- All that rules with a test can say: the first that matches, nothing, or a refusal. -/
def Says (test : Rule → Run Fault Bool) (k : Kind) (rules : List Rule) (o : Option Decision) : Prop :=
  (∃ r, o = some (.rule k r) ∧ IsFirst test rules r) ∨
    (o = none ∧ ∀ r, ¬ IsFirst test rules r) ∨ (∃ d, o = some d ∧ unread k = some d)

/-- The decision of the first rule says what the rules say. -/
theorem says_of_byFirst {o : Option Decision} (h : (byFirst k test rules).result = .ok o) :
    Says test k rules o := by
  obtain ⟨found, hfound, h⟩ := Run.bind_eq_ok.mp h
  simp only [Run.result_pure, Except.ok.injEq] at h
  cases found with
  | none => exact Or.inr (Or.inl ⟨h.symm, fun r => not_isFirst_of_firstMatch_eq_none hfound⟩)
  | some r => exact Or.inl ⟨r, h.symm, firstMatch_eq_some_iff.mp hfound⟩

/-- No rule is the first to pass a test that none passes. -/
theorem not_isFirst_of_test_eq_false (h : ∀ r, (test r).result = .ok false) :
    ¬ IsFirst test rules r := by
  rintro ⟨-, -, -, -, htrue, -⟩
  rw [h r] at htrue
  cases htrue

/-- Rules about something looked up say nothing of what is missing and refuse what cannot
    be read; of what was found the first that matches decides. -/
theorem says_of_byLookup {ε α : Type} {answer : Lookup ε α} {tests : α → Rule → Run Fault Bool}
    {d : Decision} (hd : unread k = some d) {o : Option Decision}
    (h : (byLookup k d tests answer rules).result = .ok o) :
    Says (testOn answer tests) k rules o := by
  unfold byLookup at h
  -- Rules that there are none of say nothing even of a note that cannot be read.
  cases rules with
  | nil => exact Or.inr (Or.inl ⟨by simpa using h.symm, fun r => not_isFirst_nil⟩)
  | cons q rest =>
    rw [if_neg (by simp)] at h
    cases answer with
    | notFound =>
      refine Or.inr (Or.inl ⟨by simpa using h.symm, fun r => ?_⟩)
      exact not_isFirst_of_test_eq_false fun _ => rfl
    | unavailable reason => exact Or.inr (Or.inr ⟨d, by simpa using h.symm, hd⟩)
    | found a => exact says_of_byFirst h

/-- The rules of a kind decide by the first that matches, say nothing if none does, or
    refuse a note that cannot be read. -/
theorem opinion_eq_ok [Stack] {o : Option Decision} (h : (opinion src path k rules).result = .ok o) :
    Says (ruleMatches src path k) k rules o := by
  cases k with
  | folder => exact says_of_byFirst h
  | name => exact says_of_byFirst h
  | tag => exact says_of_byLookup rfl h
  | keyword => exact says_of_byLookup rfl h

theorem mem_events_byFirst (h : e ∈ (byFirst k test rules).events) :
    ∃ q ∈ rules, e ∈ (test q).events := by
  unfold byFirst at h
  rw [Run.mem_events_bind] at h
  obtain h | ⟨r, -, h⟩ := h
  · exact mem_events_firstMatch h
  · simp at h

theorem mem_events_byLookup {ε α : Type} {answer : Lookup ε α}
    {tests : α → Rule → Run Fault Bool} {d : Decision}
    (h : e ∈ (byLookup k d tests answer rules).events) : ∃ a, ∃ q ∈ rules, e ∈ (tests a q).events := by
  unfold byLookup at h
  split at h
  · simp at h
  · cases answer with
    | notFound => simp at h
    | unavailable reason => simp at h
    | found a => exact ⟨a, mem_events_byFirst h⟩

/-- Asking the rules of a kind leaves no event but that a pattern is malformed. -/
theorem mem_events_opinion [Stack] (h : e ∈ (opinion src path k rules).events) : ∃ p, e = .malformed p := by
  cases k with
  | folder =>
    obtain ⟨q, -, h⟩ := mem_events_byFirst h
    exact mem_events_patternMatches h
  | name =>
    obtain ⟨q, -, h⟩ := mem_events_byFirst h
    exact mem_events_patternMatches h
  | tag =>
    obtain ⟨tags, q, -, h⟩ := mem_events_byLookup h
    exact mem_events_tagRuleMatches h
  | keyword =>
    obtain ⟨content, q, -, h⟩ := mem_events_byLookup h
    exact mem_events_keywordMatches h

end NoteAccess.Matching
