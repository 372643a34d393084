/-
  NoteAccess.Proofs.Decision.TagRules

  What tag rules match.  A list of written tags counts by the set of its normal forms
  (`Tag.normalForms`): a literal rule matches if the tags between its plus signs have some
  and all of them are among those of the note (`tagOutcome_literal_iff`).  So order, repetition and
  blank tags make no difference, nor does a mark in front of a tag that has none
  (`Tag.Alike.normalize_eq`).
-/

import Mathlib.Data.Set.Insert
import NoteAccess.Decision.Matching
import NoteAccess.Proofs.Run
import NoteAccess.Proofs.Text
import NoteAccess.Proofs.Text.Letters

namespace NoteAccess

open CodePoint (hash plus)

/-! ## Written tags -/

namespace Tag

variable {s s' tag : Text} {l l' raw : List Text}

/-- The normal forms of written tags. -/
def normalForms (l : List Text) : Set Text := {t | ∃ s ∈ l, normalize s = t}

/-- The second text is the first one, which begins with neither a mark nor a blank, with a mark in front. -/
def IsMarked (s s' : Text) : Prop := s' = hash :: s ∧ ∃ c ∈ s.head?, c ≠ hash ∧ c.isBlank = false

/-- Two texts are the same, or the same apart from a mark in front of one of them. -/
def Alike (s s' : Text) : Prop := s = s' ∨ IsMarked s s' ∨ IsMarked s' s

/-- Each text of one list that is not blank is alike one of the other list, and the other way round. -/
def SameWritten (l l' : List Text) : Prop :=
  (∀ s ∈ l, s.strip = [] ∨ ∃ s' ∈ l', Alike s s') ∧ ∀ s' ∈ l', s'.strip = [] ∨ ∃ s ∈ l, Alike s' s

instance : Decidable (IsMarked s s') :=
  inferInstanceAs (Decidable (s' = hash :: s ∧ ∃ c, c ∈ s.head? ∧ c ≠ hash ∧ c.isBlank = false))

instance : Decidable (Alike s s') := inferInstanceAs (Decidable (s = s' ∨ IsMarked s s' ∨ IsMarked s' s))

instance : Decidable (SameWritten l l') :=
  inferInstanceAs (Decidable ((∀ s ∈ l, s.strip = [] ∨ ∃ s' ∈ l', Alike s s') ∧
    ∀ s' ∈ l', s'.strip = [] ∨ ∃ s ∈ l, Alike s' s))

theorem dropRightWhile_cons_of_not {c : CodePoint} (hc : c.isBlank = false) (rest : Text) :
    Text.dropRightWhile CodePoint.isBlank (c :: rest) = c :: Text.dropRightWhile CodePoint.isBlank rest := by
  rw [Text.dropRightWhile, Text.dropRightWhile, List.reverse_cons, List.dropWhile_append]
  split
  · next hnil => simp [List.isEmpty_iff.mp hnil, hc]
  · simp

theorem strip_cons_of_not_blank {c : CodePoint} (hc : c.isBlank = false) (rest : Text) :
    Text.strip (c :: rest) = c :: Text.dropRightWhile CodePoint.isBlank rest := by
  have hleft : Text.stripLeft (c :: rest) = c :: rest := Text.stripLeft_of_head (by simpa using hc)
  rw [Text.strip, hleft, dropRightWhile_cons_of_not hc]

/-- A mark in front of a tag makes no difference to its normal form. -/
theorem IsMarked.normalize_eq (h : IsMarked s s') : normalize s' = normalize s := by
  obtain ⟨rfl, c, hhead, hne, hblank⟩ := h
  obtain ⟨rest, rfl⟩ := List.head?_eq_some_iff.mp hhead
  have hstrip := strip_cons_of_not_blank hblank rest
  obtain ⟨d, u, hlower, hd⟩ := Text.exists_lower_cons c (Text.dropRightWhile CodePoint.isBlank rest)
  have hmarked : (Text.strip (hash :: c :: rest)).lower = hash :: d :: u := by
    rw [strip_cons_of_not_blank (by decide), dropRightWhile_cons_of_not hblank rest, Text.lower_hash_cons, hlower]
  rw [normalize, normalize, hmarked, hstrip, hlower]
  dsimp only
  rw [if_pos rfl, if_neg fun hhash => hne (hd hhash)]

theorem Alike.normalize_eq (h : Alike s s') : normalize s' = normalize s := by
  obtain rfl | h | h := h
  · rfl
  · exact h.normalize_eq
  · exact h.normalize_eq.symm

theorem normalize_of_strip_eq_nil (h : s.strip = []) : normalize s = [] := by
  rw [normalize, h]
  rfl

theorem normalForms_subset (h : ∀ s ∈ l, s.strip = [] ∨ ∃ s' ∈ l', Alike s s') :
    normalForms l \ {[]} ⊆ normalForms l' \ {[]} := by
  rintro tag ⟨⟨s, hs, rfl⟩, hne⟩
  obtain hblank | ⟨s', hs', halike⟩ := h s hs
  · exact absurd (normalize_of_strip_eq_nil hblank) hne
  · exact ⟨⟨s', hs', halike.normalize_eq⟩, hne⟩

/-- Tags that are written the same have the same normal forms, apart from the empty one. -/
theorem SameWritten.normalForms_eq (h : SameWritten l l') : normalForms l \ {[]} = normalForms l' \ {[]} :=
  (normalForms_subset h.1).antisymm (normalForms_subset h.2)

theorem mem_normalizeAll : tag ∈ normalizeAll raw ↔ tag ∈ normalForms raw \ {[]} := by
  simp [normalizeAll, normalForms, List.mem_eraseDups]

end Tag

/-! ## Rules -/

namespace Matching

variable {r r' : Rule} {raw raw' : List Text}

/-- The tags that a literal pattern names: the normal forms of its parts between plus signs that have one. -/
def namedTags (pattern : Text) : Set Text := Tag.normalForms (pattern.pieces plus) \ {[]}

/-- Whether a tag rule matches a note with these raw tags, or why its pattern cannot be used. -/
def tagOutcome (r : Rule) (raw : List Text) : Except Fault Bool := (tagRuleMatches (Tag.normalizeAll raw) r).result

theorem mem_requiredTags {pattern tag : Text} : tag ∈ requiredTags pattern ↔ tag ∈ namedTags pattern := by
  simp [requiredTags, namedTags, Tag.normalForms]

theorem tagOutcome_literal (h : r.isRegex = false) (raw : List Text) :
    tagOutcome r raw =
      .ok (!(requiredTags r.pattern).isEmpty && (requiredTags r.pattern).all (Tag.normalizeAll raw).contains) := by
  unfold tagOutcome tagRuleMatches
  rw [h]
  rfl

/-- A regular expression matches if it matches one of the tags. -/
theorem tagOutcome_regex (h : r.isRegex = true) (raw : List Text) :
    tagOutcome r raw = r.toPattern.compile.map fun program => (Tag.normalizeAll raw).any (program.matches ·) := by
  unfold tagOutcome tagRuleMatches
  rw [if_pos h, Run.result_bind, Run.result_compile]
  cases r.toPattern.compile <;> rfl

/-- A literal rule matches exactly if it names tags and the note has all of them. -/
theorem tagOutcome_literal_iff (h : r.isRegex = false) :
    tagOutcome r raw = .ok true ↔
      (namedTags r.pattern).Nonempty ∧ namedTags r.pattern ⊆ Tag.normalForms raw := by
  rw [tagOutcome_literal h, Except.ok.injEq, Bool.and_eq_true, Bool.not_eq_true', List.isEmpty_eq_false_iff_exists_mem,
    List.all_eq_true]
  simp only [mem_requiredTags, List.contains_iff_mem, Tag.mem_normalizeAll]
  exact and_congr_right fun _ =>
    ⟨fun hall tag htag => (hall tag htag).1, fun hsub tag htag => ⟨hsub htag, htag.2⟩⟩

theorem tagOutcome_of_sameWritten (h : r.isRegex = false) (h' : r'.isRegex = false)
    (hpattern : Tag.SameWritten (r.pattern.pieces plus) (r'.pattern.pieces plus)) (hraw : Tag.SameWritten raw raw') :
    tagOutcome r' raw' = tagOutcome r raw := by
  have hnamed : namedTags r'.pattern = namedTags r.pattern := hpattern.normalForms_eq.symm
  have hiff : tagOutcome r' raw' = .ok true ↔ tagOutcome r raw = .ok true := by
    rw [tagOutcome_literal_iff h', tagOutcome_literal_iff h, hnamed]
    refine and_congr_right fun _ => ?_
    -- Only tags that have a normal form are named.
    have hdiff : ∀ l, namedTags r.pattern ⊆ Tag.normalForms l ↔ namedTags r.pattern ⊆ Tag.normalForms l \ {[]} :=
      fun l => ⟨fun hsub tag htag => ⟨hsub htag, htag.2⟩, fun hsub tag htag => (hsub htag).1⟩
    rw [hdiff raw', hdiff raw, hraw.normalForms_eq]
  rw [tagOutcome_literal h', tagOutcome_literal h, Except.ok.injEq, Except.ok.injEq] at hiff
  rw [tagOutcome_literal h', tagOutcome_literal h, Bool.eq_iff_iff.mpr hiff]

/-- More tags never take a match away. -/
theorem tagOutcome_mono (hsub : raw ⊆ raw') (hmatch : tagOutcome r raw = .ok true) : tagOutcome r raw' = .ok true := by
  have hforms : Tag.normalForms raw ⊆ Tag.normalForms raw' := fun tag ⟨s, hs, htag⟩ => ⟨s, hsub hs, htag⟩
  cases h : r.isRegex with
  | false =>
    rw [tagOutcome_literal_iff h] at hmatch ⊢
    exact ⟨hmatch.1, hmatch.2.trans hforms⟩
  | true =>
    rw [tagOutcome_regex h] at hmatch ⊢
    cases hcompile : r.toPattern.compile with
    | error f =>
      rw [hcompile] at hmatch
      cases hmatch
    | ok program =>
      rw [hcompile] at hmatch
      obtain ⟨tag, htag, hmatches⟩ := List.any_eq_true.mp (Except.ok.inj hmatch)
      have htag' : tag ∈ Tag.normalizeAll raw' :=
        Tag.mem_normalizeAll.mpr ⟨hforms (Tag.mem_normalizeAll.mp htag).1, (Tag.mem_normalizeAll.mp htag).2⟩
      exact congrArg Except.ok (List.any_eq_true.mpr ⟨tag, htag', hmatches⟩)

/-- A literal tag rule always has an outcome, and matches exactly if it names tags and they are all among the
    normal forms of the note's tags.  So how often and in what order tags are written makes no difference, nor
    do blank ones or a mark in front of those that have none.  Further tags never take a match away, that of a
    regular expression included. -/
theorem tagOutcome_by_sets (r : Rule) (raw : List Text) :
    (r.isRegex = false → ∃ b, tagOutcome r raw = .ok b ∧
      (b = true ↔ (namedTags r.pattern).Nonempty ∧ namedTags r.pattern ⊆ Tag.normalForms raw)) ∧
    (∀ r' raw', r.isRegex = false → r'.isRegex = false →
      Tag.SameWritten (r.pattern.pieces plus) (r'.pattern.pieces plus) → Tag.SameWritten raw raw' →
      tagOutcome r' raw' = tagOutcome r raw) ∧
    ∀ raw', raw ⊆ raw' → tagOutcome r raw = .ok true → tagOutcome r raw' = .ok true := by
  refine ⟨fun h => ?_, fun r' raw' h h' hpattern hraw => tagOutcome_of_sameWritten h h' hpattern hraw,
    fun raw' hsub hmatch => tagOutcome_mono hsub hmatch⟩
  have hiff : tagOutcome r raw = .ok true ↔
      (namedTags r.pattern).Nonempty ∧ namedTags r.pattern ⊆ Tag.normalForms raw := tagOutcome_literal_iff h
  rw [tagOutcome_literal h] at hiff ⊢
  exact ⟨_, rfl, (Except.ok.injEq ..).to_iff.symm.trans hiff⟩

/-- A rule that names two tags. -/
def workDraft : Rule := { mode := .deny, pattern := "work+Draft" }

/-- The same tags, one of them twice, with marks and blank parts. -/
def draftWork : Rule := { mode := .allow, pattern := "#Draft++#work+ +work" }

theorem tagOutcome_by_sets_workDraft :
    (namedTags workDraft.pattern).Nonempty ∧ namedTags workDraft.pattern ⊆ Tag.normalForms ["WORK ", "Draft"] ∧
      tagOutcome draftWork ["#Draft", "", "WORK ", "#Draft"] = .ok true ∧
      tagOutcome workDraft ["x", "Draft", "WORK "] = .ok true := by
  have hmatch : tagOutcome workDraft ["WORK ", "Draft"] = .ok true := by decide +kernel
  obtain ⟨hliteral, hsame, hmono⟩ := tagOutcome_by_sets workDraft ["WORK ", "Draft"]
  obtain ⟨b, hb, hiff⟩ := hliteral rfl
  obtain ⟨hnonempty, hsub⟩ := hiff.mp (Except.ok.inj (hb.symm.trans hmatch))
  refine ⟨hnonempty, hsub, (hsame draftWork ["#Draft", "", "WORK ", "#Draft"] rfl rfl ?_ ?_).trans hmatch,
    hmono ["x", "Draft", "WORK "] (by decide) hmatch⟩
  · decide +kernel
  · decide +kernel

end Matching

end NoteAccess
