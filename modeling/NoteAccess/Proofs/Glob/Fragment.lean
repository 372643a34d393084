/-
  NoteAccess.Proofs.Glob.Fragment

  What the parts of a glob take.  `Fragment.Takes` says which texts a part takes
  and `TakesAll` which a list of parts takes one after the other; the search
  through what can remain after each part (`matchAll`) decides exactly this
  (`matchAll_iff`).
-/

import NoteAccess.Glob

namespace NoteAccess.Glob

/-! ## One part -/

theorem mem_afterOne {p : CodePoint → Bool} {t v : Text} :
    v ∈ afterOne p t ↔ ∃ u, t = u ++ v ∧ ∃ c, u = [c] ∧ p c = true := by
  cases t with
  | nil => simp [afterOne]
  | cons c t =>
    rw [afterOne]
    split
    · next hc =>
      rw [List.mem_singleton]
      constructor
      · rintro rfl
        exact ⟨[c], rfl, c, rfl, hc⟩
      · rintro ⟨u, h, d, rfl, -⟩
        exact (List.cons.inj h).2.symm
    · next hc =>
      constructor
      · intro h
        exact absurd h List.not_mem_nil
      · rintro ⟨u, h, d, rfl, hd⟩
        exact absurd ((List.cons.inj h).1 ▸ hd) hc

theorem mem_suffixes {t v : Text} : v ∈ suffixes t ↔ ∃ u, t = u ++ v := by
  induction t with
  | nil =>
    rw [suffixes, List.mem_singleton]
    constructor
    · rintro rfl
      exact ⟨[], rfl⟩
    · rintro ⟨u, h⟩
      exact (List.append_eq_nil_iff.mp h.symm).2
  | cons c t ih =>
    rw [suffixes, List.mem_cons, ih]
    constructor
    · rintro (rfl | ⟨u, rfl⟩)
      · exact ⟨[], rfl⟩
      · exact ⟨c :: u, rfl⟩
    · rintro ⟨u, h⟩
      rcases List.cons_eq_append_iff.mp h with ⟨-, hv⟩ | ⟨u', -, ht⟩
      · exact .inl hv
      · exact .inr ⟨u', ht⟩

theorem mem_afterSeparators {t v : Text} :
    v ∈ afterSeparators t ↔ ∃ u, t = u ++ CodePoint.slash :: v := by
  induction t with
  | nil => simp [afterSeparators]
  | cons c t ih =>
    have hcons : (∃ u, c :: t = u ++ CodePoint.slash :: v) ↔
        (c = CodePoint.slash ∧ v = t) ∨ ∃ u, t = u ++ CodePoint.slash :: v := by
      constructor
      · rintro ⟨u, h⟩
        rcases List.cons_eq_append_iff.mp h with ⟨-, hv⟩ | ⟨u', -, ht⟩
        · obtain ⟨rfl, rfl⟩ := List.cons.inj hv
          exact .inl ⟨rfl, rfl⟩
        · exact .inr ⟨u', ht⟩
      · rintro (⟨rfl, rfl⟩ | ⟨u, rfl⟩)
        · exact ⟨[], rfl⟩
        · exact ⟨c :: u, rfl⟩
    rw [hcons, afterSeparators]
    split
    · next hc => rw [List.mem_cons, ih, and_iff_right hc]
    · next hc => rw [ih, or_iff_right fun h => hc h.1]

theorem mem_withinSegment {t v : Text} :
    v ∈ withinSegment t ↔ ∃ u, t = u ++ v ∧ CodePoint.slash ∉ u := by
  induction t with
  | nil =>
    rw [withinSegment, List.mem_singleton]
    constructor
    · rintro rfl
      exact ⟨[], rfl, List.not_mem_nil⟩
    · rintro ⟨u, h, -⟩
      exact (List.append_eq_nil_iff.mp h.symm).2
  | cons c t ih =>
    rw [withinSegment]
    split
    · next hc =>
      rw [List.mem_singleton]
      constructor
      · rintro rfl
        exact ⟨[], rfl, List.not_mem_nil⟩
      · rintro ⟨u, h, hu⟩
        rcases List.cons_eq_append_iff.mp h with ⟨-, hv⟩ | ⟨u', rfl, -⟩
        · exact hv
        · exact absurd (hc ▸ List.mem_cons_self ..) hu
    · next hc =>
      rw [List.mem_cons, ih]
      constructor
      · rintro (rfl | ⟨u, rfl, hu⟩)
        · exact ⟨[], rfl, List.not_mem_nil⟩
        · refine ⟨c :: u, rfl, ?_⟩
          rw [List.mem_cons, not_or]
          exact ⟨Ne.symm hc, hu⟩
      · rintro ⟨u, h, hu⟩
        rcases List.cons_eq_append_iff.mp h with ⟨-, hv⟩ | ⟨u', rfl, ht⟩
        · exact .inl hv
        · exact .inr ⟨u', ht, fun hmem => hu (List.mem_cons_of_mem _ hmem)⟩

/-- The texts that a part takes. -/
def Fragment.Takes : Fragment → Text → Prop
  | literal c, u => u = [c]
  | one, u => ∃ c, u = [c] ∧ c ≠ CodePoint.slash
  | run, u => CodePoint.slash ∉ u
  | oneOf body, u => ∃ c, u = [c] ∧ c ≠ CodePoint.slash ∧ inClass body c = true
  | noneOf body, u => ∃ c, u = [c] ∧ inClass (negatedBody body) c = false
  | separator, u => u = [CodePoint.slash]
  | anything, _ => True
  | folders, u => u = [] ∨ ∃ w, u = w ++ [CodePoint.slash]
  | below, u => u = [] ∨ ∃ w, u = CodePoint.slash :: w

/-- What can remain after a part is what stands behind a text that the part takes. -/
theorem Fragment.mem_rests {f : Fragment} {t v : Text} :
    v ∈ f.rests t ↔ ∃ u, t = u ++ v ∧ f.Takes u := by
  cases f with
  -- Parts that take a single code point.
  | literal d => simp [rests, Takes, mem_afterOne]
  | separator => simp [rests, Takes, mem_afterOne]
  | one => simp only [rests, Takes, mem_afterOne, bne_iff_ne]
  | oneOf body => simp only [rests, Takes, mem_afterOne, Bool.and_eq_true, bne_iff_ne]
  | noneOf body => simp only [rests, Takes, mem_afterOne, Bool.not_eq_true']
  -- Parts that take a run of them.
  | run => exact mem_withinSegment
  | anything => simp only [rests, Takes, mem_suffixes, and_true]
  | folders =>
    simp only [rests, Takes, List.mem_cons, mem_afterSeparators]
    constructor
    · rintro (rfl | ⟨w, rfl⟩)
      · exact ⟨[], rfl, .inl rfl⟩
      · exact ⟨w ++ [CodePoint.slash], by simp, .inr ⟨w, rfl⟩⟩
    · rintro ⟨u, rfl, rfl | ⟨w, rfl⟩⟩
      · exact .inl rfl
      · exact .inr ⟨w, by simp⟩
  | below =>
    simp only [rests, Takes]
    constructor
    · intro h
      split at h
      · rw [List.mem_singleton] at h
        subst h
        exact ⟨[], rfl, .inl rfl⟩
      · next c rest =>
        split at h
        · next hc =>
          rcases List.mem_cons.mp h with rfl | h
          · exact ⟨[], rfl, .inl rfl⟩
          · obtain ⟨w, rfl⟩ := mem_suffixes.mp h
            exact ⟨c :: w, rfl, .inr ⟨w, by rw [hc]⟩⟩
        · rw [List.mem_singleton] at h
          subst h
          exact ⟨[], rfl, .inl rfl⟩
    · rintro ⟨u, rfl, rfl | ⟨w, rfl⟩⟩
      · rw [List.nil_append]
        split
        · exact List.mem_cons_self ..
        · split
          · exact List.mem_cons_self ..
          · exact List.mem_cons_self ..
      · rw [List.cons_append]
        dsimp only
        rw [if_pos rfl]
        exact List.mem_cons_of_mem _ (mem_suffixes.mpr ⟨w, rfl⟩)

/-! ## Lists of parts -/

/-- The texts that parts take one after the other. -/
def TakesAll : List Fragment → Text → Prop
  | [], t => t = []
  | f :: fs, t => ∃ u v, t = u ++ v ∧ f.Takes u ∧ TakesAll fs v

/-- The search through the rests finds what the parts take. -/
theorem matchAll_iff {fs : List Fragment} {t : Text} : matchAll fs t = true ↔ TakesAll fs t := by
  -- The text is general: each part leaves the later ones a different rest.
  induction fs generalizing t with
  | nil => rw [matchAll, TakesAll, List.isEmpty_iff]
  | cons f fs ih =>
    rw [matchAll, TakesAll, List.any_eq_true]
    constructor
    · rintro ⟨v, hv, hmatch⟩
      obtain ⟨u, rfl, hu⟩ := Fragment.mem_rests.mp hv
      exact ⟨u, v, rfl, hu, ih.mp hmatch⟩
    · rintro ⟨u, v, rfl, hu, hv⟩
      exact ⟨v, Fragment.mem_rests.mpr ⟨u, rfl, hu⟩, ih.mpr hv⟩

/-- A text that two lists of parts take is one that the first takes in front of one that
    the second takes. -/
theorem takesAll_append {fs gs : List Fragment} {t : Text} :
    TakesAll (fs ++ gs) t ↔ ∃ u v, t = u ++ v ∧ TakesAll fs u ∧ TakesAll gs v := by
  induction fs generalizing t with
  | nil =>
    constructor
    · intro h
      exact ⟨[], t, rfl, rfl, h⟩
    · rintro ⟨u, v, rfl, rfl, hv⟩
      exact hv
  | cons f fs ih =>
    rw [List.cons_append, TakesAll]
    constructor
    · rintro ⟨a, b, rfl, ha, hb⟩
      obtain ⟨u, v, rfl, hu, hv⟩ := ih.mp hb
      exact ⟨a ++ u, v, (List.append_assoc ..).symm, ⟨a, u, rfl, ha, hu⟩, hv⟩
    · rintro ⟨u, v, rfl, ⟨a, b, rfl, ha, hb⟩, hv⟩
      exact ⟨a, b ++ v, List.append_assoc .., ha, ih.mpr ⟨b, v, rfl, hb, hv⟩⟩

/-- A part that takes a single code point takes the first of the text. -/
theorem takesAll_single_cons {f : Fragment} {p : CodePoint → Prop} {fs : List Fragment} {t : Text}
    (hf : ∀ u, f.Takes u ↔ ∃ c, u = [c] ∧ p c) :
    TakesAll (f :: fs) t ↔ ∃ c v, t = c :: v ∧ p c ∧ TakesAll fs v := by
  rw [TakesAll]
  constructor
  · rintro ⟨u, v, rfl, hu, hv⟩
    obtain ⟨c, rfl, hc⟩ := (hf u).mp hu
    exact ⟨c, v, rfl, hc, hv⟩
  · rintro ⟨c, v, rfl, hc, hv⟩
    exact ⟨[c], v, rfl, (hf [c]).mpr ⟨c, rfl, hc⟩, hv⟩

theorem takesAll_one_cons {fs : List Fragment} {t : Text} :
    TakesAll (.one :: fs) t ↔ ∃ c v, t = c :: v ∧ c ≠ CodePoint.slash ∧ TakesAll fs v :=
  takesAll_single_cons fun _ => Iff.rfl

theorem takesAll_literal_cons {c : CodePoint} {fs : List Fragment} {t : Text} :
    TakesAll (.literal c :: fs) t ↔ ∃ v, t = c :: v ∧ TakesAll fs v := by
  have hsingle : ∀ u, (Fragment.literal c).Takes u ↔ ∃ d, u = [d] ∧ d = c := by
    simp [Fragment.Takes]
  rw [takesAll_single_cons hsingle]
  constructor
  · rintro ⟨_, v, ht, rfl, hv⟩
    exact ⟨v, ht, hv⟩
  · rintro ⟨v, ht, hv⟩
    exact ⟨c, v, ht, rfl, hv⟩

theorem takesAll_separator_cons {fs : List Fragment} {t : Text} :
    TakesAll (.separator :: fs) t ↔ ∃ v, t = CodePoint.slash :: v ∧ TakesAll fs v := by
  have hsame : TakesAll (.separator :: fs) t ↔ TakesAll (.literal CodePoint.slash :: fs) t := Iff.rfl
  rw [hsame, takesAll_literal_cons]

theorem takesAll_below {t : Text} :
    TakesAll [.below] t ↔ t = [] ∨ ∃ u, t = CodePoint.slash :: u := by
  rw [TakesAll]
  constructor
  · rintro ⟨u, v, rfl, hu, rfl⟩
    rwa [List.append_nil]
  · intro h
    exact ⟨t, [], (List.append_nil t).symm, h, rfl⟩

theorem takesAll_anything (t : Text) : TakesAll [.anything] t :=
  ⟨t, [], (List.append_nil t).symm, trivial, rfl⟩

end NoteAccess.Glob
