/-
  NoteAccess.Proofs.VaultPath.Normal

  Normal paths.  A path is normal if it has no separator in front, none that is doubled, no
  backslash and no full stop for a name (`IsNormal`): then its empty pieces are at most the last
  one.  Normal forms are normal, and a normal path is its own normal form.

  A normal form has the names of the path, and so it leads upwards if the path does.
-/

import NoteAccess.Proofs.VaultPath

namespace NoteAccess.VaultPath

open FilePath

variable {t path n : Text}

theorem hasEffect_eq_false_iff {s : Text} : hasEffect s = false ↔ s = [] ∨ s = "." := by
  rw [hasEffect, Bool.and_eq_false_iff, Bool.not_eq_false', List.isEmpty_iff, bne_eq_false_iff_eq]

/-! ## Normal paths -/

/-- A path in its plainest spelling; a separator may stand at the end only. -/
structure IsNormal (t : Text) : Prop where
  head : t.head? ≠ some CodePoint.slash
  single : ¬ ("//" : Text) <:+: t
  backslash : CodePoint.backslash ∉ t
  dot : ("." : Text) ∉ Text.pieces CodePoint.slash t

/-- An empty piece in front of others is behind a separator in front or a doubled one. -/
theorem nil_mem_dropLast_iff :
    [] ∈ (Text.pieces CodePoint.slash t).dropLast ↔
      t.head? = some CodePoint.slash ∨ ("//" : Text) <:+: t := by
  have hlast : ∀ u, [] ∈ ([] :: Text.pieces CodePoint.slash u : List Text).dropLast := by
    intro u
    rw [List.dropLast_cons_of_ne_nil (Text.pieces_ne_nil _ _)]
    exact List.mem_cons_self ..
  constructor
  · intro h
    obtain ⟨ps, qs, hpieces⟩ := List.append_of_mem h
    obtain ⟨last, hlast⟩ : ∃ last, Text.pieces CodePoint.slash t = ps ++ ([] :: (qs ++ [last])) := by
      refine ⟨(Text.pieces CodePoint.slash t).getLast (Text.pieces_ne_nil _ _), ?_⟩
      rw [← List.cons_append, ← List.append_assoc, ← hpieces, List.dropLast_concat_getLast]
    have hrest : ∀ u, Text.pieces CodePoint.slash u = [] :: (qs ++ [last]) → ∃ v, u = CodePoint.slash :: v := by
      intro u hu
      rcases Text.pieces_eq_nil_cons_iff.mp hu with ⟨-, hnil⟩ | ⟨v, hv, -⟩
      · exact absurd hnil (List.append_ne_nil_of_right_ne_nil _ (List.cons_ne_nil _ _))
      · exact ⟨v, hv⟩
    by_cases hps : ps = []
    · rw [hps] at hlast
      obtain ⟨v, rfl⟩ := hrest t hlast
      exact .inl rfl
    · obtain ⟨u, v, rfl, -, hv⟩ := Text.exists_of_pieces_eq_append hlast hps (List.cons_ne_nil _ _)
      obtain ⟨w, rfl⟩ := hrest v hv
      refine .inr ⟨u, w, ?_⟩
      rw [List.append_assoc]
      rfl
  · rintro (hhead | ⟨u, w, rfl⟩)
    · obtain ⟨v, rfl⟩ := List.head?_eq_some_iff.mp hhead
      rw [Text.pieces_sep_cons]
      exact hlast v
    · have hdouble : u ++ ("//" : Text) ++ w = u ++ CodePoint.slash :: CodePoint.slash :: w := by
        rw [List.append_assoc]
        rfl
      rw [hdouble, Text.pieces_append, Text.pieces_sep_cons,
        List.dropLast_append_of_ne_nil (List.cons_ne_nil _ _)]
      exact List.mem_append_right _ (hlast w)

/-- All pieces of a normal path have an effect, except for an empty one at the end. -/
theorem IsNormal.named (h : IsNormal t) :
    ∀ p ∈ (Text.pieces CodePoint.slash t).dropLast, hasEffect p = true := by
  intro p hp
  refine hasEffect_iff.mpr ⟨?_, ?_⟩
  · rintro rfl
    rcases nil_mem_dropLast_iff.mp hp with hhead | hdouble
    · exact h.head hhead
    · exact h.single hdouble
  · rintro rfl
    exact h.dot (List.dropLast_subset _ hp)

/-- A normal path is its own normal form. -/
theorem normalize_eq_self (h : IsNormal t) : normalize t = t := by
  have hpieces := h.named
  have hdot := h.dot
  have hjoin := Text.join_pieces CodePoint.slash t
  rw [normalize_eq, slashed_of_not_mem h.backslash, segmentsOf_eq, endsOpen]
  have hne := Text.pieces_ne_nil CodePoint.slash t
  generalize Text.pieces CodePoint.slash t = ps at hpieces hdot hjoin hne
  obtain ⟨ps, last, rfl⟩ : ∃ qs q, ps = qs ++ [q] :=
    ⟨ps.dropLast, ps.getLast hne, (List.dropLast_concat_getLast hne).symm⟩
  rw [List.dropLast_concat] at hpieces
  rw [List.filter_append, List.filter_eq_self.mpr hpieces, List.getLast?_concat, Option.any_some]
  by_cases hlast : last = []
  · -- The empty piece at the end is the separator behind the names.
    subst hlast
    have hnone : List.filter hasEffect [([] : Text)] = [] := rfl
    rw [hnone, List.append_nil]
    by_cases hps : ps = []
    · rw [hps] at hjoin ⊢
      exact hjoin
    · rw [if_pos (by simp [hps, hasEffect]), ← hjoin, Text.join_concat hps]
  · have heffect : hasEffect last = true := by
      refine hasEffect_iff.mpr ⟨hlast, ?_⟩
      rintro rfl
      exact hdot (List.mem_append_right _ (List.mem_singleton_self _))
    rw [List.filter_cons_of_pos heffect, List.filter_nil, heffect, Bool.not_true, Bool.and_false,
      if_neg Bool.false_ne_true, List.append_nil, hjoin]

/-! ## Normal forms -/

/-- The pieces of a normal form are the names of the path, with an empty one behind them if the
    path has no names or is written as that of a folder. -/
theorem pieces_normalize (path : Text) :
    Text.pieces CodePoint.slash (normalize path) = segmentsOf (slashed path) ++
      (if (segmentsOf (slashed path)).isEmpty || endsOpen (slashed path) then [[]] else []) := by
  have hnames : ∀ p ∈ segmentsOf (slashed path), CodePoint.slash ∉ p :=
    fun p hp => (isName_of_mem_segmentsOf hp).2
  rw [normalize_eq]
  by_cases hne : segmentsOf (slashed path) = []
  · rw [hne]
    rfl
  · have hpieces := Text.pieces_join hnames hne
    rw [List.isEmpty_eq_false_iff.mpr hne, Bool.false_or, Bool.not_false, Bool.true_and]
    split
    · rw [Text.pieces_append, hpieces]
      rfl
    · rw [List.append_nil, List.append_nil, hpieces]

theorem mem_pieces_normalize (hn : hasEffect n = true) :
    n ∈ Text.pieces CodePoint.slash (normalize path) ↔ n ∈ Text.pieces CodePoint.slash (slashed path) := by
  have hempty : n ≠ [] := (hasEffect_iff.mp hn).1
  rw [pieces_normalize, List.mem_append, segmentsOf_eq, List.mem_filter, and_iff_left hn]
  refine or_iff_left fun hlast => ?_
  split at hlast
  · exact hempty (List.mem_singleton.mp hlast)
  · exact List.not_mem_nil hlast

theorem isNormal_normalize (path : Text) : IsNormal (normalize path) := by
  have hnames : ∀ p ∈ segmentsOf (slashed path), hasEffect p = true :=
    fun p hp => (isName_of_mem_segmentsOf hp).1
  have hfront : [] ∉ (Text.pieces CodePoint.slash (normalize path)).dropLast := by
    intro hmem
    have hname : [] ∈ segmentsOf (slashed path) := by
      rw [pieces_normalize] at hmem
      split at hmem
      · rwa [List.dropLast_concat] at hmem
      · rw [List.append_nil] at hmem
        exact List.dropLast_subset _ hmem
    exact absurd (hnames [] hname) (by decide)
  rw [nil_mem_dropLast_iff, not_or] at hfront
  refine ⟨hfront.1, hfront.2, ?_, ?_⟩
  · exact slashed_normalize path ▸ backslash_not_mem_slashed (normalize path)
  · rw [pieces_normalize, List.mem_append, not_or]
    refine ⟨fun hmem => absurd (hnames _ hmem) (by decide), fun hmem => ?_⟩
    split at hmem
    · exact absurd (List.mem_singleton.mp hmem) (by decide)
    · exact List.not_mem_nil hmem

/-! ## Paths that lead upwards -/

/-- A path is refused for leading upwards if it is neither too long nor has a NUL, for which it
    would be refused before. -/
theorem check_eq_leavesVault_iff :
    check path = .error .leavesVault ↔
      (".." : Text) ∈ Text.pieces CodePoint.slash path ∧ path.length ≤ maxLength ∧ 0 ∉ path := by
  unfold check
  by_cases hlong : maxLength < path.length
  · rw [if_pos hlong]
    exact iff_of_false (fun h => nomatch h) fun h => Nat.not_le.mpr hlong h.2.1
  · rw [if_neg hlong, and_iff_right (Nat.le_of_not_lt hlong), ← List.contains_iff_mem,
      ← List.contains_iff_mem]
    by_cases hnul : path.contains 0 = true
    · rw [if_pos hnul]
      exact iff_of_false (fun h => nomatch h) fun h => h.2 hnul
    · rw [if_neg hnul, and_iff_left hnul]
      split
      · next hdots => exact iff_of_true rfl hdots
      · next hdots => exact iff_of_false (fun h => nomatch h) hdots

/-- The normal form of a path is its names, the pieces that are neither empty nor a full stop, with
    a separator behind them if there are any and the last piece is none of them.  It is a normal
    path, so it is its own normal form.  It is refused for leading upwards if one of the pieces is
    `..`, unless it is too long or has a NUL, which are looked for first; it is refused in any
    case. -/
theorem normalize_normalForm (path : Text) :
    let pieces := Text.pieces CodePoint.slash (slashed path)
    let names := pieces.filter fun piece => piece ≠ [] ∧ piece ≠ "."
    normalize path = Text.join [CodePoint.slash] names ++
        (if names ≠ [] ∧ (pieces.getLast? = some [] ∨ pieces.getLast? = some ("." : Text)) then
          [CodePoint.slash] else []) ∧
      normalize (normalize path) = normalize path ∧
      IsNormal (normalize path) ∧
      (check (normalize path) = .error .leavesVault ↔
        (".." : Text) ∈ pieces ∧ (normalize path).length ≤ maxLength ∧ 0 ∉ normalize path) ∧
      ((".." : Text) ∈ pieces → check (normalize path) ≠ .ok ()) := by
  intro pieces names
  have hnames : segmentsOf (slashed path) = names := by
    refine List.filter_congr fun p _ => ?_
    rw [Bool.eq_iff_iff, ← hasEffect, hasEffect_iff, decide_eq_true_iff]
  have hopen : endsOpen (slashed path) = true ↔
      pieces.getLast? = some [] ∨ pieces.getLast? = some ("." : Text) := by
    rw [endsOpen, Option.any_eq_true]
    constructor
    · rintro ⟨last, hlast, hnot⟩
      rw [Bool.not_eq_true', hasEffect_eq_false_iff] at hnot
      rcases hnot with rfl | rfl
      · exact .inl hlast
      · exact .inr hlast
    · rintro (hlast | hlast)
      · exact ⟨[], hlast, rfl⟩
      · exact ⟨".", hlast, rfl⟩
  have hdots : (".." : Text) ∈ Text.pieces CodePoint.slash (normalize path) ↔ (".." : Text) ∈ pieces :=
    mem_pieces_normalize (by decide)
  refine ⟨?_, normalize_eq_self (isNormal_normalize path), isNormal_normalize path, ?_, ?_⟩
  · rw [normalize_eq, hnames]
    simp only [Bool.and_eq_true, hopen, Bool.not_eq_true', List.isEmpty_eq_false_iff]
  · rw [check_eq_leavesVault_iff, hdots]
  · intro hmem hok
    exact (check_eq_ok_iff.mp hok).2.2 (hdots.mpr hmem)

/-- A name with a NUL in front of `..`: the path is refused for the NUL. -/
theorem check_nul_above :
    check (normalize "\x00/..") = .error .hasNul ∧
      ¬ (check (normalize "\x00/..") = .error .leavesVault ↔
        (".." : Text) ∈ Text.pieces CodePoint.slash (slashed "\x00/..")) := by
  have hnul : check (normalize "\x00/..") = .error .hasNul := rfl
  refine ⟨hnul, fun hiff => ?_⟩
  have hrefused := hiff.mpr (by decide)
  rw [hnul] at hrefused
  cases hrefused

end NoteAccess.VaultPath
