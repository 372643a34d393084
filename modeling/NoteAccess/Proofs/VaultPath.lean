/-
  NoteAccess.Proofs.VaultPath

  The normal form of a vault path.  Its names are the pieces that are neither
  empty nor a full stop; joined they are the normal form, with one separator
  behind them if the path is written as that of a folder (`normalize_eq`).

  The names of a path that is joined from names are these names again, so the
  normal form of a path has the names of the path (`segmentsOf_normalize`), and
  joined names are their own normal form (`normalize_join`).
-/

import NoteAccess.FilePath
import NoteAccess.Proofs.Text
import NoteAccess.VaultPath

namespace NoteAccess

/-! ## Names -/

/-- Whether a piece of a path has an effect. -/
def hasEffect (s : Text) : Bool := !s.isEmpty && s != "."

theorem hasEffect_iff {s : Text} : hasEffect s = true ↔ s ≠ [] ∧ s ≠ "." := by
  simp [hasEffect]

/-- A piece of a path that names something. -/
def IsName (s : Text) : Prop := hasEffect s = true ∧ CodePoint.slash ∉ s

instance (s : Text) : Decidable (IsName s) := inferInstanceAs (Decidable (hasEffect s = true ∧ CodePoint.slash ∉ s))

namespace FilePath

theorem segmentsOf_eq (t : Text) :
    segmentsOf t = (Text.pieces CodePoint.slash t).filter hasEffect := rfl

theorem isName_of_mem_segmentsOf {t s : Text} (h : s ∈ segmentsOf t) : IsName s := by
  rw [segmentsOf_eq] at h
  obtain ⟨hmem, hname⟩ := List.mem_filter.mp h
  exact ⟨hname, Text.not_mem_of_mem_pieces hmem⟩

/-- The names of a joined path are the names that were joined. -/
theorem segmentsOf_join {names : List Text} (h : ∀ n ∈ names, IsName n) :
    segmentsOf (Text.join [CodePoint.slash] names) = names := by
  by_cases hne : names = []
  · subst hne
    rfl
  · rw [segmentsOf_eq, Text.pieces_join (fun n hn => (h n hn).2) hne, List.filter_eq_self]
    exact fun n hn => (h n hn).1

/-- A separator stands between the names before it and those behind it. -/
theorem segmentsOf_append (s t : Text) :
    segmentsOf (s ++ CodePoint.slash :: t) = segmentsOf s ++ segmentsOf t := by
  rw [segmentsOf_eq, Text.pieces_append, List.filter_append]
  rfl

theorem segmentsOf_append_slash (t : Text) : segmentsOf (t ++ [CodePoint.slash]) = segmentsOf t := by
  rw [segmentsOf_append]
  exact List.append_nil _

theorem segmentsOf_dropWhile (t : Text) :
    segmentsOf (t.dropWhile (· == CodePoint.slash)) = segmentsOf t := by
  induction t with
  | nil => rfl
  | cons c t ih =>
    by_cases hc : c = CodePoint.slash
    · subst hc
      have hpieces : segmentsOf (CodePoint.slash :: t) = segmentsOf t := by
        rw [segmentsOf_eq, Text.pieces_sep_cons]
        rfl
      rw [List.dropWhile_cons_of_pos (by rfl), ih, hpieces]
    · rw [List.dropWhile_cons_of_neg (by simpa using hc)]

end FilePath

namespace VaultPath

open FilePath

theorem backslash_not_mem_slashed (path : Text) : CodePoint.backslash ∉ slashed path := by
  intro h
  obtain ⟨c, -, hc⟩ := List.mem_flatMap.mp h
  split at hc
  · exact absurd (List.mem_singleton.mp hc) (by decide)
  · next hne => exact hne (List.mem_singleton.mp hc).symm

theorem slashed_of_not_mem {path : Text} (h : CodePoint.backslash ∉ path) : slashed path = path := by
  induction path with
  | nil => rfl
  | cons c path ih =>
    obtain ⟨hc, hpath⟩ := not_or.mp (mt List.mem_cons.mpr h)
    have hrest : slashed path = path := ih hpath
    unfold slashed Text.replace at hrest ⊢
    rw [List.flatMap_cons, hrest, if_neg (Ne.symm hc), List.singleton_append]

/-- Besides separators, a path without leading ones holds what the path holds. -/
theorem mem_relative {path : Text} {c : CodePoint} (h : c ∈ relative path) :
    c ≠ CodePoint.backslash ∧ (c = CodePoint.slash ∨ c ∈ path) := by
  have hslashed : c ∈ slashed path := (List.dropWhile_suffix _).subset h
  refine ⟨fun hc => backslash_not_mem_slashed path (hc ▸ hslashed), ?_⟩
  obtain ⟨d, hd, hin⟩ := List.mem_flatMap.mp hslashed
  split at hin
  · exact .inl (List.mem_singleton.mp hin)
  · exact .inr (List.mem_singleton.mp hin ▸ hd)

/-! ## Runs of separators -/

/-- The pieces without the empty ones, except for the last piece. -/
def dropEmpty : List Text → List Text
  | [] => []
  | [last] => [last]
  | piece :: rest => if piece.isEmpty then dropEmpty rest else piece :: dropEmpty rest

theorem dropEmpty_cons {piece : Text} {rest : List Text} (h : rest ≠ []) :
    dropEmpty (piece :: rest) = if piece.isEmpty then dropEmpty rest else piece :: dropEmpty rest := by
  obtain ⟨q, rest, rfl⟩ := List.exists_cons_of_ne_nil h
  rfl

theorem dropEmpty_ne_nil {ps : List Text} (h : ps ≠ []) : dropEmpty ps ≠ [] := by
  induction ps with
  | nil => exact absurd rfl h
  | cons p ps ih =>
    by_cases hps : ps = []
    · subst hps
      exact List.cons_ne_nil _ _
    · rw [dropEmpty_cons hps]
      split
      · exact ih hps
      · exact List.cons_ne_nil _ _

/-- Merging the separators of a path leaves the first piece and drops the empty ones behind
    it, except for the last. -/
theorem pieces_mergeSlashes {t head : Text} {tail : List Text}
    (h : Text.pieces CodePoint.slash t = head :: tail) :
    Text.pieces CodePoint.slash (mergeSlashes t) = head :: dropEmpty tail := by
  -- By induction on the text, with the pieces of each tail named by its first piece.
  induction t generalizing head tail with
  | nil =>
    cases h
    rfl
  | cons c t ih =>
    obtain ⟨head', tail', ht⟩ := List.exists_cons_of_ne_nil (Text.pieces_ne_nil CodePoint.slash t)
    have hmerged := ih ht
    by_cases hc : c = CodePoint.slash
    · subst hc
      rw [Text.pieces_sep_cons, ht] at h
      obtain ⟨rfl, rfl⟩ := List.cons.inj h
      by_cases hnext : t.head? = some CodePoint.slash
      · -- The separator merges with the next one, between which the piece is empty.
        obtain ⟨t', rfl⟩ := List.head?_eq_some_iff.mp hnext
        rw [Text.pieces_sep_cons] at ht
        obtain ⟨rfl, rfl⟩ := List.cons.inj ht
        rw [mergeSlashes, if_pos (by simp), hmerged, dropEmpty_cons (Text.pieces_ne_nil _ _)]
        rfl
      · -- Otherwise the next piece is not empty, unless it is the last.
        have hempty : tail' ≠ [] → head' ≠ [] := by
          intro htail
          cases t with
          | nil =>
            cases ht
            exact absurd rfl htail
          | cons d t =>
            have hd : d ≠ CodePoint.slash := by
              rintro rfl
              exact hnext rfl
            obtain ⟨first, rest, hfirst⟩ :=
              List.exists_cons_of_ne_nil (Text.pieces_ne_nil CodePoint.slash t)
            rw [Text.pieces_cons_of_ne hd hfirst] at ht
            rw [← (List.cons.inj ht).1]
            exact List.cons_ne_nil _ _
        have hsame : dropEmpty (head' :: tail') = head' :: dropEmpty tail' := by
          by_cases htail : tail' = []
          · rw [htail]
            rfl
          · rw [dropEmpty_cons htail, if_neg (by simpa using hempty htail)]
        rw [mergeSlashes, if_neg (by simpa using hnext), Text.pieces_sep_cons, hmerged, hsame]
    · rw [Text.pieces_cons_of_ne hc ht] at h
      obtain ⟨rfl, rfl⟩ := List.cons.inj h
      rw [mergeSlashes, if_neg (by simp [hc]), Text.pieces_cons_of_ne hc hmerged]

/-- Without the separators in front, all empty pieces are dropped except for the last. -/
theorem pieces_dropWhile_mergeSlashes (t : Text) :
    Text.pieces CodePoint.slash ((mergeSlashes t).dropWhile (· == CodePoint.slash)) =
      dropEmpty (Text.pieces CodePoint.slash t) := by
  induction t with
  | nil => rfl
  | cons c t ih =>
    by_cases hc : c = CodePoint.slash
    · subst hc
      have hdrop : (mergeSlashes (CodePoint.slash :: t)).dropWhile (· == CodePoint.slash) =
          (mergeSlashes t).dropWhile (· == CodePoint.slash) := by
        rw [mergeSlashes]
        split
        · rfl
        · exact List.dropWhile_cons_of_pos (by rfl)
      rw [hdrop, ih, Text.pieces_sep_cons, dropEmpty_cons (Text.pieces_ne_nil _ _)]
      rfl
    · obtain ⟨head, tail, ht⟩ := List.exists_cons_of_ne_nil (Text.pieces_ne_nil CodePoint.slash t)
      have hkeep : mergeSlashes (c :: t) = c :: mergeSlashes t := by
        rw [mergeSlashes, if_neg (by simp [hc])]
      rw [hkeep, List.dropWhile_cons_of_neg (by simpa using hc),
        Text.pieces_cons_of_ne hc (pieces_mergeSlashes ht), Text.pieces_cons_of_ne hc ht]
      by_cases htail : tail = []
      · rw [htail]
        rfl
      · rw [dropEmpty_cons htail]
        rfl

/-! ## Full stops -/

/-- What is left of the last piece of a path. -/
def closing (last : Text) : Text := if hasEffect last then last else []

theorem dropDots_cons {piece : Text} {rest : List Text} (h : rest ≠ []) :
    dropDots (piece :: rest) = if piece = "." then dropDots rest else piece :: dropDots rest := by
  obtain ⟨q, rest, rfl⟩ := List.exists_cons_of_ne_nil h
  rfl

theorem dropDots_singleton (last : Text) : dropDots [last] = [closing last] := by
  unfold closing
  by_cases hempty : last = []
  · rw [hempty]
    rfl
  · rw [dropDots]
    split
    · next hdot =>
      rw [hdot]
      rfl
    · next hdot => rw [if_pos (hasEffect_iff.mpr ⟨hempty, hdot⟩)]

/-- Dropping the empty pieces and then the full stops leaves the names and the last piece. -/
theorem dropDots_dropEmpty (ps : List Text) (last : Text) :
    dropDots (dropEmpty (ps ++ [last])) = ps.filter hasEffect ++ [closing last] := by
  induction ps with
  | nil => exact dropDots_singleton last
  | cons p ps ih =>
    have hne : ps ++ [last] ≠ [] := by simp
    rw [List.cons_append, dropEmpty_cons hne]
    by_cases hempty : p = []
    · rw [hempty, if_pos List.isEmpty_nil, ih]
      rfl
    · rw [if_neg (by simpa using hempty), dropDots_cons (dropEmpty_ne_nil hne), ih]
      by_cases hdot : p = "."
      · rw [if_pos hdot, hdot]
        rfl
      · rw [if_neg hdot, List.filter_cons_of_pos (hasEffect_iff.mpr ⟨hempty, hdot⟩),
          List.cons_append]

/-! ## The normal form -/

/-- Whether a path is written as that of a folder: what stands behind its last separator
    has no effect. -/
def endsOpen (t : Text) : Bool := (Text.pieces CodePoint.slash t).getLast?.any (!hasEffect ·)

/-- The normal form of a path is its names, with a separator behind them if the path is
    written as that of a folder. -/
theorem normalize_eq (path : Text) :
    normalize path = Text.join [CodePoint.slash] (segmentsOf (slashed path)) ++
      (if !(segmentsOf (slashed path)).isEmpty && endsOpen (slashed path) then [CodePoint.slash]
        else []) := by
  have hne := Text.pieces_ne_nil CodePoint.slash (slashed path)
  have hnormal : normalize path = Text.join [CodePoint.slash]
      (dropDots (dropEmpty (Text.pieces CodePoint.slash (slashed path)))) := by
    rw [normalize, pieces_dropWhile_mergeSlashes]
  rw [hnormal, segmentsOf_eq, endsOpen]
  generalize Text.pieces CodePoint.slash (slashed path) = ps at hne
  obtain ⟨ps, last, rfl⟩ : ∃ qs q, ps = qs ++ [q] :=
    ⟨ps.dropLast, ps.getLast hne, (List.dropLast_concat_getLast hne).symm⟩
  rw [dropDots_dropEmpty, List.getLast?_append, List.getLast?_singleton, Option.some_or,
    Option.any_some, List.filter_append, closing]
  -- The last piece is a name, or it only leaves a separator behind the names.
  by_cases hlast : hasEffect last = true
  · rw [if_pos hlast, List.filter_cons_of_pos hlast, hlast, Bool.not_true, Bool.and_false,
      if_neg Bool.false_ne_true, List.append_nil]
    rfl
  · rw [if_neg hlast, List.filter_cons_of_neg hlast, List.filter_nil, List.append_nil]
    by_cases hnames : ps.filter hasEffect = []
    · rw [hnames]
      rfl
    · rw [if_pos (by simp [hnames, hlast]), Text.join_concat hnames]

/-- A path that is joined from names, in which no backslash is, is its own normal form. -/
theorem normalize_join {names : List Text} (h : ∀ n ∈ names, IsName n)
    (hb : ∀ n ∈ names, CodePoint.backslash ∉ n) :
    normalize (Text.join [CodePoint.slash] names) = Text.join [CodePoint.slash] names := by
  have hslashed : slashed (Text.join [CodePoint.slash] names) = Text.join [CodePoint.slash] names := by
    apply slashed_of_not_mem
    intro hmem
    obtain hsep | ⟨n, hn, hmem⟩ := Text.mem_join hmem
    · exact absurd (List.mem_singleton.mp hsep) (by decide)
    · exact hb n hn hmem
  rw [normalize_eq, hslashed, segmentsOf_join h, if_neg, List.append_nil]
  intro hopen
  simp only [Bool.and_eq_true, Bool.not_eq_true', List.isEmpty_eq_false_iff] at hopen
  obtain ⟨hne, hopen⟩ := hopen
  rw [endsOpen, Text.pieces_join (fun n hn => (h n hn).2) hne, List.getLast?_eq_some_getLast hne,
    Option.any_some, (h _ (List.getLast_mem hne)).1] at hopen
  cases hopen

/-- The names of a path are those of its normal form. -/
theorem segmentsOf_normalize (path : Text) :
    segmentsOf (normalize path) = segmentsOf (slashed path) := by
  have hnames : ∀ n ∈ segmentsOf (slashed path), IsName n := fun n => isName_of_mem_segmentsOf
  rw [normalize_eq]
  split
  · rw [segmentsOf_append_slash, segmentsOf_join hnames]
  · rw [List.append_nil, segmentsOf_join hnames]

/-- Paths with the same names are the same in normal form if both are written as that of a
    folder or neither is. -/
theorem normalize_congr {p q : Text} (hnames : segmentsOf (slashed p) = segmentsOf (slashed q))
    (hopen : endsOpen (slashed p) = endsOpen (slashed q)) : normalize p = normalize q := by
  rw [normalize_eq, normalize_eq, hnames, hopen]

theorem slashed_append (s t : Text) : slashed (s ++ t) = slashed s ++ slashed t := List.flatMap_append

theorem slashed_append_slash (s t : Text) :
    slashed (s ++ CodePoint.slash :: t) = slashed s ++ CodePoint.slash :: slashed t := by
  rw [slashed_append]
  rfl

/-- Only what stands behind the last separator tells whether a path is that of a folder. -/
theorem endsOpen_append (s t : Text) : endsOpen (s ++ CodePoint.slash :: t) = endsOpen t := by
  obtain ⟨last, hlast⟩ := Option.isSome_iff_exists.mp
    (List.getLast?_isSome.mpr (Text.pieces_ne_nil CodePoint.slash t))
  rw [endsOpen, endsOpen, Text.pieces_append, List.getLast?_append, hlast, Option.some_or]

/-- The names of a path in a folder are those of the folder and those of the rest. -/
theorem segmentsOf_slashed_append (s t : Text) :
    segmentsOf (slashed (s ++ CodePoint.slash :: t)) =
      segmentsOf (slashed s) ++ segmentsOf (slashed t) := by
  rw [slashed_append_slash, segmentsOf_append]

/-- Folders with the same names make the same path of what is in them. -/
theorem normalize_append_congr {s t : Text} (h : segmentsOf (slashed s) = segmentsOf (slashed t))
    (rest : Text) :
    normalize (s ++ CodePoint.slash :: rest) = normalize (t ++ CodePoint.slash :: rest) := by
  apply normalize_congr
  · rw [segmentsOf_slashed_append, segmentsOf_slashed_append, h]
  · rw [slashed_append_slash, slashed_append_slash, endsOpen_append, endsOpen_append]

theorem backslash_not_mem_of_mem_segmentsOf {path n : Text} (hn : n ∈ segmentsOf (slashed path)) :
    CodePoint.backslash ∉ n := by
  intro hmem
  rw [segmentsOf_eq] at hn
  exact backslash_not_mem_slashed path (Text.mem_of_mem_pieces (List.mem_filter.mp hn).1 hmem)

theorem slashed_normalize (path : Text) : slashed (normalize path) = normalize path := by
  apply slashed_of_not_mem
  intro hmem
  rw [normalize_eq, List.mem_append] at hmem
  rcases hmem with hmem | hmem
  · obtain hsep | ⟨n, hn, hmem⟩ := Text.mem_join hmem
    · exact absurd (List.mem_singleton.mp hsep) (by decide)
    · exact backslash_not_mem_of_mem_segmentsOf hn hmem
  · split at hmem
    · exact absurd (List.mem_singleton.mp hmem) (by decide)
    · exact absurd hmem List.not_mem_nil

/-- A normal form is its names, alone or with a separator behind them. -/
theorem normalize_eq_or (path : Text) :
    normalize path = Text.join [CodePoint.slash] (segmentsOf (normalize path)) ∨
      normalize path =
        Text.join [CodePoint.slash] (segmentsOf (normalize path)) ++ [CodePoint.slash] := by
  rw [segmentsOf_normalize, normalize_eq]
  split
  · exact .inr rfl
  · exact .inl (List.append_nil _)

/-- The names of a normal form, joined, are a normal form too. -/
theorem normalize_join_segmentsOf (path : Text) :
    normalize (Text.join [CodePoint.slash] (segmentsOf (normalize path))) =
      Text.join [CodePoint.slash] (segmentsOf (normalize path)) := by
  refine normalize_join (fun n => isName_of_mem_segmentsOf) ?_
  intro n hn
  rw [segmentsOf_normalize] at hn
  exact backslash_not_mem_of_mem_segmentsOf hn

/-! ## Paths that may be evaluated -/

theorem check_eq_ok_iff {path : Text} :
    check path = .ok () ↔ path.length ≤ maxLength ∧ 0 ∉ path ∧
      (".." : Text) ∉ Text.pieces CodePoint.slash path := by
  unfold check
  by_cases hlong : maxLength < path.length
  · rw [if_pos hlong]
    exact iff_of_false (fun h => nomatch h) fun h => Nat.not_le.mpr hlong h.1
  · rw [if_neg hlong]
    by_cases hnul : path.contains 0 = true
    · rw [if_pos hnul]
      exact iff_of_false (fun h => nomatch h) fun h => h.2.1 (List.contains_iff_mem.mp hnul)
    · rw [if_neg hnul]
      by_cases hdots : (Text.pieces CodePoint.slash path).contains ".." = true
      · rw [if_pos hdots]
        exact iff_of_false (fun h => nomatch h) fun h => h.2.2 (List.contains_iff_mem.mp hdots)
      · rw [if_neg hdots]
        refine iff_of_true rfl ⟨Nat.le_of_not_lt hlong, ?_, ?_⟩
        · exact fun hmem => hnul (List.contains_iff_mem.mpr hmem)
        · exact fun hmem => hdots (List.contains_iff_mem.mpr hmem)

theorem check_of_check_append {path : Text} (h : check (path ++ [CodePoint.slash]) = .ok ()) :
    check path = .ok () := by
  rw [check_eq_ok_iff, Text.pieces_append, List.length_append] at h
  obtain ⟨hlen, hnul, hdots⟩ := h
  rw [check_eq_ok_iff]
  refine ⟨by omega, ?_, ?_⟩
  · exact fun hmem => hnul (List.mem_append_left _ hmem)
  · exact fun hmem => hdots (List.mem_append_left _ hmem)

/-- No name of a path that may be evaluated leads upwards. -/
theorem dots_not_mem_segmentsOf {path : Text} (h : check path = .ok ()) :
    (".." : Text) ∉ segmentsOf path := by
  intro hmem
  rw [segmentsOf_eq] at hmem
  exact (check_eq_ok_iff.mp h).2.2 (List.mem_filter.mp hmem).1

end VaultPath

end NoteAccess
