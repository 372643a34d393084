/-
  NoteAccess.Proofs.Glob.Backslash

  Globs with a backslash in front of each sign (`backslashed`).  A brace behind a backslash opens
  no group (`expandBraces_backslashed`).  But in the segments of the pattern a backslash is one
  more separator, so each sign begins a segment and keeps its meaning there (`pieces_backslashed`).
-/

import Mathlib.Data.List.TakeWhile
import NoteAccess.Proofs.Glob.Segments

namespace NoteAccess.Glob

variable {s t p run : Text} {c d : CodePoint}

/-! ## Signs -/

/-- The code points that have a meaning of their own in a glob, apart from the separators. -/
def signs : Text := "*?[]\x7b\x7d"

/-- Whether a code point has a meaning of its own. -/
def isSign (c : CodePoint) : Bool := signs.contains c

theorem ne_of_isSign_eq_false (hc : isSign c = false) (hd : isSign d = true) : c ≠ d := by
  rintro rfl
  rw [hc] at hd
  cases hd

/-- The text with a backslash in front of each sign. -/
def backslashed (s : Text) : Text :=
  s.flatMap fun c => if isSign c then [CodePoint.backslash, c] else [c]

theorem backslashed_cons (c : CodePoint) (s : Text) :
    backslashed (c :: s) = (if isSign c then [CodePoint.backslash, c] else [c]) ++ backslashed s :=
  List.flatMap_cons

/-- Braces behind a backslash open no group. -/
theorem scanGroup_backslashed {before : Text} (hs : CodePoint.backslash ∉ s) :
    scanGroup false before none (backslashed s) = none := by
  induction s generalizing before with
  | nil => rfl
  | cons c s ih =>
    obtain ⟨hc, hs⟩ := not_or.mp (mt List.mem_cons.mpr hs)
    rw [backslashed_cons]
    by_cases hsign : isSign c = true
    · rw [if_pos hsign]
      exact ih hs
    · have hbrace : c ≠ CodePoint.openBrace :=
        ne_of_isSign_eq_false (Bool.eq_false_iff.mpr hsign) (by decide)
      rw [if_neg hsign, List.singleton_append, scanGroup, if_neg Bool.false_ne_true, if_neg (Ne.symm hc),
        if_neg hbrace]
      exact ih hs

theorem expandBraces_backslashed (hs : CodePoint.backslash ∉ s) :
    expandBraces (backslashed s) = [backslashed s] :=
  expandBraces_of_nextPatterns_nil (nextPatterns_of_none (scanGroup_backslashed hs))

/-! ## Segments -/

/-- In a path, a sign has a separator in front. -/
theorem slashed_backslashed_cons (hc : c ≠ CodePoint.backslash) :
    VaultPath.slashed (backslashed (c :: s)) =
      (if isSign c then [CodePoint.slash, c] else [c]) ++ VaultPath.slashed (backslashed s) := by
  have hself : VaultPath.slashed [c] = [c] := by
    refine VaultPath.slashed_of_not_mem fun hmem => ?_
    exact hc (List.mem_singleton.mp hmem).symm
  have hpair : VaultPath.slashed [CodePoint.backslash, c] = CodePoint.slash :: VaultPath.slashed [c] := rfl
  rw [backslashed_cons, VaultPath.slashed_append]
  split
  · rw [hpair, hself]
  · rw [hself]

/-- Text without signs stays as it is. -/
theorem slashed_backslashed_append (hrun : ∀ d ∈ run, isSign d = false) (hs : CodePoint.backslash ∉ run) :
    VaultPath.slashed (backslashed (run ++ s)) = run ++ VaultPath.slashed (backslashed s) := by
  induction run with
  | nil => rfl
  | cons d run ih =>
    obtain ⟨hd, hrun⟩ := List.forall_mem_cons.mp hrun
    obtain ⟨hb, hs⟩ := not_or.mp (mt List.mem_cons.mpr hs)
    rw [List.cons_append, slashed_backslashed_cons (Ne.symm hb), hd, if_neg Bool.false_ne_true, ih hrun hs]
    rfl

/-- A text cut in front of each sign. -/
def sections : Text → List Text
  | [] => []
  | c :: t => (c :: t.takeWhile (!isSign ·)) :: sections (t.dropWhile (!isSign ·))
termination_by t => t.length
decreasing_by exact Nat.lt_succ_of_le (List.dropWhile_suffix _).length_le

/-- In a section all but the first code point are no signs. -/
def IsSection (p : Text) : Prop := ∃ c run, p = c :: run ∧ ∀ d ∈ run, isSign d = false

theorem isSection_of_mem (h : p ∈ sections s) : IsSection p ∧ ∀ c ∈ p, c ∈ s := by
  fun_induction sections s with
  | case1 => exact absurd h List.not_mem_nil
  | case2 c t ih =>
    rcases List.mem_cons.mp h with rfl | h
    · refine ⟨⟨c, _, rfl, ?_⟩, ?_⟩
      · intro d hd
        simpa using List.mem_takeWhile_imp hd
      · exact List.cons_subset_cons c (List.takeWhile_prefix _).subset
    · obtain ⟨hp, hsub⟩ := ih h
      exact ⟨hp, fun d hd => List.mem_cons_of_mem _ ((List.dropWhile_suffix _).subset (hsub d hd))⟩

/-- Behind the first code point, the segments of the pattern are the sections of the text. -/
theorem pieces_cons_backslashed (hslash : CodePoint.slash ∉ c :: t) (hback : CodePoint.backslash ∉ t) :
    Text.pieces CodePoint.slash (c :: VaultPath.slashed (backslashed t)) = sections (c :: t) := by
  -- Each section reaches up to the next sign, which begins the segment behind a separator.
  induction hlen : t.length using Nat.strong_induction_on generalizing c t with
  | _ n ih =>
    have hrun : ∀ d ∈ t.takeWhile (!isSign ·), isSign d = false := by
      intro d hd
      simpa using List.mem_takeWhile_imp hd
    have hsplit := List.takeWhile_append_dropWhile (p := (!isSign ·)) (l := t)
    have hhead := List.head?_dropWhile_not (!isSign ·) t
    rw [sections]
    generalize t.takeWhile (!isSign ·) = run at hrun hsplit
    generalize t.dropWhile (!isSign ·) = rest at hsplit hhead
    subst hsplit
    rw [List.mem_append, not_or] at hback
    rw [List.mem_cons, List.mem_append, not_or, not_or] at hslash
    obtain ⟨hc, hrunslash, hrestslash⟩ := hslash
    have hfront : CodePoint.slash ∉ c :: run := by
      rw [List.mem_cons, not_or]
      exact ⟨hc, hrunslash⟩
    rw [slashed_backslashed_append hrun hback.1, ← List.cons_append]
    cases rest with
    | nil => rw [sections, ← Text.pieces_of_not_mem hfront]; exact congrArg _ (List.append_nil _)
    | cons d rest =>
      have hsign : isSign d = true := by simpa using hhead
      obtain ⟨hd, hrest⟩ := not_or.mp (mt List.mem_cons.mpr hback.2)
      have hshort : rest.length < n := by
        rw [← hlen, List.length_append, List.length_cons]
        omega
      have hcut : [CodePoint.slash, d] ++ VaultPath.slashed (backslashed rest) =
          CodePoint.slash :: d :: VaultPath.slashed (backslashed rest) := rfl
      rw [slashed_backslashed_cons (Ne.symm hd), if_pos hsign, hcut, Text.pieces_append_cons hfront,
        ih _ hshort hrestslash hrest rfl]

/-- The segments of the pattern are the sections of the text: the separator in front of the first
    one is left out. -/
theorem pieces_backslashed (hne : s ≠ []) (hslash : CodePoint.slash ∉ s) (hback : CodePoint.backslash ∉ s) :
    Text.pieces CodePoint.slash (VaultPath.relative (backslashed s)) = sections s := by
  obtain ⟨c, t, rfl⟩ := List.exists_cons_of_ne_nil hne
  obtain ⟨hc, ht⟩ := not_or.mp (mt List.mem_cons.mpr hback)
  have hkeep : (c == CodePoint.slash) = false :=
    beq_false_of_ne fun he => hslash (he ▸ List.mem_cons_self ..)
  have hrelative : VaultPath.relative (backslashed (c :: t)) = c :: VaultPath.slashed (backslashed t) := by
    rw [VaultPath.relative, slashed_backslashed_cons (Ne.symm hc)]
    split
    · rw [List.cons_append, List.dropWhile_cons_of_pos (by rfl), List.singleton_append,
        List.dropWhile_cons_of_neg (by rw [hkeep]; exact Bool.false_ne_true)]
    · rw [List.singleton_append, List.dropWhile_cons_of_neg (by rw [hkeep]; exact Bool.false_ne_true)]
  rw [hrelative, pieces_cons_backslashed hslash ht]

/-! ## What a section takes -/

theorem IsSection.classless (h : IsSection p) : Classless p := by
  obtain ⟨c, run, rfl, hrun⟩ := h
  have hnot : ∀ d, isSign d = true → d ∉ run := by
    intro d hd hmem
    exact ne_of_isSign_eq_false (hrun d hmem) hd rfl
  -- One of the two brackets may be in front, but not both.
  by_cases hc : c = CodePoint.openBracket
  · right
    rw [List.mem_cons, not_or]
    exact ⟨hc ▸ by decide, hnot _ (by decide)⟩
  · left
    rw [List.mem_cons, not_or]
    exact ⟨Ne.symm hc, hnot _ (by decide)⟩

theorem IsSection.ne_anySegments (h : IsSection p) : p ≠ anySegments := by
  obtain ⟨c, run, rfl, hrun⟩ := h
  intro he
  have hstar := hrun CodePoint.star ((List.cons.inj he).2 ▸ List.mem_cons_self ..)
  exact absurd hstar (by decide)

/-- Without `**`, each segment of the pattern takes one segment of the text. -/
theorem spread_iff_forall₂ {takes : Text → Text → Prop} {ps ts : List Text} (h : ∀ p ∈ ps, p ≠ anySegments) :
    Spread takes ps ts ↔ List.Forall₂ takes ps ts := by
  induction ps generalizing ts with
  | nil => rw [spread_nil, List.forall₂_nil_left_iff]
  | cons p ps ih =>
    obtain ⟨hp, hps⟩ := List.forall_mem_cons.mp h
    rw [spread_cons hp, List.forall₂_cons_left_iff]
    constructor
    · rintro ⟨t, rest, rfl, ht, hrest⟩
      exact ⟨t, rest, ht, (ih hps).mp hrest, rfl⟩
    · rintro ⟨t, rest, ht, hrest, rfl⟩
      exact ⟨t, rest, rfl, ht, (ih hps).mpr hrest⟩

/-- A segment without stars and question marks takes itself. -/
theorem segmentTakes_iff_eq (hstar : CodePoint.star ∉ p) (hquery : CodePoint.query ∉ p) :
    SegmentTakes p t ↔ t = p := by
  induction p generalizing t with
  | nil => exact segmentTakes_nil
  | cons c p ih =>
    obtain ⟨hcs, hps⟩ := not_or.mp (mt List.mem_cons.mpr hstar)
    obtain ⟨hcq, hpq⟩ := not_or.mp (mt List.mem_cons.mpr hquery)
    rw [segmentTakes_literal_cons (Ne.symm hcs) (Ne.symm hcq)]
    constructor
    · rintro ⟨v, rfl, hv⟩
      rw [(ih hps hpq).mp hv]
    · rintro rfl
      exact ⟨p, rfl, (ih hps hpq).mpr rfl⟩

/-- A text that is one section without a star or a question mark in front is all that it takes. -/
theorem sections_take_self (hne : s ≠ []) (hslash : CodePoint.slash ∉ s) :
    (∀ t, List.Forall₂ SegmentTakes (sections s) (Text.pieces CodePoint.slash t) ↔ t = s) ↔
      ∃ c run, s = c :: run ∧ c ≠ CodePoint.star ∧ c ≠ CodePoint.query ∧ ∀ d ∈ run, isSign d = false := by
  have hpiece : ∀ t, Text.pieces CodePoint.slash t = [s] ↔ t = s := by
    intro t
    constructor
    · intro h
      rw [← Text.join_pieces CodePoint.slash t, h, Text.join, List.intercalate_singleton]
    · rintro rfl
      exact Text.pieces_of_not_mem hslash
  constructor
  · intro h
    obtain ⟨c, run, rfl⟩ := List.exists_cons_of_ne_nil hne
    obtain ⟨hc, hrunslash⟩ := not_or.mp (mt List.mem_cons.mpr hslash)
    -- The text takes itself, a single segment, so there is no other section.
    have hself := (h (c :: run)).mpr rfl
    rw [Text.pieces_of_not_mem hslash, sections, List.forall₂_cons] at hself
    have hrest : run.dropWhile (!isSign ·) = [] := by
      have hnil := List.forall₂_nil_right_iff.mp hself.2
      cases hdrop : run.dropWhile (!isSign ·) with
      | nil => rfl
      | cons d rest =>
        rw [hdrop, sections] at hnil
        cases hnil
    have hrun : ∀ d ∈ run, isSign d = false := by
      intro d hd
      simpa using List.dropWhile_eq_nil_iff.mp hrest d hd
    have hall : run.takeWhile (!isSign ·) = run :=
      List.takeWhile_eq_self_iff.mpr fun d hd => by simpa using hrun d hd
    have hnot : ∀ d, isSign d = true → d ∉ run := by
      intro d hd hmem
      exact ne_of_isSign_eq_false (hrun d hmem) hd rfl
    have htail : SegmentTakes run run :=
      (segmentTakes_iff_eq (hnot _ (by decide)) (hnot _ (by decide))).mpr rfl
    have htakes : ∀ t, CodePoint.slash ∉ t → SegmentTakes (c :: run) t → t = c :: run := by
      intro t ht hct
      refine (h t).mp ?_
      rw [Text.pieces_of_not_mem ht, sections, hrest, hall, sections]
      exact .cons hct .nil
    refine ⟨c, run, rfl, ?_, ?_, hrun⟩
    · -- A star would also take one more.
      rintro rfl
      have hunstarred : unstarred run = run := unstarred_replicate_append 0 (p := run) (by
        intro hhead
        exact hnot CodePoint.star (by decide) (List.mem_of_mem_head? hhead))
      have hmore := htakes (CodePoint.star :: CodePoint.star :: run) (by simp [hrunslash, hc])
        (segmentTakes_star_cons.mpr ⟨[CodePoint.star, CodePoint.star], run, rfl, hunstarred.symm ▸ htail⟩)
      simpa using congrArg List.length hmore
    · -- A question mark would also take another code point.
      rintro rfl
      have hother := htakes (0 :: run) (by simp [hrunslash]) (.query htail)
      exact absurd (List.cons.inj hother).1 (by decide)
  · rintro ⟨c, run, rfl, hstar, hquery, hrun⟩ t
    have hplain : ∀ d, isSign d = true → d ≠ c → d ∉ c :: run := by
      intro d hd hdc
      rw [List.mem_cons, not_or]
      exact ⟨hdc, fun hmem => ne_of_isSign_eq_false (hrun d hmem) hd rfl⟩
    have hone : sections (c :: run) = [c :: run] := by
      have hall : ∀ d ∈ run, (!isSign d) = true := fun d hd => by simpa using hrun d hd
      rw [sections, List.takeWhile_eq_self_iff.mpr hall, List.dropWhile_eq_nil_iff.mpr hall, sections]
    rw [hone, List.forall₂_cons_left_iff, ← hpiece]
    have hself : ∀ u, SegmentTakes (c :: run) u ↔ u = c :: run := fun _ =>
      segmentTakes_iff_eq (hplain _ (by decide) (Ne.symm hstar)) (hplain _ (by decide) (Ne.symm hquery))
    constructor
    · rintro ⟨u, us, hu, hus, hpieces⟩
      rw [hpieces, (hself u).mp hu, List.forall₂_nil_left_iff.mp hus]
    · intro hpieces
      exact ⟨c :: run, [], (hself _).mpr rfl, .nil, hpieces⟩

/-! ## The whole glob -/

/-- With a backslash in front of each sign, a glob is in order, and it matches the texts that have
    a segment for each section of `s`, which the section takes as a glob.  So it is literal only
    if `s` has no sign behind its first code point and neither a star nor a question mark there. -/
theorem compile_backslashed (letters : Option Text) (hne : s ≠ []) (hslash : CodePoint.slash ∉ s)
    (hback : CodePoint.backslash ∉ s) :
    ∃ q, (Pattern.make false (backslashed s) letters).compile = .ok q ∧ q.isValid = true ∧
      (∀ t, q.matches t = true ↔
        List.Forall₂ SegmentTakes (sections s) (Text.pieces CodePoint.slash t)) ∧
      ((∀ t, q.matches t = true ↔ t = s) ↔
        ∃ c run, s = c :: run ∧ c ≠ CodePoint.star ∧ c ≠ CodePoint.query ∧
          ∀ d ∈ run, isSign d = false) := by
  have hpieces := pieces_backslashed hne hslash hback
  have hany : ∀ p ∈ sections s, p ≠ anySegments := fun p hp => (isSection_of_mem hp).1.ne_anySegments
  have hsectionslash : ∀ p ∈ sections s, CodePoint.slash ∉ p :=
    fun p hp hmem => hslash ((isSection_of_mem hp).2 _ hmem)
  have hvalid : (fragments (backslashed s)).all Fragment.isValid = true := by
    rw [List.all_eq_true, fragments, hpieces, forall_isValid_segments]
    exact fun p hp _ => isValid_segmentFragments false (isSection_of_mem hp).1.classless
  have hcompile : compile? (backslashed s) = some ⟨[fragments (backslashed s)]⟩ := by
    rw [compile?_of_expandBraces (expandBraces_backslashed hback), if_pos hvalid]
  have htaking : Taking SegmentTakes (sections s) := fun p hp _ u =>
    takesAll_segmentFragments (hsectionslash p hp) (isSection_of_mem hp).1.classless
  have hmatches : ∀ t, Program.matches ⟨[fragments (backslashed s)]⟩ t = true ↔
      List.Forall₂ SegmentTakes (sections s) (Text.pieces CodePoint.slash t) := by
    intro t
    rw [matches_singleton, fragments, takesAll_iff_spread (Text.pieces_ne_nil _ _) (hpieces ▸ htaking),
      hpieces, spread_iff_forall₂ hany]
  refine ⟨.glob ⟨[fragments (backslashed s)]⟩, ?_, rfl, hmatches, ?_⟩
  · rw [Pattern.make, if_neg Bool.false_ne_true, Pattern.compile, hcompile]
  · rw [← sections_take_self hne hslash]
    exact forall_congr' fun t => iff_congr (hmatches t) Iff.rfl

/-- Brackets and a star inside a name. -/
theorem compile_backslashed_draft :
    ("[draft]*.md" : Text) ≠ [] ∧ CodePoint.slash ∉ ("[draft]*.md" : Text) ∧
      CodePoint.backslash ∉ ("[draft]*.md" : Text) ∧
      ∃ q, (Pattern.make false (backslashed "[draft]*.md") none).compile = .ok q ∧ q.isValid = true ∧
        (∀ t, q.matches t = true ↔
          List.Forall₂ SegmentTakes (sections "[draft]*.md") (Text.pieces CodePoint.slash t)) ∧
        ((∀ t, q.matches t = true ↔ t = "[draft]*.md") ↔
          ∃ c run, ("[draft]*.md" : Text) = c :: run ∧ c ≠ CodePoint.star ∧ c ≠ CodePoint.query ∧
            ∀ d ∈ run, isSign d = false) := by
  have hne : ("[draft]*.md" : Text) ≠ [] := by decide
  have hslash : CodePoint.slash ∉ ("[draft]*.md" : Text) := by decide
  have hback : CodePoint.backslash ∉ ("[draft]*.md" : Text) := by decide
  exact ⟨hne, hslash, hback, compile_backslashed none hne hslash hback⟩

/-- A star with a backslash in front still takes other texts. -/
theorem backslashed_star_matches :
    ∃ q, (Pattern.make false (backslashed "*") none).compile = .ok q ∧ q.isValid = true ∧
      q.matches "a" = true ∧ ("a" : Text) ≠ "*" := by
  refine ⟨_, rfl, ?_, ?_, by decide⟩
  · cbv
  · cbv

end NoteAccess.Glob
