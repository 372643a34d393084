/-
  NoteAccess.Proofs.Glob.Runs

  Globs without braces, and what adjacent `**` amount to.  A glob matches the texts whose segments
  it is spread over, where a segment takes what it matches as a glob by itself
  (`matches_iff_spread`).  So adjacent `**` take what a single one takes only if enough of the
  segments are empty (`compile_adjacent_any`).
-/

import NoteAccess.Proofs.Glob.Class

namespace NoteAccess.Glob

variable {pattern p t : Text}

/-! ## Within a segment -/

/-- A part that takes no separator when it is in order. -/
def Fragment.IsInner (f : Fragment) : Prop := f.isValid = true → ∀ u, f.Takes u → CodePoint.slash ∉ u

/-- Inner parts take no separator one after the other. -/
theorem not_mem_of_takesAll {fs : List Fragment} (hinner : ∀ f ∈ fs, f.IsInner)
    (hvalid : ∀ f ∈ fs, f.isValid = true) (ht : TakesAll fs t) : CodePoint.slash ∉ t := by
  induction fs generalizing t with
  | nil =>
    rw [TakesAll] at ht
    rw [ht]
    exact List.not_mem_nil
  | cons f fs ih =>
    obtain ⟨u, v, rfl, hu, hv⟩ := ht
    obtain ⟨hf, hfs⟩ := List.forall_mem_cons.mp hinner
    obtain ⟨hfvalid, hfsvalid⟩ := List.forall_mem_cons.mp hvalid
    rw [List.mem_append, not_or]
    exact ⟨hf hfvalid u hu, ih hfs hfsvalid hv⟩

theorem isInner_literal {c : CodePoint} (hc : c ≠ CodePoint.slash) : (Fragment.literal c).IsInner := by
  intro _ u hu hmem
  rw [show u = [c] from hu] at hmem
  exact hc (List.mem_singleton.mp hmem).symm

/-- A negated class has the separator in it, and the other classes leave it out. -/
theorem isInner_classOf (body : Text) : (classOf body).IsInner := by
  have hnone : ∀ negated, (Fragment.noneOf negated).IsInner := by
    rintro negated hvalid u ⟨c, rfl, hc⟩ hmem
    rw [← List.mem_singleton.mp hmem, inClass_negatedBody_slash hvalid] at hc
    cases hc
  unfold classOf
  split
  · exact hnone _
  · exact hnone _
  · rintro - u ⟨c, rfl, hc, -⟩ hmem
    exact hc (List.mem_singleton.mp hmem).symm

/-- What is behind a class is part of what is behind its opening bracket. -/
theorem mem_of_classBody? {body rest : Text} (h : classBody? t = some (body, rest)) {c : CodePoint}
    (hc : c ∈ rest) : c ∈ t := by
  have hcut : ∀ s a, Text.cut? CodePoint.closeBracket s = some (a, rest) → c ∈ s := by
    intro s a hs
    rw [(Text.cut?_eq_some_iff.mp hs).2]
    exact List.mem_append_right _ (List.mem_cons_of_mem _ hc)
  cases t with
  | nil => cases h
  | cons d t =>
    rw [classBody?] at h
    split at h
    · obtain ⟨⟨a, b⟩, hs, he⟩ := Option.map_eq_some_iff.mp h
      cases he
      exact List.mem_cons_of_mem _ (hcut t a hs)
    · exact hcut _ body h

/-- All parts of a segment are inner ones. -/
theorem isInner_segmentFragments (starred : Bool) (hslash : CodePoint.slash ∉ p) :
    ∀ f ∈ segmentFragments starred p, f.IsInner := by
  have htail : ∀ {c : CodePoint} {q : Text}, CodePoint.slash ∉ c :: q → CodePoint.slash ∉ q :=
    fun h hmem => h (List.mem_cons_of_mem _ hmem)
  have hrun : Fragment.run.IsInner := fun _ _ hu => hu
  have hone : Fragment.one.IsInner := by
    rintro - u ⟨c, rfl, hc⟩ hmem
    exact hc (List.mem_singleton.mp hmem).symm
  -- The cases are those of the recursion, which skips the body of a class.
  fun_induction segmentFragments starred p with
  | case1 => exact fun f hf => absurd hf List.not_mem_nil
  | case2 rest ih => exact ih (htail hslash)
  | case3 starred rest _ ih => exact List.forall_mem_cons.mpr ⟨hrun, ih (htail hslash)⟩
  | case4 starred rest _ ih => exact List.forall_mem_cons.mpr ⟨hone, ih (htail hslash)⟩
  | case5 starred rest body after hbody _ _ ih =>
    have hafter : CodePoint.slash ∉ after := fun hmem => htail hslash (mem_of_classBody? hbody hmem)
    exact List.forall_mem_cons.mpr ⟨isInner_classOf body, ih hafter⟩
  | case6 starred rest _ _ _ ih =>
    exact List.forall_mem_cons.mpr ⟨isInner_literal (by decide), ih (htail hslash)⟩
  | case7 starred c rest _ _ _ ih =>
    have hc : c ≠ CodePoint.slash := fun he => hslash (he ▸ List.mem_cons_self ..)
    exact List.forall_mem_cons.mpr ⟨isInner_literal hc, ih (htail hslash)⟩

/-! ## Globs by their segments -/

/-- A glob is in order and matches the whole of a text. -/
def Matches (pattern t : Text) : Prop := ∃ q, compile? pattern = some q ∧ q.matches t = true

/-- A glob matches what the parts of one of its expansions take, if the parts of all of them are
    in order. -/
theorem matches_iff_branches :
    Matches pattern t ↔ (compile? pattern).isSome = true ∧ ∃ fs ∈ branches pattern, TakesAll fs t := by
  rw [Matches, isSome_compile?_eq, compile?_eq]
  have hmatches : Program.matches ⟨branches pattern⟩ t = true ↔ ∃ fs ∈ branches pattern, TakesAll fs t := by
    rw [Program.matches, List.any_eq_true]
    simp only [matchAll_iff]
  constructor
  · rintro ⟨q, hq, ht⟩
    obtain ⟨hvalid, he⟩ := Option.ite_none_right_eq_some.mp hq
    cases he
    exact ⟨hvalid, hmatches.mp ht⟩
  · rintro ⟨hvalid, ht⟩
    exact ⟨_, if_pos hvalid, hmatches.mpr ht⟩

theorem matches_iff_takesAll (h : expandBraces pattern = [pattern]) :
    Matches pattern t ↔ (∀ f ∈ fragments pattern, f.isValid = true) ∧ TakesAll (fragments pattern) t := by
  rw [matches_iff_branches, isSome_compile?_eq, branches_of_expandBraces h, List.all_cons, List.all_nil,
    Bool.and_true, List.all_eq_true]
  simp only [List.mem_singleton, exists_eq_left]

/-- The segments of a glob are globs without separators, backslashes and braces. -/
theorem segment_of_mem (hbrace : CodePoint.openBrace ∉ pattern)
    (hp : p ∈ Text.pieces CodePoint.slash (VaultPath.relative pattern)) :
    CodePoint.slash ∉ p ∧ CodePoint.backslash ∉ p ∧ CodePoint.openBrace ∉ p := by
  have hmem : ∀ c ∈ p, c ≠ CodePoint.backslash ∧ (c = CodePoint.slash ∨ c ∈ pattern) :=
    fun c hc => VaultPath.mem_relative (Text.mem_of_mem_pieces hp hc)
  refine ⟨Text.not_mem_of_mem_pieces hp, fun hc => (hmem _ hc).1 rfl, fun hc => ?_⟩
  rcases (hmem _ hc).2 with hslash | hpattern
  · exact absurd hslash (by decide)
  · exact hbrace hpattern

/-- A segment other than `**` matches what its parts take, if they are in order. -/
theorem matches_segment (hslash : CodePoint.slash ∉ p) (hbackslash : CodePoint.backslash ∉ p)
    (hbrace : CodePoint.openBrace ∉ p) (hp : p ≠ anySegments) :
    Matches p t ↔ (∀ f ∈ segmentFragments false p, f.isValid = true) ∧
      TakesAll (segmentFragments false p) t := by
  rw [matches_iff_takesAll (expandBraces_of_not_mem hbrace), fragments_of_segment hslash hbackslash hp]

/-- A glob without braces matches the texts whose segments it is spread over, where each segment
    other than `**` takes what it matches by itself. -/
theorem matches_iff_spread (hbrace : CodePoint.openBrace ∉ pattern) :
    Matches pattern t ↔
      Spread Matches (Text.pieces CodePoint.slash (VaultPath.relative pattern))
        (Text.pieces CodePoint.slash t) := by
  have hsegment : ∀ p ∈ Text.pieces CodePoint.slash (VaultPath.relative pattern), p ≠ anySegments →
      ∀ u, Matches p u ↔ (∀ f ∈ segmentFragments false p, f.isValid = true) ∧
        TakesAll (segmentFragments false p) u := by
    intro p hmem hp u
    obtain ⟨hslash, hbackslash, hopen⟩ := segment_of_mem hbrace hmem
    exact matches_segment hslash hbackslash hopen hp
  -- In order, the parts of a segment take just what the segment matches.
  have hparts : (∀ f ∈ fragments pattern, f.isValid = true) →
      (TakesAll (fragments pattern) t ↔
        Spread Matches (Text.pieces CodePoint.slash (VaultPath.relative pattern))
          (Text.pieces CodePoint.slash t)) := by
    intro hvalid
    refine takesAll_iff_spread (Text.pieces_ne_nil _ _) ?_ t
    intro p hmem hp u
    have hpvalid := forall_isValid_segments.mp hvalid p hmem hp
    have hinner := isInner_segmentFragments false (segment_of_mem hbrace hmem).1
    rw [hsegment p hmem hp u, and_iff_right hpvalid]
    exact ⟨fun hu => ⟨hu, not_mem_of_takesAll hinner hpvalid hu⟩, And.left⟩
  rw [matches_iff_takesAll (expandBraces_of_not_mem hbrace)]
  constructor
  · rintro ⟨hvalid, ht⟩
    exact (hparts hvalid).mp ht
  · intro hspread
    -- A segment that is not in order would take nothing.
    have hvalid : ∀ f ∈ fragments pattern, f.isValid = true := by
      refine forall_isValid_segments.mpr fun p hmem hp => ?_
      obtain ⟨u, hu⟩ := exists_of_spread hspread p hmem hp
      exact ((hsegment p hmem hp u).mp hu).1
    exact ⟨hvalid, (hparts hvalid).mpr hspread⟩

/-- What the program of a glob matches. -/
theorem compile_glob_matches (pattern : Text) (letters : Option Text) :
    ∃ q, (Pattern.make false pattern letters).compile = .ok q ∧
      (q.isValid = true ↔ (compile? pattern).isSome = true) ∧
      ∀ t, q.matches t = true ↔ Matches pattern t := by
  rw [Pattern.make, if_neg Bool.false_ne_true, Pattern.compile]
  cases hq : compile? pattern with
  | none =>
    refine ⟨.never, rfl, Iff.rfl, fun t => iff_of_false Bool.false_ne_true ?_⟩
    rintro ⟨q, hsome, -⟩
    rw [hq] at hsome
    cases hsome
  | some q =>
    refine ⟨.glob q, rfl, Iff.rfl, fun t => ⟨fun ht => ⟨q, hq, ht⟩, ?_⟩⟩
    rintro ⟨q', hsome, ht⟩
    rw [hq] at hsome
    cases hsome
    exact ht

/-! ## Adjacent `**` -/

section Adjacent

variable {before after : List Text} {n m : Nat}

/-- Adjacent `**` between other segments stand for runs of segments with an empty one for each
    `**` after the first. -/
theorem matches_adjacent_any (hbrace : CodePoint.openBrace ∉ pattern)
    (hbefore : before.getLast? ≠ some anySegments) (hafter : after.head? ≠ some anySegments)
    (hpattern : Text.pieces CodePoint.slash (VaultPath.relative pattern) =
      before ++ (List.replicate (n + 1) anySegments ++ after)) (t : Text) :
    Matches pattern t ↔ ∃ front run back, Text.pieces CodePoint.slash t = front ++ (run ++ back) ∧
      Spread Matches before front ∧ n ≤ run.count [] ∧ Spread Matches after back := by
  rw [matches_iff_spread hbrace, hpattern, spread_append fun h => absurd h hbefore]
  constructor
  · rintro ⟨front, _, hpieces, hfront, hrest⟩
    obtain ⟨run, back, rfl, hrun, hback⟩ := (spread_append fun _ => hafter).mp hrest
    exact ⟨front, run, back, hpieces, hfront, (spread_replicate n).mp hrun, hback⟩
  · rintro ⟨front, run, back, hpieces, hfront, hrun, hback⟩
    have hrest := (spread_append fun _ => hafter).mpr ⟨run, back, rfl, (spread_replicate n).mpr hrun, hback⟩
    exact ⟨front, run ++ back, hpieces, hfront, hrest⟩

/-- A glob is in order if its segments other than `**` are. -/
theorem isSome_compile? (hbrace : CodePoint.openBrace ∉ pattern) :
    (compile? pattern).isSome = true ↔
      ∀ p ∈ Text.pieces CodePoint.slash (VaultPath.relative pattern), p ≠ anySegments →
        ∀ f ∈ segmentFragments false p, f.isValid = true := by
  rw [← forall_isValid_segments, ← fragments, ← List.all_eq_true, compile?_of_not_mem hbrace]
  split
  · next hvalid => exact iff_of_true rfl hvalid
  · next hvalid => exact iff_of_false Bool.false_ne_true hvalid

/-- Two globs that differ in the length of one run of `**` are in order together.  A run of
    `n + 1` stands for any run of segments of which at least `n` are empty, so that only a single
    `**` (`n = 0`) stands for any run. -/
theorem compile_adjacent_any {pattern' : Text} (letters : Option Text)
    (hbrace : CodePoint.openBrace ∉ pattern) (hbrace' : CodePoint.openBrace ∉ pattern')
    (hbefore : before.getLast? ≠ some anySegments) (hafter : after.head? ≠ some anySegments)
    (hpattern : Text.pieces CodePoint.slash (VaultPath.relative pattern) =
      before ++ (List.replicate (n + 1) anySegments ++ after))
    (hpattern' : Text.pieces CodePoint.slash (VaultPath.relative pattern') =
      before ++ (List.replicate (m + 1) anySegments ++ after)) :
    ∃ p q, (Pattern.make false pattern letters).compile = .ok p ∧
      (Pattern.make false pattern' letters).compile = .ok q ∧ p.isValid = q.isValid ∧
      ∀ t,
        (p.matches t = true ↔ ∃ front run back, Text.pieces CodePoint.slash t = front ++ (run ++ back) ∧
          Spread Matches before front ∧ n ≤ run.count [] ∧ Spread Matches after back) ∧
        (q.matches t = true ↔ ∃ front run back, Text.pieces CodePoint.slash t = front ++ (run ++ back) ∧
          Spread Matches before front ∧ m ≤ run.count [] ∧ Spread Matches after back) := by
  obtain ⟨p, hp, hpvalid, hpmatches⟩ := compile_glob_matches pattern letters
  obtain ⟨q, hq, hqvalid, hqmatches⟩ := compile_glob_matches pattern' letters
  have hsame : p.isValid = q.isValid := by
    -- The two have the same segments besides `**`.
    have hmem : ∀ k s, s ≠ anySegments →
        (s ∈ before ++ (List.replicate (k + 1) anySegments ++ after) ↔ s ∈ before ∨ s ∈ after) := by
      intro k s hs
      simp only [List.mem_append, List.mem_replicate, hs, and_false, false_or]
    rw [Bool.eq_iff_iff, hpvalid, hqvalid, isSome_compile? hbrace, isSome_compile? hbrace', hpattern, hpattern']
    refine forall_congr' fun s => ?_
    by_cases hs : s = anySegments
    · exact iff_of_true (fun _ hne => absurd hs hne) fun _ hne => absurd hs hne
    · rw [hmem n s hs, hmem m s hs]
  refine ⟨p, q, hp, hq, hsame, fun t => ⟨?_, ?_⟩⟩
  · rw [hpmatches, matches_adjacent_any hbrace hbefore hafter hpattern]
  · rw [hqmatches, matches_adjacent_any hbrace' hbefore hafter hpattern']

/-- One more `**` at the end of a pattern for a folder. -/
theorem compile_adjacent_any_folder :
    CodePoint.openBrace ∉ ("Private/**/**" : Text) ∧ CodePoint.openBrace ∉ ("Private/**" : Text) ∧
      [("Private" : Text)].getLast? ≠ some anySegments ∧ ([] : List Text).head? ≠ some anySegments ∧
      ∃ p q, (Pattern.make false "Private/**/**" none).compile = .ok p ∧
        (Pattern.make false "Private/**" none).compile = .ok q ∧ p.isValid = q.isValid ∧
        ∀ t,
          (p.matches t = true ↔ ∃ front run back, Text.pieces CodePoint.slash t = front ++ (run ++ back) ∧
            Spread Matches ["Private"] front ∧ 1 ≤ run.count [] ∧ Spread Matches [] back) ∧
          (q.matches t = true ↔ ∃ front run back, Text.pieces CodePoint.slash t = front ++ (run ++ back) ∧
            Spread Matches ["Private"] front ∧ 0 ≤ run.count [] ∧ Spread Matches [] back) := by
  have hbrace : CodePoint.openBrace ∉ ("Private/**/**" : Text) := by decide
  have hbrace' : CodePoint.openBrace ∉ ("Private/**" : Text) := by decide
  have hbefore : [("Private" : Text)].getLast? ≠ some anySegments := by decide
  have hafter : ([] : List Text).head? ≠ some anySegments := by decide
  exact ⟨hbrace, hbrace', hbefore, hafter,
    compile_adjacent_any none hbrace hbrace' hbefore hafter (by decide) (by decide)⟩

/-- A note in the folder, which only the pattern with a single `**` matches. -/
theorem adjacent_any_note :
    ∃ p q, (Pattern.make false "Private/**/**" none).compile = .ok p ∧
      (Pattern.make false "Private/**" none).compile = .ok q ∧
      p.matches "Private/a.md" = false ∧ q.matches "Private/a.md" = true := by
  refine ⟨_, _, rfl, rfl, ?_, ?_⟩
  · cbv
  · cbv

end Adjacent

end NoteAccess.Glob
