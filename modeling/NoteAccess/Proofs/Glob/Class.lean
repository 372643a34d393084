/-
  NoteAccess.Proofs.Glob.Class

  Character classes of a glob.  In a negated class the separator stands in front of the body, so
  the class is the complement of the body's if the separator stays by itself there
  (`inClass_cons`).  In front of a hyphen and one more code point it begins a range
  (`inClass_range`).
-/

import NoteAccess.Proofs.Glob.Segments

namespace NoteAccess.Glob

variable {body rest p : Text} {c d e : CodePoint} {f : Fragment}

/-! ## A code point in front of a class body -/

/-- The body begins with a hyphen and one more code point, which make a range of a code point
    in front of them. -/
def OpensRange (body : Text) : Prop := ∃ e rest, body = CodePoint.minus :: e :: rest

/-- The range of a code point by itself. -/
theorem inRanges_point (c d : CodePoint) (ranges : List (CodePoint × CodePoint)) :
    inRanges ((c, c) :: ranges) d = (d == c || inRanges ranges d) := by
  have hsame : (decide (c ≤ d) && decide (d ≤ c)) = (d == c) := by
    rw [Bool.eq_iff_iff, Bool.and_eq_true, decide_eq_true_iff, decide_eq_true_iff, beq_iff_eq]
    exact ⟨fun hle => Nat.le_antisymm hle.2 hle.1, fun he => ⟨Nat.le_of_eq he.symm, Nat.le_of_eq he⟩⟩
  have hcons : inRanges ((c, c) :: ranges) d =
      ((decide (c ≤ d) && decide (d ≤ c)) || inRanges ranges d) := rfl
  rw [hcons, hsame]

theorem classRanges?_cons (c : CodePoint) (h : ¬ OpensRange body) :
    classRanges? (c :: body) = (classRanges? body).map ((c, c) :: ·) := by
  match body, h with
  | [], _ => rfl
  | [d], _ => rfl
  | d :: e :: rest, h =>
    have hd : d ≠ CodePoint.minus := by
      rintro rfl
      exact h ⟨e, rest, rfl⟩
    rw [classRanges?, if_neg hd]

theorem classRanges?_range (c e : CodePoint) (rest : Text) :
    classRanges? (c :: CodePoint.minus :: e :: rest) =
      if e < c then none else (classRanges? rest).map ((c, e) :: ·) := by
  rw [classRanges?, if_pos rfl]

theorem isSome_classRanges?_cons (c : CodePoint) (h : ¬ OpensRange body) :
    (classRanges? (c :: body)).isSome = (classRanges? body).isSome := by
  rw [classRanges?_cons c h, Option.isSome_map]

theorem isSome_classRanges?_range :
    (classRanges? (c :: CodePoint.minus :: e :: rest)).isSome = true ↔
      c ≤ e ∧ (classRanges? rest).isSome = true := by
  rw [classRanges?_range]
  split
  · next hlt => exact iff_of_false Bool.false_ne_true fun h => Nat.not_le.mpr hlt h.1
  · next hge => rw [Option.isSome_map, and_iff_right (Nat.not_lt.mp hge)]

/-- By itself, a code point in front of a body is one more member of the class. -/
theorem inClass_cons (h : ¬ OpensRange body) (hvalid : (classRanges? body).isSome = true) :
    inClass (c :: body) d = (d == c || inClass body d) := by
  obtain ⟨ranges, hranges⟩ := Option.isSome_iff_exists.mp hvalid
  unfold inClass
  rw [classRanges?_cons c h, hranges, Option.map_some]
  exact inRanges_point c d ranges

/-- In front of a hyphen and one more code point it begins a range. -/
theorem inClass_range (hle : c ≤ e) (hvalid : (classRanges? rest).isSome = true) :
    inClass (c :: CodePoint.minus :: e :: rest) d = (decide (c ≤ d ∧ d ≤ e) || inClass rest d) := by
  obtain ⟨ranges, hranges⟩ := Option.isSome_iff_exists.mp hvalid
  unfold inClass
  rw [classRanges?_range, if_neg (Nat.not_lt.mpr hle), hranges, Option.map_some]
  simp only [inRanges, List.any_cons, Bool.decide_and]

/-- The separator is in each negated class, and so no class takes it. -/
theorem inClass_negatedBody_slash (hvalid : (classRanges? (negatedBody body)).isSome = true) :
    inClass (negatedBody body) CodePoint.slash = true := by
  unfold negatedBody at hvalid ⊢
  by_cases h : OpensRange body
  · obtain ⟨e, rest, rfl⟩ := h
    obtain ⟨hle, hrest⟩ := isSome_classRanges?_range.mp hvalid
    have hin : CodePoint.slash ≤ CodePoint.slash ∧ CodePoint.slash ≤ e := ⟨Nat.le_refl _, hle⟩
    rw [inClass_range hle hrest, decide_eq_true hin, Bool.true_or]
  · rw [isSome_classRanges?_cons CodePoint.slash h] at hvalid
    rw [inClass_cons h hvalid, beq_self_eq_true, Bool.true_or]

/-! ## Globs of one class -/

/-- A segment without separators is a glob with the parts of the segment. -/
theorem fragments_of_segment (hslash : CodePoint.slash ∉ p) (hbackslash : CodePoint.backslash ∉ p)
    (hp : p ≠ anySegments) : fragments p = segmentFragments false p := by
  have hrelative : VaultPath.relative p = p := by
    rw [VaultPath.relative, VaultPath.slashed_of_not_mem hbackslash]
    cases p with
    | nil => rfl
    | cons c p =>
      have hc : c ≠ CodePoint.slash := fun he => hslash (he ▸ List.mem_cons_self ..)
      exact List.dropWhile_cons_of_neg (by simpa using hc)
  rw [fragments, hrelative, Text.pieces_of_not_mem hslash, segmentsFragments, if_neg hp,
    laterFragments, List.append_nil]

/-- A bracket opens the class that is found behind it. -/
theorem segmentFragments_class {found : Text} (h : classBody? p = some (found, rest)) :
    segmentFragments false (CodePoint.openBracket :: p) = classOf found :: segmentFragments false rest := by
  rw [segmentFragments, if_neg (by decide), if_neg (by decide), if_pos rfl]
  split
  · next body after hbody =>
    rw [h] at hbody
    cases hbody
    rfl
  · next hnone =>
    rw [h] at hnone
    cases hnone

/-- The texts that stand between the brackets of a class by themselves. -/
structure IsBody (body : Text) : Prop where
  ne_nil : body ≠ []
  /-- The body is not taken for a negated one. -/
  head : body.head? ≠ some CodePoint.bang ∧ body.head? ≠ some CodePoint.caret
  /-- The bracket behind the body is the first one. -/
  closeBracket : CodePoint.closeBracket ∉ body
  slash : CodePoint.slash ∉ body
  backslash : CodePoint.backslash ∉ body
  openBrace : CodePoint.openBrace ∉ body

/-- A glob of one class is a single part. -/
theorem fragments_class {found : Text} (hslash : CodePoint.slash ∉ p)
    (hbackslash : CodePoint.backslash ∉ p) (hfound : classBody? (p ++ "]") = some (found, [])) :
    fragments ("[" ++ p ++ "]") = [classOf found] := by
  have hglob : "[" ++ p ++ "]" = CodePoint.openBracket :: (p ++ "]") := rfl
  have houter : CodePoint.slash ∉ "[" ++ p ++ "]" ∧ CodePoint.backslash ∉ "[" ++ p ++ "]" := by
    simp only [List.mem_append, hslash, hbackslash]
    decide
  have hany : "[" ++ p ++ "]" ≠ anySegments := by
    rw [hglob]
    exact fun he => absurd (List.cons.inj he).1 (by decide)
  rw [fragments_of_segment houter.1 houter.2 hany, hglob, segmentFragments_class hfound, segmentFragments]

/-- The first bracket behind a body closes the class. -/
theorem cut?_body (hbody : IsBody body) : Text.cut? CodePoint.closeBracket (body ++ "]") = some (body, []) :=
  Text.cut?_eq_some_iff.mpr ⟨hbody.closeBracket, rfl⟩

theorem fragments_oneOf (hbody : IsBody body) : fragments ("[" ++ body ++ "]") = [.oneOf body] := by
  have hcut := cut?_body hbody
  obtain ⟨hbang, hcaret⟩ := hbody.head
  obtain ⟨c, rest, rfl⟩ := List.exists_cons_of_ne_nil hbody.ne_nil
  have hc : c ≠ CodePoint.bang ∧ c ≠ CodePoint.caret ∧ c ≠ CodePoint.closeBracket := by
    refine ⟨fun he => hbang (he ▸ rfl), fun he => hcaret (he ▸ rfl), ?_⟩
    exact fun he => hbody.closeBracket (he ▸ List.mem_cons_self ..)
  have hfound : classBody? (c :: rest ++ "]") = some (c :: rest, []) := by
    rw [List.cons_append, classBody?, ← List.cons_append, hcut]
    simp [hc]
  have hclass : classOf (c :: rest) = .oneOf (c :: rest) := by
    unfold classOf
    split
    · next he => exact absurd (List.cons.inj he).1 hc.1
    · next he => exact absurd (List.cons.inj he).1 hc.2.1
    · rfl
  rw [fragments_class hbody.slash hbody.backslash hfound, hclass]

theorem fragments_noneOf (hbody : IsBody body) : fragments ("[!" ++ body ++ "]") = [.noneOf body] := by
  have hslash : CodePoint.slash ∉ CodePoint.bang :: body := by
    rw [List.mem_cons, not_or]
    exact ⟨by decide, hbody.slash⟩
  have hbackslash : CodePoint.backslash ∉ CodePoint.bang :: body := by
    rw [List.mem_cons, not_or]
    exact ⟨by decide, hbody.backslash⟩
  -- The sign in front is kept with the body until the class is told by it.
  have hfound : classBody? (CodePoint.bang :: body ++ "]") = some (CodePoint.bang :: body, []) := by
    rw [List.cons_append, classBody?, if_pos (by rfl), cut?_body hbody]
    rfl
  exact fragments_class hslash hbackslash hfound

/-- A list of a single part takes what the part takes. -/
theorem takesAll_singleton {t : Text} : TakesAll [f] t ↔ f.Takes t := by
  rw [TakesAll]
  constructor
  · rintro ⟨u, v, rfl, hu, rfl⟩
    rwa [List.append_nil]
  · intro ht
    exact ⟨t, [], (List.append_nil t).symm, ht, rfl⟩

/-- The program of a glob with a single part: it is in order if the part is, and then it matches
    what the part takes. -/
theorem compile_single {g : Text} (letters : Option Text) (hbrace : CodePoint.openBrace ∉ g)
    (hfragments : fragments g = [f]) :
    ∃ q, (Pattern.make false g letters).compile = .ok q ∧ q.isValid = f.isValid ∧
      (f.isValid = true → ∀ t, q.matches t = true ↔ f.Takes t) := by
  have hcompile : compile? g = if f.isValid = true then some ⟨[[f]]⟩ else none := by
    rw [compile?_of_not_mem hbrace, hfragments, List.all_cons, List.all_nil, Bool.and_true]
  rw [Pattern.make, if_neg Bool.false_ne_true, Pattern.compile, hcompile]
  cases hf : f.isValid with
  | false => exact ⟨.never, rfl, rfl, fun h => absurd h Bool.false_ne_true⟩
  | true =>
    refine ⟨.glob ⟨[[f]]⟩, rfl, rfl, fun _ t => ?_⟩
    rw [Pattern.Program.matches, matches_singleton, takesAll_singleton]

/-! ## Complements -/

theorem takes_oneOf (hc : c ≠ CodePoint.slash) : (Fragment.oneOf body).Takes [c] ↔ inClass body c = true := by
  constructor
  · rintro ⟨d, hd, -, hin⟩
    exact (List.cons.inj hd).1 ▸ hin
  · intro hin
    exact ⟨c, rfl, hc, hin⟩

theorem takes_noneOf : (Fragment.noneOf body).Takes [c] ↔ inClass (negatedBody body) c = false := by
  constructor
  · rintro ⟨d, hd, hin⟩
    exact (List.cons.inj hd).1 ▸ hin
  · intro hin
    exact ⟨c, rfl, hin⟩

/-- A class and the negated class are in order together, and each code point other than the
    separator is matched by exactly one of them, unless the body begins with a hyphen and one more
    code point.  Behind the separator these end a range, which the negated class leaves out. -/
theorem compile_negated_class (letters : Option Text) (hbody : IsBody body) :
    ∃ p q, (Pattern.make false ("[" ++ body ++ "]") letters).compile = .ok p ∧
      (Pattern.make false ("[!" ++ body ++ "]") letters).compile = .ok q ∧
      (p.isValid = true ↔ (classRanges? body).isSome = true) ∧
      (p.isValid = true → ∀ c, c ≠ CodePoint.slash → p.matches [c] = inClass body c) ∧
      (¬ OpensRange body → q.isValid = p.isValid ∧
        (p.isValid = true → ∀ c, c ≠ CodePoint.slash → q.matches [c] = !p.matches [c])) ∧
      (∀ e rest, body = CodePoint.minus :: e :: rest →
        (q.isValid = true ↔ CodePoint.slash ≤ e ∧ (classRanges? rest).isSome = true) ∧
        (q.isValid = true → ∀ c, q.matches [c] = !(decide (CodePoint.slash ≤ c ∧ c ≤ e) || inClass rest c))) := by
  have hbrace : CodePoint.openBrace ∉ "[" ++ body ++ "]" ∧ CodePoint.openBrace ∉ "[!" ++ body ++ "]" := by
    simp only [List.mem_append, hbody.openBrace]
    decide
  obtain ⟨p, hp, hpvalid, hpmatches⟩ := compile_single letters hbrace.1 (fragments_oneOf hbody)
  obtain ⟨q, hq, hqvalid, hqmatches⟩ := compile_single letters hbrace.2 (fragments_noneOf hbody)
  have hpranges : p.isValid = (classRanges? body).isSome := hpvalid
  have hpclass : p.isValid = true → ∀ c, c ≠ CodePoint.slash → p.matches [c] = inClass body c := by
    intro hvalid c hc
    rw [Bool.eq_iff_iff, hpmatches (hpvalid ▸ hvalid), takes_oneOf hc]
  have hqclass : q.isValid = true → ∀ c, q.matches [c] = !inClass (negatedBody body) c := by
    intro hvalid c
    rw [Bool.eq_iff_iff, hqmatches (hqvalid ▸ hvalid), takes_noneOf, Bool.not_eq_true']
  refine ⟨p, q, hp, hq, by rw [hpranges], hpclass, ?_, ?_⟩
  · intro hopens
    have hsame : q.isValid = p.isValid := by
      rw [hqvalid, hpvalid]
      exact isSome_classRanges?_cons CodePoint.slash hopens
    refine ⟨hsame, fun hvalid c hc => ?_⟩
    have hin : inClass (negatedBody body) c = (c == CodePoint.slash || inClass body c) :=
      inClass_cons hopens (hpranges ▸ hvalid)
    rw [hqclass (hsame ▸ hvalid), hin, beq_false_of_ne hc, Bool.false_or, hpclass hvalid c hc]
  · rintro e rest rfl
    have hranges : q.isValid = true ↔ CodePoint.slash ≤ e ∧ (classRanges? rest).isSome = true := by
      rw [hqvalid]
      exact isSome_classRanges?_range
    refine ⟨hranges, fun hvalid c => ?_⟩
    obtain ⟨hle, hrest⟩ := hranges.mp hvalid
    rw [hqclass hvalid, negatedBody, inClass_range hle hrest]

/-- A range, an underscore and a hyphen, which is at the end. -/
theorem compile_negated_class_word :
    IsBody "a-c_-" ∧ ¬ OpensRange "a-c_-" ∧
      ∃ p q, (Pattern.make false ("[" ++ "a-c_-" ++ "]") none).compile = .ok p ∧
        (Pattern.make false ("[!" ++ "a-c_-" ++ "]") none).compile = .ok q ∧
        q.isValid = p.isValid ∧
        (p.isValid = true → ∀ c, c ≠ CodePoint.slash → q.matches [c] = !p.matches [c]) := by
  have hbody : IsBody "a-c_-" :=
    ⟨by decide, by decide, by decide, by decide, by decide, by decide⟩
  have hopens : ¬ OpensRange "a-c_-" := by
    rintro ⟨e, rest, h⟩
    exact absurd (List.cons.inj h).1 (by decide)
  obtain ⟨p, q, hp, hq, -, -, hsame, -⟩ := compile_negated_class none hbody
  exact ⟨hbody, hopens, p, q, hp, hq, hsame hopens⟩

/-- A hyphen and a letter: neither the class nor the negated class matches a digit, which is
    between the separator and the letter. -/
theorem negated_class_digit :
    ∃ p q, (Pattern.make false "[-a]" none).compile = .ok p ∧
      (Pattern.make false "[!-a]" none).compile = .ok q ∧ p.isValid = true ∧ q.isValid = true ∧
      p.matches "0" = false ∧ q.matches "0" = false := by
  refine ⟨_, _, rfl, rfl, ?_, ?_, ?_, ?_⟩
  all_goals cbv

end NoteAccess.Glob
