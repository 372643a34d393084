/-
  NoteAccess.Proofs.Glob.Union

  A glob matches what one of the patterns matches that its braces are expanded to
  (`compile_expansions`).  The joined regular expression does so, too: as a whole it matches what
  one of its alternatives matches (`fullMatch_wholeSource`), so none of them reaches into another.
-/

import NoteAccess.Proofs.Glob.Language
import NoteAccess.Proofs.Glob.Runs

namespace NoteAccess.Glob

variable {pattern q t : Text}

/-- What a pattern is expanded to is its own expansion. -/
theorem expandBraces_of_mem (h : q ∈ expandBraces pattern) : expandBraces q = [q] :=
  expandBraces_of_nextPatterns_nil (nextPatterns_of_mem_expandBraces h)

/-- A glob is in order if all of its expansions are. -/
theorem isSome_compile?_expansions (pattern : Text) :
    (compile? pattern).isSome = true ↔ ∀ q ∈ expandBraces pattern, (compile? q).isSome = true := by
  rw [isSome_compile?_eq, branches, List.all_map, List.all_eq_true]
  refine forall₂_congr fun q hq => ?_
  rw [isSome_compile?_eq, branches_of_expandBraces (expandBraces_of_mem hq), List.all_cons, List.all_nil,
    Bool.and_true, Function.comp_apply]

/-- In order, a glob matches what one of its expansions matches. -/
theorem matches_expansions (h : (compile? pattern).isSome = true) :
    Matches pattern t ↔ ∃ q ∈ expandBraces pattern, Matches q t := by
  have heach : ∀ q ∈ expandBraces pattern, (Matches q t ↔ TakesAll (fragments q) t) := by
    intro q hq
    have hvalid := (isSome_compile?_expansions pattern).mp h q hq
    rw [matches_iff_branches, and_iff_right hvalid, branches_of_expandBraces (expandBraces_of_mem hq)]
    simp only [List.mem_singleton, exists_eq_left]
  rw [matches_iff_branches, and_iff_right h]
  constructor
  · rintro ⟨_, hfs, ht⟩
    obtain ⟨q, hq, rfl⟩ := List.mem_map.mp hfs
    exact ⟨q, hq, (heach q hq).mpr ht⟩
  · rintro ⟨q, hq, ht⟩
    exact ⟨fragments q, List.mem_map_of_mem hq, (heach q hq).mp ht⟩

/-- A glob matches what its expression matches as a whole. -/
theorem matches_iff_fullMatch :
    Matches pattern t ↔
      ∃ e, Regex.compile { dotAll := true } (wholeSource pattern) = .ok e ∧ e.fullMatch t = true := by
  constructor
  · rintro ⟨p, hp, ht⟩
    obtain ⟨e, he⟩ := (isSome_compile?_iff pattern).mp (Option.isSome_of_eq_some hp)
    exact ⟨e, he, (fullMatch_wholeSource he hp t).trans ht⟩
  · rintro ⟨e, he, ht⟩
    obtain ⟨p, hp⟩ := Option.isSome_iff_exists.mp ((isSome_compile?_iff pattern).mpr ⟨e, he⟩)
    exact ⟨p, hp, (fullMatch_wholeSource he hp t).symm.trans ht⟩

theorem exists_compile_isValid (letters : Option Text) :
    (∃ p, (Pattern.make false pattern letters).compile = .ok p ∧ p.isValid = true) ↔
      (compile? pattern).isSome = true := by
  obtain ⟨p, hp, hvalid, -⟩ := compile_glob_matches pattern letters
  rw [hp, ← hvalid]
  exact ⟨fun ⟨_, he, h⟩ => Except.ok.inj he ▸ h, fun h => ⟨p, rfl, h⟩⟩

theorem exists_compile_matches (letters : Option Text) :
    (∃ p, (Pattern.make false pattern letters).compile = .ok p ∧ p.matches t = true) ↔ Matches pattern t := by
  obtain ⟨p, hp, -, hmatches⟩ := compile_glob_matches pattern letters
  rw [hp, ← hmatches]
  exact ⟨fun ⟨_, he, h⟩ => Except.ok.inj he ▸ h, fun h => ⟨p, rfl, h⟩⟩

/-- The expansion of a glob goes on with patterns that have fewer opening braces, and it ends with
    patterns that are their own expansions.  The glob is compiled to what the regular expression
    with an alternative for each of them does: it is in order if they all are, and then it matches
    what one of them matches. -/
theorem compile_expansions (pattern : Text) (letters : Option Text) :
    (expandBraces pattern =
        if nextPatterns pattern = [] then [pattern] else (nextPatterns pattern).flatMap expandBraces) ∧
      (∀ q ∈ nextPatterns pattern, q.count CodePoint.openBrace < pattern.count CodePoint.openBrace) ∧
      (∀ q ∈ expandBraces pattern, expandBraces q = [q]) ∧
      ∃ p, (Pattern.make false pattern letters).compile = .ok p ∧
        (p.isValid = true ↔ ∃ e, Regex.compile { dotAll := true } (wholeSource pattern) = .ok e) ∧
        (∀ t, p.matches t = true ↔
          ∃ e, Regex.compile { dotAll := true } (wholeSource pattern) = .ok e ∧ e.fullMatch t = true) ∧
        (p.isValid = true ↔
          ∀ q ∈ expandBraces pattern,
            ∃ p', (Pattern.make false q letters).compile = .ok p' ∧ p'.isValid = true) ∧
        (p.isValid = true → ∀ t, (p.matches t = true ↔
          ∃ q ∈ expandBraces pattern,
            ∃ p', (Pattern.make false q letters).compile = .ok p' ∧ p'.matches t = true)) := by
  obtain ⟨p, hp, hvalid, hmatches⟩ := compile_glob_matches pattern letters
  refine ⟨expandBraces_eq pattern, fun q => count_lt_of_mem_nextPatterns, fun q => expandBraces_of_mem, p, hp,
    ?_, fun t => ?_, ?_, fun hp t => ?_⟩
  · rw [hvalid, isSome_compile?_iff]
  · rw [hmatches, matches_iff_fullMatch]
  · rw [hvalid, isSome_compile?_expansions]
    simp only [exists_compile_isValid]
  · rw [hmatches, matches_expansions (hvalid.mp hp)]
    simp only [exists_compile_matches]

end NoteAccess.Glob
