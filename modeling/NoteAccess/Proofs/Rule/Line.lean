/-
  NoteAccess.Proofs.Rule.Line

  The parts of a rule's line are found again where they were put: the words at
  the front (`leadingFields?_append`), a pattern between quotation marks
  (`closeQuote?_escape`), and the flag letters behind a regular expression
  (`splitFlags?_append`).
-/

import Mathlib.Data.List.TakeWhile
import NoteAccess.Rule.Line
import NoteAccess.Proofs.Text

namespace NoteAccess.RuleLine

/-! ## Flag letters at the end of an expression -/

/-- The text ends with a slash and flag letters, perhaps before a line feed. -/
def EndsInFlags (t : Text) : Prop :=
  ∃ body letters tail : Text, t = body ++ CodePoint.slash :: (letters ++ tail) ∧ letters ≠ [] ∧
    (∀ c ∈ letters, c ∈ flagLetters) ∧ (tail = [] ∨ tail = [CodePoint.newline])

theorem newline_not_mem_flagLetters : CodePoint.newline ∉ flagLetters := by decide

theorem takeWhile_flagLetters {letters t : Text} (hl : ∀ c ∈ letters, c ∈ flagLetters)
    (ht : ∀ c ∈ t.head?, c ∉ flagLetters) :
    (letters ++ t).takeWhile flagLetters.contains = letters ∧
      (letters ++ t).dropWhile flagLetters.contains = t := by
  have hpos : ∀ c ∈ letters, flagLetters.contains c = true := by
    intro c hc
    exact List.contains_iff_mem.mpr (hl c hc)
  rw [List.takeWhile_append_of_pos hpos, List.dropWhile_append_of_pos hpos]
  -- What follows begins with no flag letter, so the letters end there.
  cases t with
  | nil => simp
  | cons c t =>
    have hc : ¬ flagLetters.contains c = true := by
      rw [List.contains_iff_mem]
      exact ht c rfl
    simp [List.takeWhile_cons_of_neg hc, List.dropWhile_cons_of_neg hc]

/-- What is split off the end of an expression are a slash and flag letters. -/
theorem splitFlags?_eq_some {t body letters : Text} (h : splitFlags? t = some (body, letters)) :
    letters ≠ [] ∧ (∀ c ∈ letters, c ∈ flagLetters) := by
  induction t generalizing body with
  | nil => cases h
  | cons c rest ih =>
    rw [splitFlags?] at h
    split at h
    · next hcond =>
      cases h
      simp only [Bool.and_eq_true, Bool.not_eq_true', List.isEmpty_eq_false_iff] at hcond
      refine ⟨hcond.1.2, ?_⟩
      intro d hd
      exact List.contains_iff_mem.mp (List.mem_takeWhile_imp hd)
    · obtain ⟨⟨body', letters'⟩, h', he⟩ := Option.map_eq_some_iff.mp h
      cases he
      exact ih h'

/-- Flag letters at the end of an expression are found. -/
theorem splitFlags?_isSome {t : Text} (h : EndsInFlags t) : (splitFlags? t).isSome = true := by
  obtain ⟨body, letters, tail, rfl, hne, hl, htail⟩ := h
  have hhead : ∀ c ∈ tail.head?, c ∉ flagLetters := by
    rcases htail with rfl | rfl
    · simp
    · simpa using newline_not_mem_flagLetters
  obtain ⟨htake, hdrop⟩ := takeWhile_flagLetters hl hhead
  induction body with
  | nil =>
    rw [List.nil_append, splitFlags?, htake, hdrop, if_pos]
    · rfl
    · rcases htail with rfl | rfl <;> simp [hne]
  | cons c body ih =>
    rw [List.cons_append, splitFlags?]
    split
    · rfl  -- An earlier slash may already end the expression.
    · simpa using ih

/-- An expression that does not end in flag letters keeps its text. -/
theorem splitFlags?_eq_none {t : Text} (h : ¬ EndsInFlags t) : splitFlags? t = none := by
  induction t with
  | nil => rfl
  | cons c rest ih =>
    rw [splitFlags?, if_neg, ih]
    · rfl
    · rintro ⟨body, letters, tail, rfl, hletters⟩
      exact h ⟨c :: body, letters, tail, rfl, hletters⟩
    · -- Letters behind this very slash would make the expression end in flag letters.
      intro hcond
      simp only [Bool.and_eq_true, Bool.or_eq_true, Bool.not_eq_true', List.isEmpty_eq_false_iff,
        List.isEmpty_iff, beq_iff_eq, decide_eq_true_eq] at hcond
      obtain ⟨⟨rfl, hne⟩, htail⟩ := hcond
      refine h ⟨[], rest.takeWhile flagLetters.contains, rest.dropWhile flagLetters.contains, ?_, hne,
        ?_, htail⟩
      · rw [List.nil_append, List.takeWhile_append_dropWhile]
      · intro d hd
        exact List.contains_iff_mem.mp (List.mem_takeWhile_imp hd)

/-- A slash in an expression is not passed over when flag letters are taken. -/
theorem slash_mem_dropWhile (body rest : Text) :
    CodePoint.slash ∈ (body ++ CodePoint.slash :: rest).dropWhile flagLetters.contains := by
  induction body with
  | nil =>
    have hslash : ¬ flagLetters.contains CodePoint.slash = true := by decide
    rw [List.nil_append, List.dropWhile_cons_of_neg hslash]
    exact List.mem_cons_self ..
  | cons c body ih =>
    rw [List.cons_append, List.dropWhile_cons]
    split
    · exact ih
    · exact List.mem_cons_of_mem _ (by simp)

/-- Letters written behind a last slash are split off again, whatever is before it. -/
theorem splitFlags?_append {letters : Text} (hne : letters ≠ [])
    (hl : ∀ c ∈ letters, c ∈ flagLetters) (body : Text) :
    splitFlags? (body ++ CodePoint.slash :: letters) = some (body, letters) := by
  induction body with
  | nil =>
    obtain ⟨htake, hdrop⟩ := takeWhile_flagLetters (t := []) hl (by simp)
    rw [List.append_nil] at htake hdrop
    rw [List.nil_append, splitFlags?, htake, hdrop, if_pos (by simp [hne])]
  | cons c body ih =>
    have hmem := slash_mem_dropWhile body letters
    rw [List.cons_append, splitFlags?, if_neg, ih]
    · rfl
    · -- The last slash is still to come, so this one is not followed by letters only.
      intro hcond
      simp only [Bool.and_eq_true, Bool.or_eq_true, List.isEmpty_iff, beq_iff_eq] at hcond
      rcases hcond.2 with hnil | hnewline
      · rw [hnil] at hmem
        exact List.not_mem_nil hmem
      · rw [hnewline] at hmem
        exact absurd (List.mem_singleton.mp hmem) (by decide)

/-! ## Quotation marks -/

/-- The text with a backslash in front of each backslash and quotation mark. -/
def escape (t : Text) : Text :=
  t.flatMap fun c =>
    if c = CodePoint.backslash || c = CodePoint.quote then [CodePoint.backslash, c] else [c]

theorem quote_eq (t : Text) : quote t = CodePoint.quote :: (escape t ++ [CodePoint.quote]) := rfl

theorem closeQuote?_quote (after : Text) : closeQuote? (CodePoint.quote :: after) = some ([], after) := by
  cases after with
  | nil => rfl
  | cons c after =>
    have hne : ¬ CodePoint.quote = CodePoint.backslash := by decide
    rw [closeQuote?, if_neg (by simp [hne]), if_pos rfl]

/-- A code point that is neither of the two is part of a quoted text as it is. -/
theorem closeQuote?_cons {c : CodePoint} (hb : c ≠ CodePoint.backslash) (hq : c ≠ CodePoint.quote)
    {t : Text} (ht : t ≠ []) :
    closeQuote? (c :: t) = (closeQuote? t).map fun (inner, after) => (c :: inner, after) := by
  cases t with
  | nil => exact absurd rfl ht
  | cons d t => rw [closeQuote?, if_neg (by simp [hb]), if_neg hq]

/-- A text between quotation marks is read up to the closing mark, whatever follows. -/
theorem closeQuote?_escape (t after : Text) :
    closeQuote? (escape t ++ CodePoint.quote :: after) = some (t, after) := by
  -- By induction on the text before it was escaped: each of its code points is read back
  -- from one or two of the written ones.
  induction t with
  | nil => exact closeQuote?_quote after
  | cons c t ih =>
    have hcons : escape (c :: t) =
        (if c = CodePoint.backslash || c = CodePoint.quote then [CodePoint.backslash, c] else [c]) ++
          escape t := List.flatMap_cons ..
    rw [hcons, List.append_assoc]
    by_cases hc : c = CodePoint.backslash ∨ c = CodePoint.quote
    · have hesc : (CodePoint.backslash = CodePoint.backslash &&
          (c = CodePoint.quote || c = CodePoint.backslash)) = true := by
        simpa using hc.symm
      rw [if_pos (by simpa using hc), List.cons_append, List.singleton_append, closeQuote?,
        if_pos hesc, ih]
      rfl
    · obtain ⟨hb, hq⟩ := not_or.mp hc
      rw [if_neg (by simpa using hc), List.singleton_append, closeQuote?_cons hb hq (by simp), ih]
      rfl

/-! ## Words at the front -/

theorem isBlank_of_mem_fieldGap : ∀ c ∈ fieldGap, c.isBlank = true := by decide

/-- A word in front of a gap is taken with what follows the gap. -/
theorem wordThenBlank?_append {w t : Text} (hw : w.hasBlank = false) (hne : w ≠ [])
    (ht : ∀ c ∈ t.head?, c.isBlank = false) : wordThenBlank? (w ++ (fieldGap ++ t)) = some (w, t) := by
  have hgap : ∀ c ∈ (fieldGap ++ t).head?, c.isBlank = true := by
    intro c hc
    exact isBlank_of_mem_fieldGap c (List.mem_of_mem_head? hc)
  obtain ⟨htake, hdrop⟩ := Text.takeWhile_word hw hgap
  have hstrip : (fieldGap ++ t).stripLeft = t := by
    rw [Text.stripLeft, List.dropWhile_append_of_pos isBlank_of_mem_fieldGap]
    exact Text.stripLeft_of_head ht
  rw [wordThenBlank?, htake, hdrop, hstrip, if_neg]
  simp [hne, fieldGap]

/-- The first two words of a line and the rest are found behind the gaps. -/
theorem leadingFields?_append {mode kind rest : Text} (hm : mode.hasBlank = false) (hmne : mode ≠ [])
    (hk : kind.hasBlank = false) (hkne : kind ≠ []) (hrest : rest.Trimmed) :
    leadingFields? (mode ++ (fieldGap ++ (kind ++ (fieldGap ++ rest)))) = some (mode, kind, rest) := by
  have hhead : ∀ c ∈ (kind ++ (fieldGap ++ rest)).head?, c.isBlank = false := by
    rw [List.head?_append, Option.or_of_isSome (by simpa using hkne)]
    exact (Text.trimmed_of_hasBlank_eq_false hk).1
  rw [leadingFields?, wordThenBlank?_append hm hmne hhead]
  dsimp only [Option.bind_eq_bind, Option.bind_some]
  rw [wordThenBlank?_append hk hkne hrest.1]
  rfl

/-! ## The pattern and the methods -/

theorem trimmed_quote (t : Text) : (quote t).Trimmed := by
  have hquote : Text.Trimmed [CodePoint.quote] := Text.trimmed_of_hasBlank_eq_false (by decide)
  exact hquote.append (escape t) hquote (List.cons_ne_nil _ _) (List.cons_ne_nil _ _)

/-- The text of a pattern and what follows it are told apart again. -/
theorem splitPattern_append {field bare tail : Text}
    (hfield : field = if needsQuote bare then quote bare else bare) (hne : bare ≠ [])
    (htail : ∀ c ∈ tail.head?, c.isBlank = true) :
    splitPattern (field ++ tail) = .ok (bare, tail.strip) := by
  subst hfield
  by_cases hq : needsQuote bare = true
  · rw [if_pos hq, quote_eq, List.cons_append, List.append_assoc, List.singleton_append, splitPattern,
      if_pos rfl, closeQuote?_escape]
  · -- Without marks the pattern has no blank, so it ends where what follows begins.
    rw [if_neg hq]
    simp only [needsQuote, Bool.or_eq_true, beq_iff_eq, not_or, Bool.not_eq_true] at hq
    obtain ⟨c, bare, rfl⟩ := List.exists_cons_of_ne_nil hne
    have hc : c ≠ CodePoint.quote := by
      intro he
      exact hq.2 (congrArg some he)
    have hleft : Text.stripLeft ((c :: bare) ++ tail) = (c :: bare) ++ tail :=
      Text.stripLeft_of_head (Text.trimmed_of_hasBlank_eq_false hq.1).1
    obtain ⟨htake, hdrop⟩ := Text.takeWhile_word hq.1 htail
    rw [List.cons_append, splitPattern, if_neg hc, ← List.cons_append, hleft]
    dsimp only
    rw [htake, hdrop]

end NoteAccess.RuleLine
