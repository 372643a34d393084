/-
  NoteAccess.Proofs.Glob.Source

  The regular expression that a glob amounts to is plain: signs with a meaning of
  their own are escaped, no braces are left, and the parentheses are those of
  groups and of a look ahead (`plainText_wholeSource`).  So at most it is malformed
  (`onlyMalformed_wholeSource`).
-/

import NoteAccess.Glob
import NoteAccess.Proofs.Regex.Reading

namespace NoteAccess.Glob

open Regex

/-- The tokens of a text are plain. -/
def PlainText (t : Text) : Prop := Regex.Plain (Token.ofText t)

/-- The code points that do not just stand for themselves in a plain text. -/
def reserved : Text := [CodePoint.backslash, CodePoint.openBrace, CodePoint.openParen]

namespace PlainText

variable {t : Text}

theorem nil : PlainText [] := trivial

theorem ofText_cons {c : CodePoint} (hc : c ≠ CodePoint.backslash) (t : Text) :
    Token.ofText (c :: t) = .char c :: Token.ofText t := by
  cases t with
  | nil => simp [Token.ofText, hc]
  | cons d rest => rw [Token.ofText, if_neg hc]

theorem ofText_escape (c : CodePoint) (t : Text) :
    Token.ofText (CodePoint.backslash :: c :: t) = .escape c :: Token.ofText t := by
  rw [Token.ofText, if_pos rfl]

/-- Other code points may stand anywhere. -/
theorem cons {c : CodePoint} (hc : c ∉ reserved) (ht : PlainText t) : PlainText (c :: t) := by
  simp only [reserved, List.mem_cons, List.not_mem_nil, or_false, not_or] at hc
  rw [PlainText, ofText_cons hc.1]
  exact ⟨⟨hc.2.1, fun h => absurd h hc.2.2⟩, ht⟩

theorem append {s : Text} (hs : ∀ c ∈ s, c ∉ reserved) (ht : PlainText t) : PlainText (s ++ t) := by
  induction s with
  | nil => exact ht
  | cons c s ih =>
    obtain ⟨hc, hs⟩ := List.forall_mem_cons.mp hs
    exact .cons hc (ih hs)

/-- A sign may be escaped. -/
theorem escape {c : CodePoint} (hl : c.isBasicLetter = false) (hd : c.isBasicDigit = false)
    (ht : PlainText t) : PlainText (CodePoint.backslash :: c :: t) := by
  rw [PlainText, ofText_escape]
  exact ⟨⟨hl, hd⟩, ht⟩

/-- A parenthesis may begin a group or a look ahead. -/
theorem group {d : CodePoint} (hd : d = CodePoint.colon ∨ d = CodePoint.bang) (ht : PlainText t) :
    PlainText (CodePoint.openParen :: CodePoint.query :: d :: t) := by
  have hd' : d ∉ reserved := by rcases hd with rfl | rfl <;> decide
  have hrest : PlainText (CodePoint.query :: d :: t) := .cons (by decide) (.cons hd' ht)
  rw [PlainText, ofText_cons (by decide)]
  refine ⟨⟨by decide, fun _ => ⟨d, Token.ofText t, ?_, hd⟩⟩, hrest⟩
  rw [ofText_cons (by decide), ofText_cons (by rcases hd with rfl | rfl <;> decide)]

/-! ## Parts of a glob -/

theorem escaped (c : CodePoint) (ht : PlainText t) : PlainText (Glob.escaped c ++ t) := by
  have hsigns : ∀ d ∈ specials, d.isBasicLetter = false ∧ d.isBasicDigit = false := by decide
  unfold Glob.escaped
  split
  · next hc =>
    obtain ⟨hl, hd⟩ := hsigns c (List.contains_iff_mem.mp hc)
    exact .escape hl hd ht
  · -- What is not escaped is none of the signs, and all that is reserved are signs.
    next hc =>
    have hreserved : ∀ d ∈ reserved, d ∈ specials := by decide
    refine .cons (fun hmem => hc ?_) ht
    exact List.contains_iff_mem.mpr (hreserved c hmem)

theorem escapedBody (body : Text) (ht : PlainText t) : PlainText (Glob.escapedBody body ++ t) := by
  induction body with
  | nil => exact ht
  | cons c body ih =>
    have hcons : Glob.escapedBody (c :: body) =
        (if c = CodePoint.minus then [c] else Glob.escaped c) ++ Glob.escapedBody body := List.flatMap_cons ..
    rw [hcons, List.append_assoc]
    split
    · next hc => exact .cons (hc ▸ by decide) ih
    · exact .escaped c ih

theorem fragment (f : Fragment) (ht : PlainText t) : PlainText (f.source ++ t) := by
  cases f with
  | literal c => exact .escaped c ht
  | one => exact .append (by decide) ht
  | run => exact .append (by decide) ht
  | oneOf body =>
    have hsource : (Fragment.oneOf body).source = "(?!/)[" ++ Glob.escapedBody body ++ "]" := rfl
    rw [hsource, List.append_assoc, List.append_assoc]
    have hend : PlainText (Glob.escapedBody body ++ ("]" ++ t)) := .escapedBody body (.append (by decide) ht)
    exact .group (.inr rfl) (.append (s := "/)[") (by decide) hend)
  | noneOf body =>
    have hsource : (Fragment.noneOf body).source = "[^" ++ Glob.escapedBody (negatedBody body) ++ "]" := rfl
    rw [hsource, List.append_assoc, List.append_assoc]
    exact .append (by decide) (.escapedBody _ (.append (by decide) ht))
  | separator => exact .append (by decide) ht
  | anything => exact .append (by decide) ht
  | folders => exact .group (.inl rfl) (.append (s := ".*/)?") (by decide) ht)
  | below => exact .group (.inl rfl) (.append (s := "/.*)?") (by decide) ht)

theorem source (pattern : Text) (ht : PlainText t) : PlainText (Glob.source pattern ++ t) := by
  unfold Glob.source
  induction fragments pattern with
  | nil => exact ht
  | cons f fs ih =>
    rw [List.flatMap_cons, List.append_assoc]
    exact .fragment f ih

theorem join (patterns : List Text) (ht : PlainText t) :
    PlainText (Text.join "|" (patterns.map Glob.source) ++ t) := by
  induction patterns with
  | nil => exact ht
  | cons p ps ih =>
    cases ps with
    | nil =>
      rw [List.map_singleton, Text.join, List.intercalate_singleton]
      exact .source p ht
    | cons q qs =>
      unfold Text.join at ih ⊢
      rw [List.map_cons, List.map_cons, List.intercalate_cons_cons, List.append_assoc, List.append_assoc]
      exact .source p (.append (by decide) ih)

end PlainText

theorem plainText_wholeSource (pattern : Text) : PlainText (wholeSource pattern) := by
  unfold wholeSource
  rw [List.append_assoc]
  have hend : PlainText ")" := .append (s := ")") (by decide) .nil
  exact .group (.inl rfl) (.join (expandBraces pattern) hend)

/-- The expression of a glob compiles, or it is malformed. -/
theorem onlyMalformed_wholeSource (pattern : Text) {flags : Flags} (hflags : flags.ascii = false) :
    OnlyMalformed (Regex.compile flags (wholeSource pattern)) :=
  onlyMalformed_compile (plainText_wholeSource pattern) hflags

end NoteAccess.Glob
