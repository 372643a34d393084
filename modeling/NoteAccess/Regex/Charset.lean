/-
  NoteAccess.Regex.Charset

  What a leaf that takes one code point accepts, with letter case settled.

  When case is ignored, the code point of the text is made small, and a written
  code point stands for its small letter and the small letters with the same
  capital.  Sets follow the same rule with two limits: a set of code points that
  have no case compares them as they are, and beyond the basic plane a single
  member is compared as written, a range also with the capital.
-/

import NoteAccess.Regex.Syntax
import NoteAccess.Text.Blank
import NoteAccess.Text.Word
import NoteAccess.Text.SharedCapital

namespace NoteAccess.Regex

/-- How a code point of the text is changed before it is compared. -/
inductive Fold where
  | keep
  /-- Letters of the basic alphabet become small. -/
  | basic
  /-- All letters become small. -/
  | full
  deriving DecidableEq, Repr

namespace Fold

/-- The changed code point. -/
def apply : Fold → CodePoint → CodePoint
  | keep, c => c
  | basic, c => if 65 ≤ c && c ≤ 90 then c + 32 else c
  | full, c => c.toLower

/-- Whether the code point has case. -/
def hasCase : Fold → CodePoint → Bool
  | keep, _ => false
  | basic, c => c.isBasicLetter
  | full, c => CodePoint.hasCase c

/-- Whether a range has a code point with case. -/
def rangeHasCase : Fold → CodePoint → CodePoint → Bool
  | keep, _, _ => false
  | basic, lo, hi => (lo ≤ 90 && 65 ≤ hi) || (lo ≤ 122 && 97 ≤ hi)
  | full, lo, hi => lowerRuns.any (·.meets lo hi) || upperRuns.any (·.meets lo hi)

/-- The other small letters that count as the same as a small letter. -/
def alike : Fold → CodePoint → List CodePoint
  | full, c => c.alikeLetters
  | _, _ => []

/-- Whether a small letter comes from a code point between `lo` and `hi`. -/
def comesFrom (f : Fold) (lo hi c : CodePoint) : Bool :=
  let within (x : CodePoint) : Bool := lo ≤ x && x ≤ hi
  (within c && f.apply c == c) ||
    match f with
    | keep => false
    | basic => 97 ≤ c && c ≤ 122 && within (c - 32)
    | full => lowerRuns.any fun r => (r.preimage? c).any within

/-- The folding that flags ask for. -/
def ofFlags (f : Flags) : Fold :=
  if !f.ignoreCase then keep else if f.unicode then full else basic

end Fold

/-- A test of one code point, already folded. -/
inductive Member where
  | point (c : CodePoint)
  | range (lo hi : CodePoint)
  /-- The range holds the code point or its capital. -/
  | eitherCase (lo hi : CodePoint)
  /-- The small letter of the range, or one with the same capital. -/
  | lowered (f : Fold) (lo hi : CodePoint)
  | category (k : Category) (basic negated : Bool)
  deriving DecidableEq

/-- Whether the code point is in the category, limited to the basic alphabet or not. -/
def Category.holds (k : Category) (basic : Bool) (c : CodePoint) : Bool :=
  match k, basic with
  | digit, true => c.isBasicDigit
  | digit, false => c.isDigit
  | blank, true => c == 32 || (9 ≤ c && c ≤ 13)
  | blank, false => c.isBlank
  | word, true => c.isBasicDigit || c.isBasicLetter || c == CodePoint.underscore
  | word, false => c.isWord

/-- Whether the test accepts the code point. -/
def Member.holds (c : CodePoint) : Member → Bool
  | point d => c == d
  | range lo hi => lo ≤ c && c ≤ hi
  | eitherCase lo hi => (lo ≤ c && c ≤ hi) || (lo ≤ c.toUpper && c.toUpper ≤ hi)
  | lowered f lo hi => (c :: f.alike c).any (f.comesFrom lo hi)
  | category k basic negated => k.holds basic c != negated

/-- A set of code points. -/
structure Charset where
  negated : Bool
  fold : Fold
  members : List Member
  deriving DecidableEq

/-- Membership of a code point. -/
def Charset.contains (s : Charset) (c : CodePoint) : Bool :=
  let c := s.fold.apply c
  s.members.any (·.holds c) != s.negated

/-- The first code point beyond the basic plane. -/
def planeEnd : Nat := 0x10000

/-- The tests that a member of a set stands for when case is settled by `f`, and
    whether they need the code point of the text folded. -/
def SetItem.members (f : Fold) (basic : Bool) : SetItem → List Member × Bool
  | category k negated => ([.category k basic negated], false)
  | single c =>
    if f = .keep then ([.point c], false)
    else if c < planeEnd then
      let small := f.apply c
      ((small :: f.alike small).map .point, f.hasCase c)
    else ([.point c], true)
  | range lo hi =>
    if f = .keep then ([.range lo hi], false)
    else if hi < planeEnd then ([.lowered f lo hi], f.rangeHasCase lo hi)
    else ((if lo < planeEnd then [.lowered f lo (planeEnd - 1)] else []) ++ [.eitherCase lo hi], true)

/-- The set with letter case settled by the flags. -/
def Charset.ofItems (flags : Flags) (negated : Bool) (items : List SetItem) : Charset :=
  let parts := items.map (SetItem.members (.ofFlags flags) flags.ascii)
  { negated
    fold := if parts.any (·.2) then .ofFlags flags else .keep
    members := parts.flatMap (·.1) }

/-- The set of a single code point with letter case settled by the flags. -/
def Charset.ofChar (flags : Flags) (negated : Bool) (c : CodePoint) : Charset :=
  let f := Fold.ofFlags flags
  if f.hasCase c then
    let small := f.apply c
    { negated, fold := f, members := (small :: f.alike small).map .point }
  else { negated, fold := .keep, members := [.point c] }

end NoteAccess.Regex
