/-
  NoteAccess.Decimal.Numeral

  Reading whole numbers.  The digits of every script count, blanks around the
  numeral are dropped, and single underscores may stand between digits.
-/

import NoteAccess.Text.Blank
import NoteAccess.Text.Word

namespace NoteAccess.Decimal

/-- The number that basic decimal digits denote. -/
def digitsToNat (t : Text) : Nat := t.foldl (fun n c => n * 10 + (c - 48)) 0

/-- The blanks that may stand around a numeral of basic characters only. -/
def isBasicBlank (c : CodePoint) : Bool := c == 32 || (9 ≤ c && c ≤ 13)

/-- The numeral in basic characters, without the blanks around it; digits of other
    scripts become basic ones, and any other code point is refused. -/
def plainNumeral? (t : Text) : Option Text :=
  let strip (t : Text) := Text.dropRightWhile isBasicBlank (t.dropWhile isBasicBlank)
  if t.all (· < 128) then some (strip t)
  else
    (t.mapM fun (c : CodePoint) =>
      if c.isBlank then some CodePoint.space
      else if c < 128 then some c
      else c.digitValue?.map (· + 48)).map strip

/-- The text without its underscores, if each of them stands between two digits. -/
def dropUnderscores? (t : Text) : Option Text :=
  go false t
where
  go (afterDigit : Bool) : Text → Option Text
    | [] => some []
    | CodePoint.underscore :: rest =>
      match rest with
      | [] => none
      | c :: _ => if afterDigit && c.isBasicDigit then go false rest else none
    | c :: rest => (go c.isBasicDigit rest).map (c :: ·)

/-- Numerals with more digits than this are refused. -/
def maxDigits : Nat := 4300

/-- The whole number that a text denotes, with an optional sign. -/
def readInt? (t : Text) : Option Int := do
  let t ← plainNumeral? t
  let (negative, body) := match t with
    | CodePoint.plus :: t => (false, t)
    | CodePoint.minus :: t => (true, t)
    | t => (false, t)
  let digits ← dropUnderscores? body
  if digits.isEmpty || digits.length > maxDigits || !digits.all CodePoint.isBasicDigit then none
  let n : Int := digitsToNat digits
  some (if negative then -n else n)

end NoteAccess.Decimal
