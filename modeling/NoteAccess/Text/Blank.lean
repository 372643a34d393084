/-
  NoteAccess.Text.Blank

  White space: the blanks that end a word, and the operations that depend on
  them, stripping a text and cutting it into words.
-/

import NoteAccess.Text

namespace NoteAccess

/-- White space: the controls that move the print position, the four information
    separators, and the space separators of the character set. -/
def CodePoint.isBlank (c : CodePoint) : Bool :=
  (9 ≤ c && c ≤ 13) || (28 ≤ c && c ≤ 32) || c == 0x85 || c == 0xA0 || c == 0x1680 ||
    (0x2000 ≤ c && c ≤ 0x200A) || c == 0x2028 || c == 0x2029 || c == 0x202F ||
    c == 0x205F || c == 0x3000

namespace Text

/-- The text without blanks on its left. -/
def stripLeft (t : Text) : Text := t.dropWhile CodePoint.isBlank

/-- The text without blanks on either side. -/
def strip (t : Text) : Text := dropRightWhile CodePoint.isBlank (stripLeft t)

/-- Whether some code point is a blank. -/
def hasBlank (t : Text) : Bool := t.any CodePoint.isBlank

/-- The non-empty pieces between the code points that satisfy `sep`. -/
def fields (sep : CodePoint → Bool) (t : Text) : List Text :=
  (go t).filter (! ·.isEmpty)
where
  go : Text → List Text
    | [] => [[]]
    | c :: t =>
      if sep c then [] :: go t
      else match go t with
        | [] => [[c]]
        | piece :: rest => (c :: piece) :: rest

end Text

end NoteAccess
