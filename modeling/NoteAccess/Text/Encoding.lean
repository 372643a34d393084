/-
  NoteAccess.Text.Encoding

  The encodings that a file may have, and the text of a file: its bytes decoded,
  with a line feed for each end of a line.
-/

import NoteAccess.Text.Letters
import NoteAccess.Text.Lines
import NoteAccess.Text.Utf8

namespace NoteAccess

/-- How bytes stand for text. -/
inductive Encoding where
  | utf8
  /-- Each byte is the code point of its number. -/
  | latin1
  /-- As `latin1`, for the first half of the bytes. -/
  | ascii
  deriving DecidableEq, Repr

namespace Encoding

/-- The names of encodings, in small letters and with low lines. -/
def names : List (Text × Encoding) := [
  ("utf_8", utf8), ("utf8", utf8), ("latin_1", latin1), ("latin1", latin1), ("iso_8859_1", latin1),
  ("iso8859_1", latin1), ("ascii", ascii), ("us_ascii", ascii)]

/-- The encoding of a name, in any case; hyphens, spaces and low lines are the same. -/
def ofName? (t : Text) : Option Encoding :=
  names.lookup (t.lower.map fun c =>
    if c = CodePoint.minus || c = CodePoint.space then CodePoint.underscore else c)

/-- The text of bytes, or what is wrong with them. -/
def decode (e : Encoding) (bytes : List UInt8) : Except Text Text :=
  match e with
  | utf8 => (Utf8.decode bytes).mapError (·.message)
  | latin1 => .ok (bytes.map UInt8.toNat)
  | ascii =>
    match bytes.findIdx? fun b => 128 ≤ b with
    | none => .ok (bytes.map UInt8.toNat)
    | some i =>
      .error ("'ascii' codec can't decode byte 0x" ++ Text.hex 2 ((bytes[i]?.map UInt8.toNat).getD 0) ++
        " in position " ++ Text.ofNat i ++ ": ordinal not in range(128)")

/-- The text of a file, or what is wrong with its bytes. -/
def readText (e : Encoding) (bytes : List UInt8) : Except Text Text :=
  (e.decode bytes).map Text.unifyLineEnds

end Encoding

end NoteAccess
