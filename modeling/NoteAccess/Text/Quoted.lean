/-
  NoteAccess.Text.Quoted

  Quoted text, as lines and nested values are shown in messages: apostrophes
  around it, or quotation marks if it holds an apostrophe and no quotation mark;
  what is not printable is escaped.
-/

import NoteAccess.Text.Printable

namespace NoteAccess.Text

/-- The mark that encloses a text: an apostrophe unless only it occurs inside. -/
def enclosingQuote (t : Text) : CodePoint :=
  if t.contains CodePoint.apostrophe && !t.contains CodePoint.quote then .quote else .apostrophe

/-- How one code point is written between the marks `mark`. -/
def quotedPoint (mark c : CodePoint) : Text :=
  if c == mark || c == CodePoint.backslash then [CodePoint.backslash, c]
  else if c == CodePoint.tab then ofString "\\t"
  else if c == CodePoint.newline then ofString "\\n"
  else if c == CodePoint.carriageReturn then ofString "\\r"
  else if c.isPrintable then [c]
  else if c < 0x100 then ofString "\\x" ++ hex 2 c
  else if c < 0x10000 then ofString "\\u" ++ hex 4 c
  else ofString "\\U" ++ hex 8 c

/-- The text between marks, with escapes. -/
def quoted (t : Text) : Text :=
  let mark := enclosingQuote t
  mark :: t.flatMap (quotedPoint mark) ++ [mark]

/-- The bytes between marks, after a `b`; all but printable basic ones are escaped. -/
def quotedBytes (bytes : List UInt8) : Text :=
  let t : Text := bytes.map UInt8.toNat
  let mark := enclosingQuote t
  let point (c : CodePoint) : Text :=
    if 0x7F ≤ c then ofString "\\x" ++ hex 2 c else quotedPoint mark c
  ofString "b" ++ mark :: t.flatMap point ++ [mark]

end NoteAccess.Text
