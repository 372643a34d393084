/-
  NoteAccess.Text.Lines

  The ends of lines in a file: a line feed, a carriage return, or both in this
  order.  Text in memory has line feeds only.
-/

import NoteAccess.Text

namespace NoteAccess.Text

/-- A code point put in front of text with line feeds only. -/
def putUnified (c : CodePoint) (rest : Text) (after : Bool) : Text :=
  if c = CodePoint.carriageReturn then (if after then rest else CodePoint.newline :: rest)
  else c :: rest

/-- The text with a line feed for each end of a line. -/
def unifyLineEnds (t : Text) : Text :=
  (t.foldr (fun c (rest, after) => (putUnified c rest after, c == CodePoint.newline)) ([], false)).1

end NoteAccess.Text
