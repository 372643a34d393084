/-
  NoteAccess.Tag

  Tags.  The normal form of a tag is lower case with one leading `#`; a blank
  tag has the empty normal form.
-/

import NoteAccess.Text.Letters
import NoteAccess.Text.Blank

namespace NoteAccess.Tag

/-- The normal form of a raw tag. -/
def normalize (raw : Text) : Text :=
  match raw.strip.lower with
  | [] => []
  | c :: rest => if c = CodePoint.hash then c :: rest else CodePoint.hash :: c :: rest

/-- The normal forms of raw tags, without the empty one and without repetition. -/
def normalizeAll (raw : List Text) : List Text :=
  ((raw.map normalize).filter (! ·.isEmpty)).eraseDups

end NoteAccess.Tag
