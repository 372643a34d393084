/-
  NoteAccess.Lookup

  What a vault answers about a path: nothing there, something there that cannot
  be read, or the tags or text that were asked for.
-/

import NoteAccess.Tag
import NoteAccess.Fault

namespace NoteAccess

/-- The answer to a question about a path; `ε` tells why something cannot be read. -/
inductive Lookup (ε α : Type) where
  | notFound
  | unavailable (reason : ε)
  | found (a : α)
  deriving DecidableEq

/-- The tags of a path, in normal form. -/
abbrev TagLookup := Lookup Unit (List Text)

/-- The text of a path, or why it cannot be read. -/
abbrev ContentLookup := Lookup Text Text

/-- A lookup that found raw tags. -/
def TagLookup.ofRaw (raw : List Text) : TagLookup := .found (Tag.normalizeAll raw)

/-- The sources of tags and content, each of which may be absent. -/
structure Sources where
  tags : Option (Text → Except Incident TagLookup)
  content : Option (Text → Except Incident ContentLookup)

end NoteAccess
