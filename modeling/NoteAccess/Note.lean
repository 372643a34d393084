/-
  NoteAccess.Note

  All tags of a note, from its front matter and its body.
-/

import NoteAccess.Note.FrontMatter
import NoteAccess.Note.InlineTags

namespace NoteAccess.Note

variable [Yaml.Loader] [Stack]

/-- The raw tags that the entries of front matter declare. -/
def declared (entries : FrontMatter.Entries) : Except Yaml.Failure (List Text) :=
  (FrontMatter.tags entries).mapError fun f => .fault f (Layered.complaint f)

/-- The raw tags of a note, those of the front matter first. -/
def tags (note : Text) : Except Yaml.Failure (List Text) := do
  let (entries, body) ← FrontMatter.split note
  return (← declared entries) ++ InlineTags.ofBody body

end NoteAccess.Note
