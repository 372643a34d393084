/-
  NoteAccess.Yaml.Loader

  What reads YAML is not part of the library.  The functions that need it take it from the
  class `Yaml.Loader`, and what is proved about them holds whatever it makes of a text.

  The front matter of a note is looked at layer by layer, since a collection in it may have
  itself inside.  A configuration file gives a tree, and where the mappings in it stand that
  have more than one place; files with a collection inside itself are left out.
-/

import NoteAccess.Value.Trail
import NoteAccess.Value.Writing

namespace NoteAccess.Yaml

/-- Why a document cannot be read. -/
inductive Failure where
  /-- It is not well formed, or holds something that has no meaning. -/
  | malformed
  /-- Reading it fails in another way, as where a scalar has no value. -/
  | fault (f : Fault) (message : Text)
  deriving DecidableEq

/-- What a configuration file holds, where no collection is inside itself. -/
structure Document where
  value : Value
  /-- Where the mappings stand that have more than one place in it. -/
  shared : Value.Sharing := []

/-- What reads YAML. -/
class Loader where
  /-- What front matter can hold. -/
  Datum : Type
  [layered : Layered Datum]
  /-- Read the text of front matter. -/
  note : Text → Except Failure Datum
  /-- Read the bytes of a configuration file, which need not be text. -/
  file : List UInt8 → Except Failure Document

instance [Loader] : Layered Loader.Datum := Loader.layered

end NoteAccess.Yaml
