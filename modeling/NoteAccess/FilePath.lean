/-
  NoteAccess.FilePath

  File paths as they are written.  Empty segments and `.` have no effect; `..`
  stays, since the folder before it may be a symbolic link.
-/

import NoteAccess.Text

namespace NoteAccess

/-- A file path: what makes it absolute, and its segments. -/
structure FilePath where
  /-- Empty for a relative path, else one slash or two. -/
  anchor : Text
  segments : List Text
  deriving DecidableEq

namespace FilePath

/-- The segments of a text that have an effect. -/
def segmentsOf (t : Text) : List Text :=
  (t.pieces CodePoint.slash).filter fun s => !s.isEmpty && s != "."

/-- What makes a written path absolute: one slash, or exactly two. -/
def anchorOf (t : Text) : Text :=
  match t with
  | CodePoint.slash :: CodePoint.slash :: CodePoint.slash :: _ => [CodePoint.slash]
  | CodePoint.slash :: CodePoint.slash :: _ => [CodePoint.slash, CodePoint.slash]
  | CodePoint.slash :: _ => [CodePoint.slash]
  | _ => []

/-- The path of a text. -/
def ofText (t : Text) : FilePath := ⟨anchorOf t, segmentsOf t⟩

/-- The absolute path with the given segments. -/
def ofSegments (segments : List Text) : FilePath := ⟨[CodePoint.slash], segments⟩

/-- The text of a path. -/
def text (p : FilePath) : Text :=
  if p.anchor.isEmpty && p.segments.isEmpty then "." else p.anchor ++ Text.join [CodePoint.slash] p.segments

/-- Whether the path begins at the root folder. -/
def isAbsolute (p : FilePath) : Bool := !p.anchor.isEmpty

/-- The second path as seen from the first. -/
def append (p q : FilePath) : FilePath :=
  if q.isAbsolute then q else { p with segments := p.segments ++ q.segments }

instance : Append FilePath := ⟨append⟩

/-- The folder that the path is in. -/
def parent (p : FilePath) : FilePath := { p with segments := p.segments.dropLast }

/-- The ending of a name from its last full stop; a full stop at either end does not count. -/
def suffixOf (name : Text) : Text :=
  let ending := name.reverse.takeWhile (· != CodePoint.dot)
  if ending.isEmpty || name.length ≤ ending.length + 1 then [] else CodePoint.dot :: ending.reverse

/-- The name of the user in whose home folder the path begins, which is told by a tilde at the
    beginning; empty for the one who is at work. -/
def homeName? (p : FilePath) : Option Text :=
  match p.isAbsolute, p.segments with
  | false, (CodePoint.tilde :: name) :: _ => some name
  | _, _ => none

/-- The path in a home folder. -/
def inHome (home : Text) (p : FilePath) : FilePath :=
  let home := Text.dropRightWhile (· == CodePoint.slash) home
  ofText (if home.isEmpty then [CodePoint.slash] else home) ++ { p with segments := p.segments.drop 1 }

/-- The segments without `..` and what is before it; at the root it has no effect. -/
def foldDots (segments : List Text) : List Text :=
  (segments.foldl (fun (seen : List Text) (s : Text) => if s == ".." then seen.drop 1 else s :: seen)
    []).reverse

/-- The absolute path without `..`, as it is written and without regard to links. -/
def absolute (folder p : FilePath) : FilePath :=
  let p := folder ++ p
  { p with segments := foldDots p.segments }

end FilePath

end NoteAccess
