/-
  NoteAccess.Vault

  A folder of notes.  A path is looked up below the root of the vault; one that
  leads out of it, by `..` or by a link, is not found.
-/

import NoteAccess.FileTree
import NoteAccess.Lookup
import NoteAccess.Note
import NoteAccess.Text.Encoding

namespace NoteAccess

/-- A folder of notes; no link is left in the place of its root. -/
structure Vault where
  root : Place
  encoding : Encoding := .utf8

namespace Vault

/-! ## Places -/

/-- The place that a path means, if it is in the vault. -/
def resolve (v : Vault) (t : FileTree) (path : Text) : Except Fault (Option Place) := do
  let p ← t.resolve (v.root ++ FilePath.segmentsOf (path.dropWhile (· == CodePoint.slash)))
  return if v.root.isPrefixOf p then some p else none

/-- The place that a path means, if it is in the vault and something is there. -/
def find (v : Vault) (t : FileTree) (path : Text) : Except Fault (Option Place) := do
  match ← v.resolve t path with
  | none => return none
  | some p => return if ← t.exists? p then some p else none

/-! ## Reading -/

/-- The size above which content is not read. -/
def maxContentSize : Nat := 64 * 1024 * 1024

/-- Why a note cannot be read. -/
inductive ReadError where
  | tooLarge (p : Place)
  | system (f : Fault) (p : Place)
  /-- The bytes are no text. -/
  | undecodable (cause : Text)

/-- The wording of a note that cannot be read. -/
def ReadError.message : ReadError → Text
  | tooLarge p => "File exceeds content size limit: " ++ Place.text p
  | system f p => FileTree.incident f p |>.message
  | undecodable cause => cause

/-- The text of a note. -/
def readText (v : Vault) (t : FileTree) (p : Place) : Except ReadError Text := do
  let content ← (t.read p).mapError (.system · p)
  if maxContentSize < content.size then throw (.tooLarge p)
  (v.encoding.readText content.toBytes).mapError .undecodable

/-- The endings of the names of notes. -/
def noteSuffixes : List Text := [".md", ".markdown"]

/-- Whether a place has the name of a note. -/
def isNote (p : Place) : Bool :=
  match p.getLast? with
  | some name => noteSuffixes.contains (FilePath.suffixOf name).lower
  | none => false

/-- A failure on the way to a path as an incident. -/
def incident (v : Vault) (t : FileTree) (path : Text) (f : Fault) : Incident :=
  t.resolveIncident f (v.root ++ FilePath.segmentsOf path)

/-- Whether a failure is one of the file system or of the encoding. -/
def isReadFault (f : Fault) : Bool := f.isSystem || f == .undecodable

/-- The tags of a path.  What is no note has none; tags of a note that cannot be read, or
    whose front matter is malformed, are unavailable, and any other failure is that of the whole. -/
def tags [Yaml.Loader] [Stack] (v : Vault) (t : FileTree) (path : Text) : Except Incident TagLookup := do
  match ← (v.find t path).mapError (v.incident t path) with
  | none => return .notFound
  | some p =>
    if t.item? p == some .folder || !isNote p then return TagLookup.ofRaw []
    match v.readText t p with
    | .error _ => return .unavailable ()
    | .ok text =>
      match Note.tags text with
      | .ok raw => return TagLookup.ofRaw raw
      | .error .malformed => return .unavailable ()
      | .error (.fault f message) =>
        if isReadFault f then return .unavailable () else throw (.ofFault f message)

/-- The content of a path; that of a folder is empty. -/
def content (v : Vault) (t : FileTree) (path : Text) : Except Incident ContentLookup := do
  match ← (v.find t path).mapError (v.incident t path) with
  | none => return .notFound
  | some p =>
    if t.item? p == some .folder then return .found []
    match v.readText t p with
    | .ok text => return .found text
    | .error e => return .unavailable e.message

/-- The vault as a source of tags and content. -/
def sources [Yaml.Loader] [Stack] (v : Vault) (t : FileTree) : Sources := ⟨some (v.tags t), some (v.content t)⟩

/-! ## Listing -/

/-- Whether a name is hidden. -/
def isHidden (name : Text) : Bool := name.head? == some CodePoint.dot

/-- Places are listed name by name. -/
def placeLe : Place → Place → Bool
  | [], _ => true
  | _ :: _, [] => false
  | a :: p, b :: q =>
    match a.compare b with
    | .lt => true
    | .eq => placeLe p q
    | .gt => false

/-- The files in a folder of the vault and the folders in it, as paths from the root;
    links to folders are not followed and hidden folders left out. -/
def files (v : Vault) (t : FileTree) (directory : Text) : Except Fault (List Text) := do
  match ← if directory.isEmpty then pure (some v.root) else v.resolve t directory with
  | none => return []
  | some base =>
    if !(← t.isFolder base) then return []
    let within := (t.items.map (·.1)).filter fun p =>
      base.isPrefixOf p && !(p.drop v.root.length).dropLast.any isHidden
    let found ← within.filterM t.isFile
    return (found.mergeSort placeLe).map fun p => Text.join [CodePoint.slash] (p.drop v.root.length)

end Vault

end NoteAccess
