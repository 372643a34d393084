/-
  NoteAccess.FileTree

  Folders, files and symbolic links, as a list of what stands where.  A place is
  the list of names that lead to it from the root folder.

  `locate` follows links as opening a file does, `resolve` gives the place that a
  path means whether or not something is there.
-/

import NoteAccess.FilePath
import NoteAccess.Fault
import NoteAccess.Text.Quoted
import NoteAccess.Text.Utf8

namespace NoteAccess

/-- The bytes of a file. -/
inductive FileContent where
  | bytes (content : List UInt8)
  /-- Zeros only, which take no room. -/
  | hole (size : Nat)
  deriving DecidableEq

namespace FileContent

/-- The number of bytes. -/
def size : FileContent → Nat
  | bytes content => content.length
  | hole n => n

/-- The bytes themselves. -/
def toBytes : FileContent → List UInt8
  | bytes content => content
  | hole n => List.replicate n 0

end FileContent

/-- What stands at a place. -/
inductive FileItem where
  | folder
  /-- A file with the time of its last change, in seconds. -/
  | file (content : FileContent) (time : Int)
  | link (target : Text)
  deriving DecidableEq

/-- Names from the root folder on. -/
abbrev Place := List Text

/-- The path of a place. -/
def Place.path (p : Place) : FilePath := .ofSegments p

/-- The text of the path of a place. -/
def Place.text (p : Place) : Text := FilePath.text (Place.path p)

/-- The folders, files and links that there are, apart from the root folder. -/
structure FileTree where
  items : List (Place × FileItem) := []
  /-- The time that a new file gets. -/
  clock : Int := 0

namespace FileTree

/-! ## What stands where -/

/-- What stands at a place; links are not followed. -/
def item? (t : FileTree) (p : Place) : Option FileItem :=
  if p.isEmpty then some .folder else t.items.lookup p

/-- The tree with an item at a place, in the place of what stood there. -/
def put (t : FileTree) (p : Place) (i : FileItem) : FileTree :=
  if (t.items.lookup p).isSome then
    { t with items := t.items.map fun (q, j) => if q == p then (q, i) else (q, j) }
  else { t with items := t.items ++ [(p, i)] }

/-- The tree without what stands at a place. -/
def erase (t : FileTree) (p : Place) : FileTree := { t with items := t.items.filter (·.1 != p) }

/-! ## Names -/

/-- The longest name, in bytes. -/
def maxNameSize : Nat := 255

/-- The longest path, in bytes. -/
def maxPathSize : Nat := 4095

/-- A text that can be a name: it has an encoding and no zero. -/
def checkName (name : Text) : Except Fault Unit :=
  if name.any fun (c : CodePoint) => c.isSurrogate && !(0xDC80 ≤ c && c ≤ 0xDCFF) then .error .unencodable
  else if name.contains 0 then .error .badValue
  else .ok ()

/-- Where a link leads from the folder that it is in. -/
def startOf (folder : Place) (target : Text) : Place :=
  if target.head? == some CodePoint.slash then [] else folder

/-! ## Wording -/

/-- The wording of a refusal of the file system, with its number. -/
def refusal? : Fault → Option Text
  | .missing => some "[Errno 2] No such file or directory"
  | .alreadyThere => some "[Errno 17] File exists"
  | .notFolder => some "[Errno 20] Not a directory"
  | .isFolder => some "[Errno 21] Is a directory"
  | .fileSystem => some "[Errno 36] File name too long"
  | .linkLoop => some "[Errno 40] Too many levels of symbolic links"
  | _ => none

/-- What happens when the file system fails at a place. -/
def incident (f : Fault) (p : Place) : Incident :=
  .ofFault f (match f with
    | .endlessPath => "Symlink loop from " ++ (Place.text p).quoted
    | .badValue => "embedded null byte"
    | .noHome => "Could not determine home directory."
    | f => match refusal? f with
      | some words => words ++ ": " ++ (Place.text p).quoted
      | none => [])

/-! ## Following a path -/

/-- How far a path leads. -/
inductive Arrival where
  /-- To an item. -/
  | found (p : Place) (i : FileItem)
  /-- To a name that is free in an existing folder. -/
  | vacant (p : Place)
  /-- To a link in a folder, before the rest of the path. -/
  | link (folder : Place) (target : Text) (rest : List Text)
  | failed (f : Fault)

/-- Follow names from a folder up to the first link. -/
def advance (t : FileTree) (place : Place) : List Text → Arrival
  | [] =>
    match t.item? place with
    | some i => .found place i
    | none => .failed .missing
  | name :: rest =>
    if t.item? place != some .folder then .failed .notFolder
    else if name == ".." then advance t place.dropLast rest
    else if maxNameSize < Utf8.size name then .failed .fileSystem
    else match t.item? (place ++ [name]) with
      | none => if rest.isEmpty then .vacant (place ++ [name]) else .failed .missing
      | some (.link target) => .link place target rest
      | some _ => advance t (place ++ [name]) rest

/-- The number of links that are followed at most. -/
def maxLinks : Nat := 40

/-- Follow names and links. -/
def follow (t : FileTree) (place : Place) (names : List Text) : Nat → Except Fault (Place × Option FileItem)
  | 0 => .error .linkLoop
  | links + 1 =>
    match t.advance place names with
    | .found p i => .ok (p, some i)
    | .vacant p => .ok (p, none)
    | .failed f => .error f
    | .link folder target rest =>
      follow t (startOf folder target) (FilePath.segmentsOf target ++ rest) links

/-- The place that a path leads to, with what stands there; nothing if the last name is
    free. -/
def locate (t : FileTree) (path : Place) : Except Fault (Place × Option FileItem) := do
  path.forM checkName
  if maxPathSize < Utf8.size (Place.text path) then throw .fileSystem
  t.follow [] path (maxLinks + 1)

/-- What a path leads to. -/
def stat (t : FileTree) (path : Place) : Except Fault FileItem := do
  match ← t.locate path with
  | (_, some i) => return i
  | (_, none) => throw .missing

/-- Whether a path leads to an item that satisfies `p`; only a path that the file system
    cannot take is a failure. -/
def leadsTo (t : FileTree) (path : Place) (p : FileItem → Bool) : Except Fault Bool :=
  match t.stat path with
  | .ok i => .ok (p i)
  | .error .fileSystem => .error .fileSystem
  | .error _ => .ok false

/-- Whether a path leads to anything. -/
def exists? (t : FileTree) (path : Place) : Except Fault Bool := t.leadsTo path fun _ => true

/-- Whether a path leads to a folder. -/
def isFolder (t : FileTree) (path : Place) : Except Fault Bool := t.leadsTo path (· == .folder)

/-- Whether a path leads to a file. -/
def isFile (t : FileTree) (path : Place) : Except Fault Bool :=
  t.leadsTo path fun
    | .file .. => true
    | _ => false

/-! ## The place that a path means -/

/-- The place that names mean from another place on, where no link is left, and whether all
    of them could be followed; `opened` are the links that are being followed, and no more
    than `links` are opened besides.  A link that leads back to itself ends the walk, and
    what is left of the path stays as it is written. -/
def meaningFrom (t : FileTree) (links : Nat) (opened : List Place) (place : Place) (names : List Text) :
    Except Fault (Place × Bool) :=
  match names with
  | [] => .ok (place, true)
  | name :: rest =>
    if name == ".." then meaningFrom t links opened place.dropLast rest
    else match checkName name with
      | .error f => .error f
      | .ok () =>
        let next := place ++ [name]
        match t.item? next with
        | some (.link target) =>
          match links with
          | 0 => .ok (next ++ rest, false)
          | links + 1 =>
            if opened.contains next then .ok (next ++ rest, false)
            else match meaningFrom t links (next :: opened) (startOf place target)
                (FilePath.segmentsOf target) with
              | .error f => .error f
              | .ok (p, false) => .ok (p ++ rest, false)
              | .ok (p, true) => meaningFrom t (links + 1) opened p rest
        | _ => meaningFrom t links opened next rest
termination_by (links, names.length)

/-- The place that a path means, as far as its links can be followed. -/
def meaning (t : FileTree) (path : Place) : Except Fault Place :=
  (t.meaningFrom t.items.length [] [] path).map fun (p, _) => FilePath.foldDots p

/-- The place that a path means, whether or not something is there. -/
def resolve (t : FileTree) (path : Place) : Except Fault Place := do
  let p ← t.meaning path
  match t.stat p with
  | .error .linkLoop => throw .endlessPath
  | .error .badValue => throw .badValue
  | .error .unencodable => throw .unencodable
  | _ => return p

/-- What happens when a path means no place. -/
def resolveIncident (t : FileTree) (f : Fault) (path : Place) : Incident :=
  incident f ((t.meaning path).toOption.getD path)

/-! ## Files -/

/-- The content of a file. -/
def read (t : FileTree) (path : Place) : Except Fault FileContent := do
  match ← t.stat path with
  | .file content _ => return content
  | _ => throw .isFolder

/-- The time of the last change of a file. -/
def time (t : FileTree) (path : Place) : Except Fault Int := do
  match ← t.stat path with
  | .file _ time => return time
  | _ => return 0

/-- The tree with the file that a path leads to written anew; it keeps its time. -/
def write (t : FileTree) (path : Place) (content : List UInt8) : Except Fault FileTree := do
  match ← t.locate path with
  | (p, none) => return t.put p (.file (.bytes content) t.clock)
  | (p, some (.file _ time)) => return t.put p (.file (.bytes content) time)
  | (_, some _) => throw .isFolder

/-- The tree with the folder of a path and the folders around it; `done` leads to a folder. -/
def makeFoldersFrom (t : FileTree) (done : Place) : List Text → Except Fault FileTree
  | [] => .ok t
  | name :: rest => do
    let path := done ++ [name]
    match ← t.locate path with
    | (_, some .folder) => makeFoldersFrom t path rest
    | (_, some _) => throw (if rest.isEmpty then .alreadyThere else .notFolder)
    | (p, none) => makeFoldersFrom (t.put p .folder) path rest

/-- The tree with the folder of a path and the folders around it. -/
def makeFolders (t : FileTree) (path : Place) : Except Fault FileTree := t.makeFoldersFrom [] path

end FileTree

end NoteAccess
