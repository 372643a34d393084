/-
  NoteAccess.Surroundings

  What a command is started with: the folder that relative paths begin in, the
  home folders, and the variables of the environment.
-/

import NoteAccess.FileTree

namespace NoteAccess

/-- What a command is started with. -/
structure Surroundings where
  folder : Place
  /-- The home folder of the user who is at work. -/
  home : Text
  /-- The names and texts of the variables. -/
  environment : List (Text × Text) := []
  /-- The home folders of the users that are known. -/
  users : List (Text × Text) := []

namespace Surroundings

/-- What a command is started with, as far as the environment says; `home` is the home
    folder where a variable does not give it. -/
def ofEnvironment (folder : Place) (home : Text) (environment : List (Text × Text)) (users : List (Text × Text) := []) :
    Surroundings where
  folder
  home := (environment.lookup (Text.ofString "HOME")).getD home
  environment
  users

/-- The home folder of a user; an empty name is the user who is at work. -/
def homeOf? (s : Surroundings) (name : Text) : Option Text :=
  if name.isEmpty then some s.home else s.users.lookup name

/-- The path with the home folder in place of a tilde and the name behind it; the home folder must
    be known, and begin with no tilde itself. -/
def expand (s : Surroundings) (p : FilePath) : Except Fault FilePath :=
  match p.homeName? with
  | none => .ok p
  | some name =>
    match s.homeOf? name with
    | some home => if home.head? == some CodePoint.tilde then .error .noHome else .ok (p.inHome home)
    | none => .error .noHome

/-- The absolute path that a text means, with the home folder in place of a tilde. -/
def locate (s : Surroundings) (path : Text) : Except Fault FilePath :=
  (s.expand (FilePath.ofText path)).map (Place.path s.folder ++ ·)

/-- The text of the absolute path that a text means, without regard to links.  A tilde counts
    only at its very beginning, and one without a home folder is part of a name. -/
def absolute (s : Surroundings) (path : Text) : Text :=
  let p := FilePath.ofText path
  let home := if path.head? == some CodePoint.tilde then p.homeName?.bind s.homeOf? else none
  FilePath.text (.absolute (Place.path s.folder) ((home.map p.inHome).getD p))

/-- The place that a text means. -/
def resolve (s : Surroundings) (t : FileTree) (path : Text) : Except Fault Place := do
  t.resolve (← s.locate path).segments

/-- What happens when a text means no place. -/
def incident (s : Surroundings) (t : FileTree) (path : Text) (f : Fault) : Incident :=
  match s.locate path with
  | .ok p => t.resolveIncident f p.segments
  | .error _ => FileTree.incident f []

end Surroundings

end NoteAccess
