/-
  NoteAccess.Method

  The methods a request names and a rule can be restricted to.
-/

import NoteAccess.Text.Letters
import NoteAccess.Text.Blank

namespace NoteAccess

/-- What a request does to a note. -/
inductive Method where
  | get
  | put
  | post
  | patch
  | delete
  deriving DecidableEq, Repr

namespace Method

/-- The methods in the order in which messages list them. -/
def all : List Method := [get, put, post, patch, delete]

/-- The name of a method, in capitals. -/
def name : Method → Text
  | get => "GET"
  | put => "PUT"
  | post => "POST"
  | patch => "PATCH"
  | delete => "DELETE"

/-- Whether the method changes the note. -/
def isWrite : Method → Bool
  | get => false
  | _ => true

/-- The method with exactly this name. -/
def ofName? (t : Text) : Option Method := all.find? (·.name == t)

/-- The method that a word names in any case. -/
def ofWord? (t : Text) : Option Method := ofName? t.upper

end Method

end NoteAccess
