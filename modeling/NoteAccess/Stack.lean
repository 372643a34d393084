/-
  NoteAccess.Stack

  Calls nest only so deep: what recurses further fails with `Fault.tooDeep`.  How
  much room is left depends on who calls, so the functions that recurse over what
  they are given take it from the class `Stack`, and what is proved about them
  holds whatever the room is.
-/

import NoteAccess.Fault

namespace NoteAccess

/-- How deep calls may still be nested. -/
class Stack where
  room : Nat

namespace Stack

/-- As deep as calls may be nested at all, unless the interpreter is told otherwise. -/
def limit : Nat := 1000

/-- The room that a session has for what its commands call: some thirty calls are open by then. -/
@[reducible] def usual : Stack := ⟨limit - 30⟩

/-- The wording where calls are nested too deeply. -/
def exceeded : Text := "maximum recursion depth exceeded"

end Stack

end NoteAccess
