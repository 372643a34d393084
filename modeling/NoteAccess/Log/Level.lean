/-
  NoteAccess.Log.Level

  The level of a log: lines of lower severity are dropped.  A level is a number,
  the name of one, or a truth value, which serves as one or zero.
-/

import NoteAccess.Log.Line
import NoteAccess.Value.Writing
import NoteAccess.Text.Letters

namespace NoteAccess

/-- The level of a log, as it was set. -/
inductive Level where
  | number (i : Int)
  | truth (b : Bool)
  deriving DecidableEq

namespace Level

/-- The number of a level. -/
def value : Level → Int
  | number i => i
  | truth b => if b then 1 else 0

/-- The level as it is shown. -/
def toValue : Level → Value
  | number i => .int i
  | truth b => .bool b

/-- The level of a severity. -/
def ofSeverity (s : Severity) : Level := .number s.number

/-- The names of levels. -/
def names : List (Text × Int) :=
  [("DEBUG", 10), ("INFO", 20), ("WARNING", 30), ("ERROR", 40), ("CRITICAL", 50)]

/-- Why a value names no level. -/
inductive Unknown where
  /-- There is no level of this name. -/
  | name (given : Text)
  /-- The value cannot be written, so it is no name. -/
  | unwritten (f : Fault)

/-- The wording of a value that names no level. -/
def Unknown.message : Unknown → Text
  | name given => "Unknown log level: " ++ given
  | unwritten f => Layered.complaint f

/-- The kind of failure of a value that names no level. -/
def Unknown.kind : Unknown → Fault
  | name _ => .badValue
  | unwritten f => f

/-- The level that a value gives; names are read in any case. -/
def ofValue [Stack] : Value → Except Unknown Level
  | .int i => .ok (.number i)
  | .bool b => .ok (.truth b)
  | v =>
    match Layered.written v with
    | .error f => .error (.unwritten f)
    | .ok given =>
      match names.lookup given.upper with
      | some i => .ok (.number i)
      | none => .error (.name given)

/-- The least level that is logged where the level is zero. -/
def fallback : Int := 30

/-- The least level that is logged. -/
def least (l : Level) : Int := if l.value = 0 then fallback else l.value

/-- Whether lines of a level are logged; those of level zero and below never are. -/
def admits (l asked : Level) : Bool := 0 < asked.value && l.least ≤ asked.value

end Level

end NoteAccess
