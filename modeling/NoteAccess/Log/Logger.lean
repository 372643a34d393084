/-
  NoteAccess.Log.Logger

  A logger: a name, a level, and contexts that are in force.  The context of a
  line is the contexts in force, from the outermost to the innermost, and then
  its own; a later value of a name takes the place of an earlier one.
-/

import NoteAccess.Log.Level

namespace NoteAccess

/-- A logger. -/
structure Logger where
  name : Text
  level : Level
  /-- The contexts in force, the outermost first. -/
  contexts : List (List (Text × Value)) := []

namespace Logger

/-- Names with values. -/
abbrev Context := List (Text × Value)

/-- A context with one more value: in its place if the name is there, else at the end. -/
def put (c : Context) (name : Text) (v : Value) : Context :=
  if (c.lookup name).isSome then c.map fun (n, w) => if n == name then (n, v) else (n, w)
  else c ++ [(name, v)]

/-- A context with the values of another one. -/
def update (c d : Context) : Context := d.foldl (fun c (n, v) => put c n v) c

/-- The context of a line. -/
def contextOf (l : Logger) (own : Context) : Context := update (l.contexts.foldl update []) own

/-- A message with its context. -/
def format (message : Text) (context : Context) : Text :=
  LogLine.withContext message (context.map fun (n, v) => (n, v.toText))

/-- The line that is logged, if its severity is. -/
def log (l : Logger) (severity : Severity) (message : Text) (context : Context) : Option LogLine :=
  if l.level.admits (.ofSeverity severity) then
    some { severity, message := format message (l.contextOf context) }
  else none

/-- The context of a line about an incident. -/
def incidentContext (context : Context) (i : Incident) : Context :=
  put (put context "exception_type" (.text i.kind)) "exception_message" (.text i.message)

/-- The line that is logged about an incident, if errors are. -/
def logIncident (l : Logger) (message : Text) (context : Context) (i : Incident) : Option LogLine :=
  l.log .error message (incidentContext context i)

/-- The logger with one more context in force. -/
def within (l : Logger) (context : Context) : Logger := { l with contexts := l.contexts ++ [context] }

/-- Names that the context of a line cannot have, since they stand for its parts. -/
def lineNames : List Text := ["self", "msg"]

/-- Names that the context of a line about an incident cannot have. -/
def incidentNames : List Text := ["self", "msg", "exc"]

/-- Names that a context in force cannot have. -/
def scopeNames : List Text := ["self"]

/-- Whether a context has none of the names that are taken. -/
def checkNames (taken : List Text) (context : Context) : Except Fault Unit :=
  if context.any fun (n, _) => taken.contains n then .error .wrongKind else .ok ()

end Logger

end NoteAccess
