/-
  NoteAccess.Log.Line

  A line of the log: its severity and its message, which may go on with a cause
  that another text words.  Context follows a message as names with texts.
-/

import NoteAccess.Fault

namespace NoteAccess

/-- How much a line of the log matters. -/
inductive Severity where
  /-- For finding errors. -/
  | debug
  /-- About the normal course. -/
  | info
  /-- About what may be wrong. -/
  | warning
  /-- About a failure. -/
  | error
  deriving DecidableEq, Repr

namespace Severity

/-- All severities. -/
def all : List Severity := [debug, info, warning, error]

/-- The number of a severity; what matters more has the larger one. -/
def number : Severity → Nat
  | debug => 10
  | info => 20
  | warning => 30
  | error => 40

/-- The name of a severity. -/
def name : Severity → Text
  | debug => "DEBUG"
  | info => "INFO"
  | warning => "WARNING"
  | error => "ERROR"

end Severity

/-- A line of the log. -/
structure LogLine where
  severity : Severity
  message : Text
  /-- What follows the message: the words of a cause. -/
  cause : Text := []
  deriving DecidableEq

namespace LogLine

/-- The names and texts of a context. -/
abbrev Context := List (Text × Text)

/-- A message with its context. -/
def withContext (message : Text) (context : Context) : Text :=
  if context.isEmpty then message
  else message ++ " | " ++ Text.join " " (context.map fun (k, v) => k ++ "=" ++ v)

/-- A line with its context. -/
def ofContext (severity : Severity) (message : Text) (context : Context) : LogLine :=
  { severity, message := withContext message context }

/-- A line with its context, the last text of which goes on with a cause; `later` is what
    follows in the context. -/
def ofCause (severity : Severity) (message : Text) (context : Context) (cause : Text)
    (later : Context := []) : LogLine :=
  if cause.isEmpty then ofContext severity message (context ++ later)
  else
    { severity, message := withContext message context
      cause := cause ++ later.flatMap fun (k, v) => CodePoint.space :: k ++ [CodePoint.equals] ++ v }

/-- The line of an incident, which ends with its kind and its message. -/
def ofIncident (message : Text) (context : Context) (i : Incident) : LogLine :=
  let last : Context := [("exception_type", i.kind), ("exception_message", i.message)]
  ofCause .error message (context ++ last) i.cause

/-- The message and the cause. -/
def whole (l : LogLine) : Text := l.message ++ l.cause

/-- The message with the name of the severity in front. -/
def text (l : LogLine) : Text := l.severity.name ++ " " ++ l.message

end LogLine

end NoteAccess
