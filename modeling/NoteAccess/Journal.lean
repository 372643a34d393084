/-
  NoteAccess.Journal

  What becomes of the trace of a run: lines below the level in force are dropped,
  and a malformed pattern gives a warning the first time that it is met.
-/

import NoteAccess.Run
import NoteAccess.Log.Level

namespace NoteAccess

/-- The state of the log. -/
structure Journal where
  /-- Lines below this level are dropped. -/
  level : Level
  /-- The malformed patterns that a warning has been given for. -/
  reported : List Pattern := []

namespace Journal

/-- The message about a malformed pattern, with the text of the pattern. -/
def malformedMessage : Pattern → Text × Text
  | .glob t => ("Invalid glob pattern never matches", t)
  | .regex t _ => ("Invalid regex pattern never matches", t)

/-- The warning about a malformed pattern, which ends with what is wrong with it. -/
def malformedLine (p : Pattern) : LogLine :=
  let (message, t) := malformedMessage p
  .ofCause .warning message [("pattern", t)] (" error=" ++ p.flawText)

/-- The line, if its severity is logged. -/
def keep (j : Journal) (l : LogLine) : List LogLine :=
  if j.level.admits (.ofSeverity l.severity) then [l] else []

/-- The journal after an event, with the line that the event leaves. -/
def record (j : Journal) : Event → Journal × List LogLine
  | .line l => (j, j.keep l)
  | .malformed p =>
    if j.reported.contains p then (j, [])
    else ({ j with reported := p :: j.reported }, j.keep (malformedLine p))
  | _ => (j, [])

/-- The journal after events, with the lines that they leave; `seen` are the lines before
    them, in reverse. -/
def recordFrom (j : Journal) (seen : List LogLine) : List Event → Journal × List LogLine
  | [] => (j, seen.reverse)
  | e :: rest =>
    let (j, lines) := j.record e
    recordFrom j (lines ++ seen) rest

/-- The journal after events, with the lines that they leave. -/
def recordAll (j : Journal) (events : List Event) : Journal × List LogLine := j.recordFrom [] events

end Journal

end NoteAccess
