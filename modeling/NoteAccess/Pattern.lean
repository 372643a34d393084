/-
  NoteAccess.Pattern

  The pattern of a rule: a glob, which must match the whole text, or a regular
  expression with flag letters, which is searched anywhere in it.  A pattern that
  is malformed matches nothing.
-/

import NoteAccess.Glob
import NoteAccess.Regex.Search
import NoteAccess.Stack

namespace NoteAccess

/-- A pattern as a rule gives it. -/
inductive Pattern where
  | glob (text : Text)
  | regex (text : Text) (flags : Regex.Flags)
  deriving DecidableEq

namespace Pattern

/-- The flags that letters after a regular expression stand for; letters other than
    `i`, `m` and `s` have no effect. -/
def flagsOf (letters : Text) : Regex.Flags where
  ignoreCase := letters.contains 'i'
  multiline := letters.contains 'm'
  dotAll := letters.contains 's'

/-- The pattern of a rule. -/
def make (isRegex : Bool) (text : Text) (letters : Option Text) : Pattern :=
  if isRegex then .regex text (flagsOf (letters.getD [])) else .glob text

/-- A pattern ready for matching. -/
inductive Program where
  | glob (p : Glob.Program)
  | regex (p : Regex.Program)
  /-- The pattern is malformed. -/
  | never

/-- Whether the program can match at all. -/
def Program.isValid : Program → Bool
  | never => false
  | _ => true

/-- Whether the program matches a text. -/
def Program.matches (t : Text) : Program → Bool
  | glob p => p.matches t
  | regex p => p.search t
  | never => false

/-- The program of a pattern.  Contradictory flags and repetition counts that are too
    large are faults; anything else that is malformed gives the program that never
    matches. -/
def compile : Pattern → Except Fault Program
  | glob t => .ok (match Glob.compile? t with | some p => .glob p | none => .never)
  | regex t flags =>
    match Regex.compile flags t with
    | .ok p => .ok (.regex p)
    | .error (.malformed ..) => .ok .never
    | .error .badValue => .error .badValue
    | .error .tooLarge => .error .tooLarge

/-- The program of a pattern, if there is room for what it is expanded to. -/
def compileWithin (room : Nat) : Pattern → Except Fault Program
  | glob t => (Glob.compileWithin room t).map fun p => p.elim .never .glob
  | regex t flags => (regex t flags).compile

/-- The regular expression that a pattern amounts to, with its flags. -/
def expression : Pattern → Text × Regex.Flags
  | glob t => (Glob.wholeSource t, { dotAll := true })
  | regex t flags => (t, flags)

/-- What is wrong with a malformed pattern, in words; nothing if the pattern is in order. -/
def flawText (p : Pattern) : Text :=
  let (t, flags) := p.expression
  match Regex.compile flags t with
  | .ok _ => []
  | .error f => f.message t

/-- A fault of a pattern as an incident. -/
def incident (f : Fault) : Incident :=
  .ofFault f (match f with
    | .tooLarge => "the repetition number is too large"
    | .tooDeep => Stack.exceeded
    | _ => "ASCII and UNICODE flags are incompatible")

end Pattern

end NoteAccess
