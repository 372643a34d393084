/-
  NoteAccess.Session

  A run of the program: what it was started with, the files that it works on, its
  components, and what it has logged and printed so far.

  An action of a session ends with a value or a failure; what it has done until
  then stays.
-/

import NoteAccess.CommandLine.Check
import NoteAccess.Config.Environment
import NoteAccess.Config.File
import NoteAccess.Journal
import NoteAccess.Log.Layout
import NoteAccess.Policy.Engine
import NoteAccess.Vault

namespace NoteAccess

/-! ## Failures -/

/-- Why a command cannot be carried out. -/
inductive CommandError where
  | rulesExist (path : Text)
  | noRules (path : Text)
  | invalidRule (e : LineError)
  | invalidRegex (pattern : Text)
  | noRuleOnLine (line : Int) (path : Text)

/-- The wording of a command that cannot be carried out. -/
def CommandError.message : CommandError → Text
  | rulesExist path => "Rules file already exists: " ++ path ++ " (use --force to overwrite)"
  | noRules path => "Rules file not found: " ++ path
  | invalidRule e => "Invalid rule: " ++ e.message
  | invalidRegex pattern => "Invalid regular expression: " ++ pattern
  | noRuleOnLine line path => "No rule on line " ++ Text.ofInt line ++ " of " ++ path

/-- Why an action fails. -/
inductive Failure where
  | command (e : CommandError)
  | rulesFile (e : RulesFile.Error)
  | setting (r : Setting.Refusal)
  | level (u : Level.Unknown)
  | fault (f : Fault) (message : Text)

namespace Failure

/-- The failure of an operation that a value, or a part that is not there, lacks. -/
def lacking (name operation : Text) : Failure :=
  .fault .lacksOperation ([CodePoint.apostrophe] ++ name ++ "' object has no attribute '" ++ operation ++ "'")

/-- A failure of the file system. -/
def ofSystem (p : Place) (f : Fault) : Failure := .fault f (FileTree.incident f p).message

/-- The failure of a text to mean a place. -/
def ofPath (s : Surroundings) (t : FileTree) (path : Text) (f : Fault) : Failure :=
  .fault f (s.incident t path f).message

/-- The failure of levels that cannot be merged. -/
def ofMerging (f : Fault) : Failure := .fault f Stack.exceeded

/-- A failure of settings. -/
def ofSetting : SettingFailure → Failure
  | .refused r => .setting r
  | .fault f => .fault f (Layered.complaint f)

/-- A failure as an incident. -/
def incident : Failure → Incident
  | command e => { kind := "CLIError", message := e.message }
  | rulesFile e => e.incident
  | setting r => { kind := "ValidationError", message := r.message }
  | level u => .ofFault u.kind u.message
  | fault f message => .ofFault f message

end Failure

/-! ## Sessions -/

/-- Who is told of changes while files are looked after. -/
inductive Hook where
  /-- The rules are read again. -/
  | rules
  /-- The settings are taken over. -/
  | settings
  deriving DecidableEq, Repr

/-- A line of the error output, with what it goes on with. -/
structure ErrorLine where
  message : Text
  cause : Text := []
  deriving DecidableEq

/-- A run of the program. -/
structure Session where
  world : Surroundings
  arguments : CommandLine.Arguments
  config : Config Hook
  tree : FileTree
  journal : Journal
  /-- How a log line is laid out. -/
  layout : Layout
  /-- A file that log lines go to as well. -/
  logFile : Option Place := none
  /-- The time for log lines, as it is shown. -/
  stamp : Text := []
  /-- What is still to be read from the input. -/
  input : Text := []
  /-- The lines that have been logged, the latest first. -/
  logged : List LogLine := []
  /-- The lines that have been printed, the latest first. -/
  printed : List Text := []
  /-- The error output, the latest first. -/
  complaints : List ErrorLine := []
  vault : Option Vault := none
  rulesPath : Option FilePath := none
  engine : Option Engine := none
  /-- Whether the session is to end. -/
  stopping : Bool := false

/-- An action of a session. -/
abbrev Act (α : Type) := ExceptT Failure (StateM Session) α

namespace Session

/-! ## Output -/

/-- The name of the log. -/
def logName : Text := CommandLine.programName

/-- A log line as it is laid out with a message, if it can be shown. -/
def showLine? (s : Session) (message : Text) (l : LogLine) : Option Text :=
  s.layout.fill? (Layout.fieldsOf logName s.stamp message l)

/-- The tree with a text at the end of a file; nothing is added to what is no file. -/
def appendTo (t : FileTree) (p : Place) (text : Text) : FileTree :=
  match t.read p with
  | .ok content => ((Utf8.encode? text).bind fun bytes => (t.write p (content.toBytes ++ bytes)).toOption).getD t
  | .error _ => t

/-- The session with a line logged, whatever its severity. -/
def withLine (s : Session) (l : LogLine) : Session :=
  { s with
    logged := l :: s.logged
    tree := match s.logFile with
      | none => s.tree
      | some f =>
        match s.showLine? l.whole l with
        | none => s.tree
        | some text => appendTo s.tree f (text ++ [CodePoint.newline]) }

/-- The session with what an event leaves in the log. -/
def withEvent (s : Session) (e : Event) : Session :=
  let (journal, lines) := s.journal.record e
  lines.foldl withLine { s with journal }

/-- The session with what events leave in the log. -/
def withEvents (s : Session) (events : List Event) : Session := events.foldl withEvent s

end Session

namespace Act

variable {ε α : Type}

/-- Log a line, if its severity is logged. -/
def say (l : LogLine) : Act Unit := modify fun s => s.withEvent (.line l)

/-- Log a message with its context, if its severity is logged. -/
def log (severity : Severity) (message : Text) (context : LogLine.Context) : Act Unit :=
  say (.ofContext severity message context)

/-- Print a line. -/
def print (line : Text) : Act Unit := modify fun s => { s with printed := line :: s.printed }

/-- Add to the error output. -/
def complain (c : ErrorLine) : Act Unit := modify fun s => { s with complaints := c :: s.complaints }

/-- The result of a run, with its trace in the log. -/
def absorb (f : ε → Failure) (r : Run ε α) : Act α := do
  modify fun s => s.withEvents r.events
  match r.result with
  | .ok a => return a
  | .error e => throw (f e)

/-- A value, or a failure. -/
def ofExcept (f : ε → Failure) (r : Except ε α) : Act α :=
  match r with
  | .ok a => return a
  | .error e => throw (f e)

/-- Change the files; what a failure has changed stays changed. -/
def onTree (f : ε → Failure) (change : FileTree → FileTree × Except ε α) : Act α := do
  let (tree, result) := change (← get).tree
  modify fun s => { s with tree }
  ofExcept f result

/-- A component, which must be there. -/
def need (c : Option α) (operation : Text) : Act α :=
  match c with
  | some a => return a
  | none => throw (.lacking "NoneType" operation)

end Act

end NoteAccess
