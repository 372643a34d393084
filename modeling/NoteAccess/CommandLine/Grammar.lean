/-
  NoteAccess.CommandLine.Grammar

  The grammar of a command line: a command has options, which are named, and
  positional parameters, the last of which may name a further command.
-/

import NoteAccess.Value

namespace NoteAccess.CommandLine

/-! ## Parameters -/

/-- What becomes of a parameter that is given. -/
inductive Effect where
  /-- The usage is shown. -/
  | usage
  /-- The version is shown. -/
  | version
  /-- Its value becomes true. -/
  | flag
  /-- Its value is read from one argument. -/
  | one
  /-- Its values are read from all arguments that there are, at least one. -/
  | many
  /-- Its argument names a command; what follows belongs to the command. -/
  | command
  deriving DecidableEq, Repr

/-- A parameter of a command. -/
structure Parameter where
  /-- The name of its value. -/
  key : Text
  /-- The names that an option is given by; a positional parameter has none. -/
  names : List Text := []
  /-- What messages call a positional parameter, and the usage any argument. -/
  label : Text := key
  effect : Effect
  /-- The value of an argument, or what is wrong with the argument. -/
  read : Text → Except Text Value := fun t => .ok (.text t)
  /-- The texts that are accepted; all are where none is listed. -/
  choices : List Text := []
  /-- The value of an option that is not given. -/
  default : Value := .null

namespace Parameter

/-- What messages call a parameter. -/
def shown (p : Parameter) : Text :=
  if p.names.isEmpty then p.label else Text.join [CodePoint.slash] p.names

/-- Whether an option takes an argument. -/
def takesArgument (p : Parameter) : Bool := p.effect = .one || p.effect = .many

/-- The option that shows the usage. -/
def help : Parameter := { key := "help", names := ["-h", "--help"], effect := .usage }

/-- Whether a parameter has a value. -/
def hasValue (p : Parameter) : Bool := !(p.effect = .usage || p.effect = .version)

end Parameter

/-! ## Commands -/

/-- A command. -/
structure Command where
  /-- What messages call it. -/
  title : Text
  options : List Parameter := []
  positionals : List Parameter := []
  /-- The commands that its last positional parameter may name. -/
  commands : List (Text × Command) := []

namespace Command

/-- All options of a command. -/
def allOptions (c : Command) : List Parameter := .help :: c.options

/-- The names of options, each with its option. -/
def optionNames (c : Command) : List (Text × Parameter) :=
  c.allOptions.flatMap fun p => p.names.map fun n => (n, p)

/-- The option with a name. -/
def option? (c : Command) (name : Text) : Option Parameter := c.optionNames.lookup name

/-- A parameter in the usage of a command. -/
def usagePart (p : Parameter) : Text :=
  match p.names with
  | [] => if p.effect = .one then p.label else p.label ++ " ..."
  | name :: _ =>
    [CodePoint.openBracket] ++ name ++
      (if p.takesArgument then CodePoint.space :: p.label else []) ++ [CodePoint.closeBracket]

/-- How a command is called. -/
def usage (c : Command) : Text :=
  "usage: " ++ Text.join [CodePoint.space] (c.title :: (c.allOptions ++ c.positionals).map usagePart)

/-- The values of options that are not given. -/
def defaults (c : Command) : List (Value × Value) :=
  (c.allOptions.filter Parameter.hasValue).map fun p => (.text p.key, p.default)

end Command

/-! ## Mistakes -/

/-- What is wrong with the arguments of a parameter. -/
inductive Objection where
  /-- The argument is missing. -/
  | noArgument
  /-- An option that takes no argument has one in its own text. -/
  | notTaken (given : Text)
  /-- The value is not among the choices. -/
  | notChoice (given : Value) (choices : List Text)
  /-- The argument cannot be read. -/
  | unreadable (message : Text)

/-- What is wrong with a command line. -/
inductive Mistake where
  /-- An abbreviation stands for several options. -/
  | ambiguous (given : Text) (names : List Text)
  /-- The arguments of a parameter are wrong. -/
  | argument (p : Parameter) (o : Objection)
  /-- Positional parameters are not given. -/
  | missing (parameters : List Parameter)
  /-- There are arguments that no parameter takes. -/
  | surplus (arguments : List Text)

/-- Why the reading of a command line ends early, at a command. -/
inductive Stop where
  | usage (c : Command)
  | version
  | mistake (c : Command) (m : Mistake)

/-- Texts with a comma between them. -/
def listed (texts : List Text) : Text := Text.join ", " texts

/-- The wording of what is wrong with arguments. -/
def Objection.message : Objection → Text
  | noArgument => "expected one argument"
  | notTaken given => "ignored explicit argument " ++ given.quoted
  | notChoice given choices =>
    "invalid choice: " ++ given.nested ++ " (choose from " ++ listed (choices.map Text.quoted) ++ ")"
  | unreadable message => message

/-- The wording of what is wrong with a command line. -/
def Mistake.message : Mistake → Text
  | ambiguous given names => "ambiguous option: " ++ given ++ " could match " ++ listed names
  | argument p o => "argument " ++ p.shown ++ ": " ++ o.message
  | missing parameters =>
    "the following arguments are required: " ++ listed (parameters.map Parameter.shown)
  | surplus arguments => "unrecognized arguments: " ++ Text.join [CodePoint.space] arguments

namespace Stop

/-- What is printed when reading ends early; `version` is the version of the program. -/
def printed (version : Text) : Stop → Text
  | usage c => c.usage ++ [CodePoint.newline]
  | .version => version ++ [CodePoint.newline]
  | mistake .. => []

/-- What is complained about when reading ends early. -/
def complaint : Stop → Option Text
  | mistake c m => some (c.title ++ ": error: " ++ m.message)
  | _ => none

/-- The exit code when reading ends early. -/
def exitCode : Stop → Nat
  | mistake .. => 2
  | _ => 0

end Stop

end NoteAccess.CommandLine
