/-
  NoteAccess.CommandLine.Arguments

  The commands of the program: what may be asked for on its command line, and what
  a command line that could be read asks for.
-/

import NoteAccess.CommandLine.Reading
import NoteAccess.Rule

namespace NoteAccess.CommandLine

/-! ## Reading of arguments -/

/-- The names of methods, in any case and with blanks around them. -/
def readMethod (t : Text) : Except Text Value :=
  match Method.ofWord? t.strip with
  | some m => .ok (.text m.name)
  | none => .error ("invalid method: " ++ t ++ " (choose from " ++ listed (Method.all.map Method.name) ++ ")")

/-- The numbers of lines, of which the first is one. -/
def readLineNumber (t : Text) : Except Text Value :=
  match Decimal.readInt? t with
  | none => .error ("invalid line number: " ++ t)
  | some i => if i < 1 then .error ("line numbers start at 1: " ++ t) else .ok (.int i)

/-- A number of seconds. -/
def readSeconds (t : Text) : Except Text Value :=
  match Decimal.readFloat? t with
  | some x => .ok (.float x)
  | none => .error ("invalid float value: " ++ t.quoted)

/-! ## Parameters -/

/-- An option with an argument that is kept as it is. -/
def textOption (key : Text) (names : List Text) (label : Text) : Parameter :=
  { key, names, label, effect := .one }

/-- An option without an argument. -/
def flagOption (key name : Text) : Parameter :=
  { key, names := [name], effect := .flag, default := .bool false }

/-- The option that gives the method. -/
def methodOption : Parameter :=
  { key := "method", names := ["-m", "--method"], label := "METHOD", effect := .one, read := readMethod
    default := .text Method.get.name }

/-- A positional parameter that is one of some words. -/
def wordParameter (key : Text) (choices : List Text) : Parameter := { key, effect := .one, choices }

/-- The positional parameter that gives a line. -/
def lineParameter : Parameter := { key := "line", label := "LINE", effect := .one, read := readLineNumber }

/-- The positional parameter that names a command. -/
def selector (key label : Text) (commands : List (Text × Command)) : Parameter :=
  { key, label, effect := .command, choices := commands.map (·.1) }

/-! ## Commands -/

/-- The name of the program. -/
def programName : Text := "vaultgate"

/-- The version of the program. -/
def programVersion : Text := "1.0.0"

/-- The line that shows the version. -/
def versionLine : Text := programName ++ [CodePoint.space] ++ programVersion

/-- Polling takes place once in this number of seconds. -/
def defaultInterval : Float := 1.0

/-- The title of a command below another one. -/
def titleOf (outer : Text) (name : Text) : Text := outer ++ [CodePoint.space] ++ name

/-- A command below another one, with its name. -/
def below (outer : Text) (name : Text) (options positionals : List Parameter) : Text × Command :=
  (name, { title := titleOf outer name, options, positionals })

/-- The title of the commands on rules. -/
def rulesTitle : Text := titleOf programName "rules"

/-- The commands on rules. -/
def rulesCommands : List (Text × Command) := [
  below rulesTitle "list" [] [],
  below rulesTitle "lint" [] [],
  below rulesTitle "add" [textOption "methods" ["--methods"] "METHODS", flagOption "disabled" "--disabled"]
    [wordParameter "mode" [Mode.allow.word, Mode.deny.word], wordParameter "kind" (Kind.all.map Kind.word),
      { key := "pattern", effect := .one }],
  below rulesTitle "remove" [] [lineParameter],
  below rulesTitle "enable" [] [lineParameter],
  below rulesTitle "disable" [] [lineParameter]]

/-- The commands of the program. -/
def programCommands : List (Text × Command) := [
  below programName "check" [methodOption] [{ key := "paths", label := "PATH", effect := .many }],
  below programName "filter" [methodOption, flagOption "all" "--all"] [],
  below programName "init" [flagOption "force" "--force"] [],
  ("rules", {
    title := rulesTitle
    positionals := [selector "rules_command" "ACTION" rulesCommands]
    commands := rulesCommands }),
  below programName "watch"
    [{ key := "interval", names := ["--interval"], label := "SECONDS", effect := .one, read := readSeconds
       default := .float defaultInterval }] []]

/-- The program. -/
def program : Command where
  title := programName
  options := [
    { key := "version", names := ["-v", "--version"], effect := .version },
    textOption "config" ["-c", "--config"] "FILE",
    textOption "vault" ["--vault"] "DIR",
    textOption "rules" ["--rules"] "FILE",
    flagOption "debug" "--debug",
    textOption "log_file" ["--log-file"] "FILE"]
  positionals := [selector "command" "COMMAND" programCommands]
  commands := programCommands

/-! ## What is asked for -/

/-- What is to be done with the rules file. -/
inductive RulesJob where
  | list
  | lint
  /-- The kind is empty where a separator was all that was given. -/
  | add (mode kind pattern methods : Text) (disabled : Bool)
  | remove (line : Int)
  | enable (line : Int)
  | disable (line : Int)
  deriving DecidableEq

/-- What is to be done.  A method is as it is written, and an interval is a value as it was
    read; both are an empty list where a separator is all that was given. -/
inductive Job where
  | check (paths : List Text) (method : Option Text)
  | filter (method : Option Text) (all : Bool)
  | init (force : Bool)
  | rules (job : RulesJob)
  | watch (interval : Value)

/-- What a command line asks for. -/
structure Arguments where
  config : Option Text := none
  vault : Option Text := none
  rules : Option Text := none
  debug : Bool := false
  logFile : Option Text := none
  job : Job

namespace Arguments

/-- A text among values, unless it is empty. -/
def text? (vs : List (Value × Value)) (key : Text) : Option Text :=
  match Value.field? key vs with
  | some (.text t) => if t.isEmpty then none else some t
  | _ => none

/-- A text among values; empty if there is none. -/
def textAt (vs : List (Value × Value)) (key : Text) : Text := (text? vs key).getD []

/-- Whether a value is true. -/
def isSet (vs : List (Value × Value)) (key : Text) : Bool := ((Value.field? key vs).map Value.isTruthy).getD false

/-- A whole number among values. -/
def number (vs : List (Value × Value)) (key : Text) : Int :=
  match Value.field? key vs with
  | some (.int i) => i
  | _ => 0

/-- The texts of a list among values. -/
def texts (vs : List (Value × Value)) (key : Text) : List Text :=
  match Value.field? key vs with
  | some (.list items) => items.map Value.toText
  | _ => []

/-- What is to be done with the rules file. -/
def rulesJob (vs : List (Value × Value)) : RulesJob :=
  let word := textAt vs "rules_command"
  if word == "lint" then .lint
  else if word == "add" then
    .add (textAt vs "mode") (textAt vs "kind") (textAt vs "pattern") (textAt vs "methods") (isSet vs "disabled")
  else if word == "remove" then .remove (number vs "line")
  else if word == "enable" then .enable (number vs "line")
  else if word == "disable" then .disable (number vs "line")
  else .list

/-- What is to be done. -/
def jobOf (vs : List (Value × Value)) : Job :=
  let word := textAt vs "command"
  let method := ((Value.field? "method" vs).filter (!·.isNull)).map Value.toText
  if word == "check" then .check (texts vs "paths") method
  else if word == "filter" then .filter method (isSet vs "all")
  else if word == "init" then .init (isSet vs "force")
  else if word == "watch" then .watch ((Value.field? "interval" vs).getD .null)
  else .rules (rulesJob vs)

/-- What the values of a command line ask for. -/
def ofValues (vs : List (Value × Value)) : Arguments where
  config := text? vs "config"
  vault := text? vs "vault"
  rules := text? vs "rules"
  debug := isSet vs "debug"
  logFile := text? vs "log_file"
  job := jobOf vs

/-- What a command line asks for. -/
def read (words : List Text) : Except Stop Arguments := (program.readAll words).map ofValues

end Arguments

end NoteAccess.CommandLine
