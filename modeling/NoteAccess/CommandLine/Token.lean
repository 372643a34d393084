/-
  NoteAccess.CommandLine.Token

  The words of a command line, each with what it is.  After `--` all words are
  arguments.  Before it a word that begins with a hyphen is an option, unless it
  is a negative number or has a space in it; an option may have its argument in
  the same word, and a long name may be cut short where no other name begins so.
-/

import NoteAccess.CommandLine.Grammar
import NoteAccess.Text.Word

namespace NoteAccess.CommandLine

/-- An option as it is given: by which of its names, and with which argument in the same
    word. -/
structure Mention where
  option : Parameter
  name : Text
  attached : Option Text

/-- What a word is. -/
inductive Mark where
  /-- The first `--`. -/
  | separator
  | argument
  | option (m : Mention)
  /-- An option that the command does not have. -/
  | unknown

/-- A word of a command line. -/
structure Token where
  text : Text
  mark : Mark

namespace Token

/-- Whether the word is an option. -/
def isOption (t : Token) : Bool :=
  match t.mark with
  | .option _ | .unknown => true
  | _ => false

/-- Whether the word is an argument. -/
def isArgument (t : Token) : Bool :=
  match t.mark with
  | .argument => true
  | _ => false

/-- Whether the word is the separator. -/
def isSeparator (t : Token) : Bool :=
  match t.mark with
  | .separator => true
  | _ => false

/-- An argument. -/
def ofArgument (t : Text) : Token := ⟨t, .argument⟩

end Token

/-- The word after which all words are arguments. -/
def separator : Text := "--"

/-- Whether a word is a negative number in plain digits. -/
def isNegativeNumber (word : Text) : Bool :=
  match word with
  | CodePoint.minus :: rest =>
    let rest := if rest.getLast? == some CodePoint.newline then rest.dropLast else rest
    let fraction := (rest.dropWhile CodePoint.isDigit)
    match fraction with
    | [] => !rest.isEmpty
    | CodePoint.dot :: digits => !digits.isEmpty && digits.all CodePoint.isDigit
    | _ => false
  | _ => false

/-- Whether a word begins with two hyphens. -/
def isLong (word : Text) : Bool := word.startsWith separator

namespace Command

/-- The options that a word may stand for: a long word those whose name begins so, a short
    one also the one whose name it begins with. -/
def candidates (c : Command) (word : Text) : List Mention :=
  if isLong word then
    let (lead, attached) := match Text.cut? CodePoint.equals word with
      | some (lead, rest) => (lead, some rest)
      | none => (word, none)
    c.optionNames.filterMap fun (n, p) => if Text.startsWith n lead then some ⟨p, n, attached⟩ else none
  else
    c.optionNames.filterMap fun (n, p) =>
      if n == word.take 2 then some ⟨p, n, some (word.drop 2)⟩
      else if Text.startsWith n word then some ⟨p, n, none⟩ else none

/-- The option that a word gives by its full name. -/
def mention? (c : Command) (word : Text) : Option Mention :=
  match c.option? word with
  | some p => some ⟨p, word, none⟩
  | none => do
    let (name, rest) ← Text.cut? CodePoint.equals word
    return ⟨← c.option? name, name, some rest⟩

/-- What a word before the separator is. -/
def mark (c : Command) (word : Text) : Except Mistake Mark :=
  if word.head? != some CodePoint.minus || word.length = 1 then .ok .argument
  else match c.mention? word with
    | some m => .ok (.option m)
    | none =>
      match c.candidates word with
      | [m] => .ok (.option m)
      | [] => .ok (if isNegativeNumber word || word.contains CodePoint.space then .argument else .unknown)
      | ms => .error (.ambiguous word (ms.map Mention.name))

/-- The words of a command line, each with what it is. -/
def tokens (c : Command) : List Text → Except Mistake (List Token)
  | [] => .ok []
  | word :: rest =>
    if word == separator then .ok (⟨word, .separator⟩ :: rest.map .ofArgument)
    else do
      let mark ← c.mark word
      return ⟨word, mark⟩ :: (← tokens c rest)

end Command

end NoteAccess.CommandLine
