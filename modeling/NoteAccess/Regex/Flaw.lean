/-
  NoteAccess.Regex.Flaw

  What can be wrong with a regular expression, and where.
-/

import NoteAccess.Text.Quoted

namespace NoteAccess.Regex

/-- What is wrong with a malformed expression. -/
inductive Flaw where
  /-- A backslash ends the expression. -/
  | escapeAtEnd
  /-- An escape has no meaning. -/
  | badEscape (written : Text)
  /-- An escape has too few digits. -/
  | incompleteEscape (written : Text)
  /-- An octal escape is above the largest byte. -/
  | octalTooLarge (written : Text)
  /-- Something is missing. -/
  | missing (what : Text)
  /-- A name is not closed. -/
  | unterminatedName (terminator : CodePoint)
  | unknownCharacter (name : Text)
  | badGroupName (name : Text)
  | unknownGroup (name : Text)
  | redefinedGroup (name : Text) (now before : Nat)
  /-- A reference goes to a group that is not closed. -/
  | openGroup
  /-- A reference inside a look behind goes to a group of the same look behind. -/
  | groupBehind
  | noGroup (number : Nat)
  | groupZero
  | unterminatedSet
  | badRange (first last : Text)
  | boundsReversed
  | nothingToRepeat
  | multipleRepeat
  | unknownExtension (written : Text)
  | endOfPattern
  | unterminatedComment
  | unterminatedGroup
  | unknownFlag
  /-- A flag is about bytes. -/
  | byteFlag
  /-- Flags choose more than one character set. -/
  | characterSets
  | globalOn
  | globalOff
  | characterSetOff
  | onAndOff
  /-- Flags for the whole expression are not at its beginning. -/
  | lateFlags
  /-- A condition has more than two branches. -/
  | thirdBranch
  | unbalanced
  /-- A look behind has no single length. -/
  | variableBehind
  /-- A template has a loop. -/
  | templateLoop (name : Text)
  deriving DecidableEq, Repr

/-- The wording of what is wrong with an expression. -/
def Flaw.message : Flaw → Text
  | escapeAtEnd => "bad escape (end of pattern)"
  | badEscape written => "bad escape " ++ written
  | incompleteEscape written => "incomplete escape " ++ written
  | octalTooLarge written => "octal escape value " ++ written ++ " outside of range 0-0o377"
  | missing what => "missing " ++ what
  | unterminatedName terminator => "missing " ++ [terminator] ++ ", unterminated name"
  | unknownCharacter name => "undefined character name " ++ name.quoted
  | badGroupName name => "bad character in group name " ++ name.quoted
  | unknownGroup name => "unknown group name " ++ name.quoted
  | redefinedGroup name now before =>
    "redefinition of group name " ++ name.quoted ++ " as group " ++ Text.ofNat now ++ "; was group " ++
      Text.ofNat before
  | openGroup => "cannot refer to an open group"
  | groupBehind => "cannot refer to group defined in the same lookbehind subpattern"
  | noGroup number => "invalid group reference " ++ Text.ofNat number
  | groupZero => "bad group number"
  | unterminatedSet => "unterminated character set"
  | badRange first last => "bad character range " ++ first ++ [CodePoint.minus] ++ last
  | boundsReversed => "min repeat greater than max repeat"
  | nothingToRepeat => "nothing to repeat"
  | multipleRepeat => "multiple repeat"
  | unknownExtension written => "unknown extension ?" ++ written
  | endOfPattern => "unexpected end of pattern"
  | unterminatedComment => "missing ), unterminated comment"
  | unterminatedGroup => "missing ), unterminated subpattern"
  | unknownFlag => "unknown flag"
  | byteFlag => "bad inline flags: cannot use 'L' flag with a str pattern"
  | characterSets => "bad inline flags: flags 'a', 'u' and 'L' are incompatible"
  | globalOn => "bad inline flags: cannot turn on global flag"
  | globalOff => "bad inline flags: cannot turn off global flag"
  | characterSetOff => "bad inline flags: cannot turn off flags 'a', 'u' and 'L'"
  | onAndOff => "bad inline flags: flag turned on and off"
  | lateFlags => "global flags not at the start of the expression"
  | thirdBranch => "conditional backref with more than two branches"
  | unbalanced => "unbalanced parenthesis"
  | variableBehind => "look-behind requires fixed-width pattern"
  | templateLoop name => "internal: unsupported template operator " ++ name

/-- Why an expression cannot be used. -/
inductive Failure where
  /-- The expression is malformed; the place is a number of code points from its beginning. -/
  | malformed (f : Flaw) (place : Option Nat)
  /-- The flags exclude each other, or a numeral is too long to read. -/
  | badValue
  /-- A repetition count is too large. -/
  | tooLarge
  deriving DecidableEq, Repr

/-- Where a place is: also in which line, if the expression has several. -/
def placeText (expression : Text) (place : Nat) : Text :=
  let lines : List Text := Text.pieces CodePoint.newline (expression.take place)
  " at position " ++ Text.ofNat place ++
    if expression.contains CodePoint.newline then
      " (line " ++ Text.ofNat lines.length ++ ", column " ++
        Text.ofNat ((lines.getLast?.getD []).length + 1) ++ ")"
    else []

/-- The wording of why an expression cannot be used. -/
def Failure.message (expression : Text) : Failure → Text
  | malformed f place => f.message ++ ((place.map (placeText expression)).getD [])
  | badValue => "ASCII and UNICODE flags are incompatible"
  | tooLarge => "the repetition number is too large"

end NoteAccess.Regex
