/-
  NoteAccess.Fault

  Failures that no rule of the library words: a value of a kind that lacks the
  operation asked of it, a file that cannot be opened, bytes that are no text.
  Each has a kind name, which log lines give.
-/

import NoteAccess.Text

namespace NoteAccess

/-- A failure known only by its kind. -/
inductive Fault where
  /-- A value lacks the operation asked of it. -/
  | lacksOperation
  /-- An operation does not take a value of this kind. -/
  | wrongKind
  /-- A value of the right kind is out of the operation's domain. -/
  | badValue
  /-- A number is too large for the operation. -/
  | tooLarge
  /-- A name is not among those known. -/
  | unknownName
  /-- A place is outside a sequence. -/
  | outOfBounds
  /-- The file system refuses. -/
  | fileSystem
  /-- A file is a folder. -/
  | isFolder
  /-- A path component is not a folder. -/
  | notFolder
  /-- A file or folder is missing. -/
  | missing
  /-- A file exists already. -/
  | alreadyThere
  /-- Bytes are not text of the expected encoding. -/
  | undecodable
  /-- A text cannot be written in the expected encoding. -/
  | unencodable
  /-- Symbolic links form a loop. -/
  | linkLoop
  /-- A path means no place, since symbolic links in it form a loop. -/
  | endlessPath
  /-- There is no home folder of that name. -/
  | noHome
  /-- An operation is nested too deeply. -/
  | tooDeep
  deriving DecidableEq, Repr

/-- Whether it is a failure of the file system. -/
def Fault.isSystem : Fault → Bool
  | fileSystem | isFolder | notFolder | missing | alreadyThere | linkLoop => true
  | _ => false

/-- The name of the kind of failure. -/
def Fault.kindName : Fault → Text
  | lacksOperation => "AttributeError"
  | wrongKind => "TypeError"
  | badValue => "ValueError"
  | tooLarge => "OverflowError"
  | unknownName => "KeyError"
  | outOfBounds => "IndexError"
  | fileSystem => "OSError"
  | isFolder => "IsADirectoryError"
  | notFolder => "NotADirectoryError"
  | missing => "FileNotFoundError"
  | alreadyThere => "FileExistsError"
  | undecodable => "UnicodeDecodeError"
  | unencodable => "UnicodeEncodeError"
  | linkLoop => "OSError"
  | endlessPath => "RuntimeError"
  | noHome => "RuntimeError"
  | tooDeep => "RecursionError"

/-- What kind of mistake a reported failure is. -/
inductive FailureCode where
  | invalidInput
  | notFound
  | internalError
  deriving DecidableEq, Repr

/-- The name of a code. -/
def FailureCode.name : FailureCode → Text
  | invalidInput => "INVALID_INPUT"
  | notFound => "NOT_FOUND"
  | internalError => "INTERNAL_ERROR"

/-- A failure as log lines tell of it. -/
structure Incident where
  /-- The name of its kind. -/
  kind : Text
  message : Text
  /-- What the message goes on with. -/
  cause : Text := []
  deriving DecidableEq

/-- The incident of a failure with its message. -/
def Incident.ofFault (f : Fault) (message : Text) : Incident := { kind := f.kindName, message }

end NoteAccess
