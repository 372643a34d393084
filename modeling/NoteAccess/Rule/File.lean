/-
  NoteAccess.Rule.File

  The rules file: reading it, and changing one of its lines.

  A change reads the whole file and writes it back with line feeds; all other
  lines stay as they are.
-/

import NoteAccess.FileTree
import NoteAccess.Rule.Listing
import NoteAccess.Text.Encoding

namespace NoteAccess.RulesFile

/-! ## Changes of lines -/

/-- The lines with one more at the end; a blank last line gives way to it. -/
def appendLine (line : Text) (lines : List Text) : List Text :=
  match lines.getLast? with
  | some last => (if last.strip.isEmpty then lines.dropLast else lines) ++ [line, []]
  | none => [line, []]

/-- The lines without the one at a place; a place that there is not has no effect. -/
def removeLine (place : Int) (lines : List Text) : List Text :=
  if place < 0 then lines else lines.eraseIdx place.toNat

/-- A line with its rule enabled or disabled; what is no rule stays as it is. -/
def toggled (enabled : Bool) (line : Text) : Text :=
  let stripped := line.strip
  if enabled then (Text.dropLead? RuleLine.disabledMark stripped).getD line
  else if stripped.isEmpty || stripped.head? == some CodePoint.hash then line
  else RuleLine.disabledMark ++ stripped

/-- The lines with the rule at a place enabled or disabled. -/
def toggleLine (place : Int) (enabled : Bool) (lines : List Text) : List Text :=
  if place < 0 then lines else lines.modify place.toNat (toggled enabled)

/-! ## Failures -/

/-- The size above which a rules file is not read. -/
def maxSize : Nat := 1024 * 1024

/-- Why a rules file cannot be used. -/
inductive Error where
  | tooLarge (size : Nat) (path : Text)
  | undecodable (path : Text)
  | unreadable (path cause : Text)
  | unwritable (path cause : Text)
  /-- A failure that is not about the file. -/
  | fault (f : Fault) (message : Text)

namespace Error

/-- The wording of a rules file that cannot be used, without the cause. -/
def message : Error → Text
  | tooLarge size path =>
    "Rules file exceeds size limit (" ++ Text.ofNat size ++ " > " ++ Text.ofNat maxSize ++ "): " ++ path
  | undecodable path => "Failed to read rules file (encoding error): " ++ path
  | unreadable path _ => "Failed to read rules file: " ++ path
  | unwritable path _ => "Failed to update rules file: " ++ path
  | fault _ m => m

/-- What the wording goes on with. -/
def cause : Error → Text
  | unreadable _ cause | unwritable _ cause => ": " ++ cause
  | _ => []

/-- What kind of mistake it is, if it is about the file. -/
def code? : Error → Option FailureCode
  | tooLarge .. | undecodable _ => some .invalidInput
  | unreadable .. | unwritable .. => some .internalError
  | fault .. => none

/-- The name of its kind. -/
def kindName : Error → Text
  | fault f _ => f.kindName
  | _ => "RulesFileError"

/-- The error as an incident. -/
def incident (e : Error) : Incident := ⟨e.kindName, e.message, e.cause⟩

/-- A failure of the file system as it is. -/
def system (f : Fault) (path : FilePath) : Error := .fault f (FileTree.incident f path.segments).message

end Error

/-! ## Reading -/

/-- The text of a rules file, if there is one. -/
def readText (t : FileTree) (path : FilePath) : Except Error (Option Text) := do
  if !(← (t.exists? path.segments).mapError (.system · path)) then return none
  let content ← (t.read path.segments).mapError fun f =>
    .unreadable path.text (FileTree.incident f path.segments).message
  if maxSize < content.size then throw (.tooLarge content.size path.text)
  some <$> (Encoding.utf8.readText content.toBytes).mapError fun _ => .undecodable path.text

/-- The rules of a rules file, if there is one. -/
def load (t : FileTree) (path : FilePath) : Run Error (Option Listing) := do
  match ← Run.ofExcept (readText t path) with
  | none => return none
  | some text =>
    let l ← (Listing.ofText text).mapError fun f => .fault f (Pattern.incident f).message
    Run.log .info "Loaded rules file"
      [("file", path.text), ("active", Text.ofNat l.ruleSet.size), ("total", Text.ofNat l.entries.length),
        ("warnings", Text.ofNat l.warnings.length)]
    return some l

/-! ## Changing -/

/-- The text of a file to be changed; empty if there is none. -/
def textToChange (t : FileTree) (path : FilePath) : Except Error Text := do
  let system (f : Fault) : Error := .unwritable path.text (FileTree.incident f path.segments).message
  if ← (t.exists? path.segments).mapError system then
    (Encoding.utf8.readText (← (t.read path.segments).mapError system).toBytes).mapError
      (.fault .undecodable)
  else return []

/-- The tree with the lines of a file changed.  A text that has no encoding leaves the
    file empty. -/
def change (f : List Text → List Text) (t : FileTree) (path : FilePath) : FileTree × Except Error Unit :=
  match textToChange t path with
  | .error e => (t, .error e)
  | .ok text =>
    let text := Text.join [CodePoint.newline] (f (text.pieces CodePoint.newline))
    let bytes := Utf8.encode? text
    match t.write path.segments (bytes.getD []) with
    | .error .badValue => (t, .error (.fault .badValue "embedded null byte"))
    | .error .unencodable => (t, .error (.fault .unencodable (Utf8.unencodableMessage path.text)))
    | .error e => (t, .error (.unwritable path.text (FileTree.incident e path.segments).message))
    | .ok t =>
      (t, if bytes.isSome then .ok () else .error (.fault .unencodable (Utf8.unencodableMessage text)))

/-- The tree with a rule added at the end of a file. -/
def append (t : FileTree) (path : FilePath) (kindWord : Text) (r : Rule) : FileTree × Except Error Unit :=
  change (appendLine (r.writeAs kindWord)) t path

/-- The tree with a line of a file removed. -/
def remove (t : FileTree) (path : FilePath) (place : Int) : FileTree × Except Error Unit :=
  change (removeLine place) t path

/-- The tree with the rule on a line of a file enabled or disabled. -/
def toggle (t : FileTree) (path : FilePath) (place : Int) (enabled : Bool) : FileTree × Except Error Unit :=
  change (toggleLine place enabled) t path

end NoteAccess.RulesFile
