/-
  NoteAccess.Note.FrontMatter

  The front matter of a note: the YAML text between a line of three hyphens at
  its very beginning and the next such line.  Blanks may follow the hyphens.

  The body begins after the line that ends the front matter; a note without
  front matter is all body.
-/

import NoteAccess.Yaml.Loader

namespace NoteAccess.FrontMatter

/-! ## Where it ends -/

/-- The hyphens of a line that encloses front matter. -/
def fence : Text := "---"

/-- A space or a tab. -/
def isSpacing (c : CodePoint) : Bool := c == CodePoint.space || c == CodePoint.tab

/-- What follows a line feed, with or without a carriage return before it. -/
def afterLineEnd? : Text → Option Text
  | CodePoint.newline :: rest => some rest
  | CodePoint.carriageReturn :: CodePoint.newline :: rest => some rest
  | _ => none

/-- What follows the line of the opening fence. -/
def afterOpening? (note : Text) : Option Text := do
  let rest ← Text.dropLead? fence note
  afterLineEnd? (rest.dropWhile isSpacing)

/-- What follows the closing fence, when a line ends here and the next one is that fence. -/
def afterClosing? (t : Text) : Option Text := do
  let rest ← afterLineEnd? t
  let rest ← Text.dropLead? fence rest
  match rest.dropWhile isSpacing with
  | [] => some []
  | rest => afterLineEnd? rest

/-- The text up to the first closing fence and the text after it; `seen` is the text
    before, in reverse. -/
def cutClosing? (seen : Text) : Text → Option (Text × Text)
  | [] => none
  | c :: rest =>
    match afterClosing? (c :: rest) with
    | some body => some (seen.reverse, body)
    | none => cutClosing? (c :: seen) rest

/-- The YAML text and the body of a note, if it has front matter. -/
def cut? (note : Text) : Option (Text × Text) := (afterOpening? note).bind (cutClosing? [])

/-! ## What it holds -/

open Yaml (Loader)

/-- The entries of front matter. -/
abbrev Entries [Loader] := List (Loader.Datum × Loader.Datum)

/-- What stands for a tag: a word of a text, or a value. -/
abbrev RawTag [Loader] := Text ⊕ Loader.Datum

variable [Loader]

/-- The entries of the front matter and the body of a note; front matter that is no
    mapping has no entries. -/
def split (note : Text) : Except Yaml.Failure (Entries × Text) :=
  match cut? note with
  | none => .ok ([], note)
  | some (block, body) => do
    match Layered.layer (← Loader.note block) with
    | .dict entries => return (entries, body)
    | _ => return ([], body)

/-- Whether a key is this text. -/
def isKey (name : Text) (key : Loader.Datum) : Bool :=
  match Layered.layer key with
  | .text t => t == name
  | _ => false

/-- What is at a text key. -/
def field? (name : Text) (entries : Entries) : Option Loader.Datum :=
  (entries.find? fun (key, _) => isKey name key).map (·.2)

/-- What a tag entry gives: the parts of a text between commas and blanks, the items of a
    collection, or the value itself. -/
def tagValues (v : Loader.Datum) : List RawTag :=
  match Layered.layer v with
  | .null => []
  | .text t => (t.fields fun c => c == CodePoint.comma || c.isBlank).map .inl
  | .list items | .tuple items | .set items => items.map .inr
  | _ => [.inr v]

/-- The text of a tag, empty where there is null. -/
def tagText [Stack] : RawTag → Except Fault Text
  | .inl t => .ok t
  | .inr v =>
    match Layered.layer v with
    | .null => .ok []
    | _ => Layered.written v

/-- What stands for tags in entries, under `tags` or else under `tag`. -/
def rawTags (entries : Entries) : List RawTag :=
  (((field? "tags" entries).orElse fun _ => field? "tag" entries).map tagValues).getD []

/-- The raw tags that entries declare. -/
def tags [Stack] (entries : Entries) : Except Fault (List Text) := do
  let texts ← (rawTags entries).mapM tagText
  return (texts.map Text.strip).filter (! ·.isEmpty)

end NoteAccess.FrontMatter
