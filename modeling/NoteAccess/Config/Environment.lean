/-
  NoteAccess.Config.Environment

  Configuration in the variables of the environment.  The name of a variable,
  after a mark and in small letters, is a path of names between double
  underscores; a path with an empty name, or one that leads through a value that
  is no mapping, is passed over.
-/

import NoteAccess.Config
import NoteAccess.Text.Letters

namespace NoteAccess.Environment

/-- What the names of variables begin with. -/
def mark : Text := "VAULTGATE_"

/-- What stands between the names of a path. -/
def separator : Text := "__"

/-- The value of a variable: a truth value, a number or a text. -/
def valueOf (t : Text) : Value :=
  let word := t.lower
  if word == "true" || word == "yes" then .bool true
  else if word == "false" || word == "no" then .bool false
  else match Decimal.readInt? t with
    | some i => .int i
    | none => match Decimal.readFloat? t with
      | some x => .float x
      | none => .text t

/-- The path of names that the name of a variable stands for. -/
def pathOf? (name : Text) : Option (List Text) := do
  let rest ← Text.dropLead? mark name
  let path := Text.splitOnText separator rest.lower
  if path.any List.isEmpty then none else some path

/-- The entries with those of one more variable. -/
def add (entries : Value.Mapping) (entry : Text × Text) : Value.Mapping :=
  match pathOf? entry.1 with
  | none => entries
  | some path => (Value.write entries path (valueOf entry.2)).1

/-- The settings that variables hold. -/
def settings (environment : List (Text × Text)) : Value.Mapping := environment.foldl add []

end NoteAccess.Environment

namespace NoteAccess.Config

/-- The configuration with the settings that variables hold, if there are any. -/
def loadEnvironment {κ : Type} (c : Config κ) (environment : List (Text × Text)) : Config κ :=
  let entries := Environment.settings environment
  if entries.isEmpty then c
  else c.setLevel .environment (some [(.text Setting.rootKey, .dict entries)])

end NoteAccess.Config
