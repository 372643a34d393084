/-
  NoteAccess.Rule

  Access rules.  A rule gives a verdict on the candidates that its pattern
  matches, perhaps for some methods only.  Rules of four kinds look at different
  things: the path, the name, the tags and the content of a note.
-/

import NoteAccess.Setting
import NoteAccess.Pattern

namespace NoteAccess

/-- What the pattern of a rule is compared with, in the order of evaluation. -/
inductive Kind where
  /-- The path inside the vault. -/
  | folder
  /-- The last part of the path. -/
  | name
  /-- The tags of the note. -/
  | tag
  /-- The text of the note. -/
  | keyword
  deriving DecidableEq, Repr

namespace Kind

/-- The kinds in the order of evaluation. -/
def all : List Kind := [folder, name, tag, keyword]

/-- The word for a kind. -/
def word : Kind → Text
  | folder => "folder"
  | name => "name"
  | tag => "tag"
  | keyword => "keyword"

/-- The kind with exactly this word. -/
def ofWord? (t : Text) : Option Kind := all.find? (·.word == t)

end Kind

/-- An access rule. -/
structure Rule where
  mode : Mode
  pattern : Text
  isRegex : Bool := false
  /-- The letters after a regular expression. -/
  flags : Option Text := none
  /-- The methods that the rule is restricted to. -/
  methods : Option (List Method) := none
  enabled : Bool := true
  /-- The line of the rules file, counted from zero; it plays no part in matching. -/
  sourceLine : Int := -1
  deriving DecidableEq

namespace Rule

/-- The rule with repeated methods and empty lists dropped. -/
def tidy (r : Rule) : Rule :=
  { r with
    flags := r.flags.filter (! ·.isEmpty)
    methods := (r.methods.map List.eraseDups).filter (! ·.isEmpty) }

/-- Whether a match grants access. -/
def allows (r : Rule) : Bool := r.mode = .allow

/-- Whether the rule speaks about a method; without a method it always does. -/
def appliesTo (r : Rule) : Option Method → Bool
  | none => true
  | some m =>
    match r.methods with
    | none => true
    | some ms => ms.isEmpty || ms.contains m

/-- The pattern of the rule as paths, tags and content are matched with it. -/
def toPattern (r : Rule) : Pattern := .make r.isRegex r.pattern r.flags

/-- The rule apart from its place in a file. -/
def unplaced (r : Rule) : Rule := { r with sourceLine := -1 }

end Rule

/-- A rule with its kind and its line, counted from zero. -/
structure RuleEntry where
  kind : Kind
  lineNumber : Int
  rule : Rule
  deriving DecidableEq

/-- The active rules by kind, in the order of the file. -/
structure RuleSet where
  folder : List Rule := []
  name : List Rule := []
  tag : List Rule := []
  keyword : List Rule := []
  deriving DecidableEq

namespace RuleSet

/-- The rules of one kind. -/
def ofKind (s : RuleSet) : Kind → List Rule
  | .folder => s.folder
  | .name => s.name
  | .tag => s.tag
  | .keyword => s.keyword

/-- The enabled rules of one kind among entries. -/
def select (entries : List RuleEntry) (k : Kind) : List Rule :=
  (entries.filter fun e => e.kind = k && e.rule.enabled).map RuleEntry.rule

/-- The active rules of entries. -/
def ofEntries (entries : List RuleEntry) : RuleSet where
  folder := select entries .folder
  name := select entries .name
  tag := select entries .tag
  keyword := select entries .keyword

/-- The number of active rules. -/
def size (s : RuleSet) : Nat := s.folder.length + s.name.length + s.tag.length + s.keyword.length

/-- The rules of a kind are the enabled entries of that kind, in order. -/
theorem ofKind_ofEntries (entries : List RuleEntry) (k : Kind) :
    (ofEntries entries).ofKind k = select entries k := by
  cases k <;> rfl

end RuleSet

end NoteAccess
