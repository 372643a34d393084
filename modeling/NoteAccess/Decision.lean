/-
  NoteAccess.Decision

  The outcome of an evaluation, as its cause: every constructor is one way in
  which access is granted or refused, and verdict, wording, kind and pattern
  follow from it.
-/

import NoteAccess.Rule
import NoteAccess.VaultPath

namespace NoteAccess

/-- Why access is granted or refused. -/
inductive Decision where
  /-- Nothing is filtered. -/
  | filteringOff
  /-- The method is unknown. -/
  | methodRefused (r : Setting.Refusal)
  /-- The path may not be evaluated. -/
  | pathRefused (r : VaultPath.Refusal)
  /-- A write while writing is off. -/
  | readOnly
  /-- A global tag is set and the tags cannot be read. -/
  | globalTagsUnread
  /-- The note has the global tag of this verdict. -/
  | globalTag (mode : Mode) (tag : Text)
  /-- There are tag rules and the tags cannot be read. -/
  | tagsUnread
  /-- There are keyword rules and the content cannot be read. -/
  | contentUnread
  /-- The first matching rule of a kind. -/
  | rule (kind : Kind) (r : Rule)
  /-- No rule decides. -/
  | byDefault (mode : Mode)

namespace Decision

/-- The verdict. -/
def allowed : Decision → Bool
  | filteringOff => true
  | globalTag mode _ => mode = .allow
  | rule _ r => r.allows
  | byDefault mode => mode = .allow
  | _ => false

/-- What the rules of a kind look at, as reasons word it. -/
def filterLabel : Kind → Text
  | .folder => "Folder filter"
  | .name => "Document name filter"
  | .tag => "Tag filter"
  | .keyword => "Keyword filter"

/-- What a pattern of a kind is, as reasons word it. -/
def patternLabel : Kind → Text
  | .tag => "tag"
  | _ => "pattern"

/-- The wording of the reason. -/
def reason : Decision → Text
  | filteringOff => "Access filtering disabled"
  | methodRefused r => "Unsupported method: " ++ r.message
  | pathRefused r => "Invalid path: " ++ r.message
  | readOnly => "Read-only mode: write operations are disabled"
  | globalTagsUnread => "Tag metadata unavailable (global tags configured)"
  | globalTag mode tag => "Global " ++ mode.word ++ " tag \"" ++ tag ++ "\" present"
  | tagsUnread => "Tag metadata unavailable (tag rules configured)"
  | contentUnread => "Content unreadable"
  | rule k r =>
    filterLabel k ++ ": " ++ r.mode.word ++ " by " ++ patternLabel k ++ " \"" ++ r.pattern ++ "\""
  | byDefault mode => "Default policy: " ++ mode.word

/-- The kind of rules that the decision belongs to. -/
def kind : Decision → Option Kind
  | globalTagsUnread | globalTag .. | tagsUnread => some .tag
  | contentUnread => some .keyword
  | rule k _ => some k
  | _ => none

/-- The pattern or tag that decided. -/
def pattern : Decision → Option Text
  | globalTag _ tag => some tag
  | rule _ r => some r.pattern
  | _ => none

/-- The rule that decided. -/
def rule? : Decision → Option Rule
  | rule _ r => some r
  | _ => none

/-- Whether the decision holds for a method: that of a rule does within the methods of
    the rule, any other one always. -/
def appliesTo (d : Decision) (m : Option Method) : Bool :=
  match d.rule? with
  | some r => r.appliesTo m
  | none => true

end Decision

end NoteAccess
