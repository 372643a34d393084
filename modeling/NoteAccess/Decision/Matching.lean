/-
  NoteAccess.Decision.Matching

  The first rule of each kind that matches a candidate.

  Rules are tried in order and the first match ends the search.  Tag and keyword
  rules refuse access when tags or content exist but cannot be read; a note that
  does not exist gives them no opinion.
-/

import NoteAccess.Decision
import NoteAccess.Lookup
import NoteAccess.Run

namespace NoteAccess.Matching

/-- The first enabled rule that passes a test. -/
def firstMatch (test : Rule → Run Fault Bool) : List Rule → Run Fault (Option Rule)
  | [] => return none
  | r :: rest =>
    if r.enabled then do
      if ← test r then return some r else firstMatch test rest
    else firstMatch test rest

/-- The decision of the first rule of a kind that passes a test. -/
def byFirst (k : Kind) (test : Rule → Run Fault Bool) (rules : List Rule) :
    Run Fault (Option Decision) := do
  return (← firstMatch test rules).map (.rule k)

/-- The decision of rules about something that has been looked up: none without rules and
    for a missing note, `unread` if it cannot be read, else that of the first rule that
    passes its test. -/
def byLookup {ε α : Type} (k : Kind) (unread : Decision) (test : α → Rule → Run Fault Bool)
    (lookup : Lookup ε α) (rules : List Rule) : Run Fault (Option Decision) :=
  if rules.isEmpty then return none
  else match lookup with
    | .notFound => return none
    | .unavailable _ => return some unread
    | .found a => byFirst k (test a) rules

/-- Whether the pattern of a rule matches a text. -/
def patternMatches [Stack] (r : Rule) (t : Text) : Run Fault Bool := do
  return (← Run.compileHere r.toPattern).matches t

/-! ## Paths and names -/

/-- The first folder rule that matches a path. -/
def byFolder [Stack] (path : Text) : List Rule → Run Fault (Option Decision) :=
  byFirst .folder (patternMatches · path)

/-- The first name rule that matches the last part of a path. -/
def byName [Stack] (path : Text) : List Rule → Run Fault (Option Decision) :=
  byFirst .name (patternMatches · (VaultPath.basename path))

/-! ## Tags -/

/-- The tags that a literal tag pattern asks for: those joined with `+`, in normal form. -/
def requiredTags (pattern : Text) : List Text :=
  ((pattern.pieces CodePoint.plus).map Tag.normalize).filter (! ·.isEmpty)

/-- Whether a tag rule matches a set of tags: a literal pattern needs all tags that it
    asks for, a regular expression any tag that it matches. -/
def tagRuleMatches (tags : List Text) (r : Rule) : Run Fault Bool := do
  if r.isRegex then
    let program ← Run.compile r.toPattern
    return tags.any (program.matches ·)
  else
    let required := requiredTags r.pattern
    return !required.isEmpty && required.all tags.contains

/-- The first tag rule that matches. -/
def byTag : TagLookup → List Rule → Run Fault (Option Decision) :=
  byLookup .tag .tagsUnread tagRuleMatches

/-! ## Content -/

/-- Whether a keyword rule matches a text: a literal pattern occurs in it. -/
def keywordMatches [Stack] (content : Text) (r : Rule) : Run Fault Bool :=
  if r.isRegex then patternMatches r content else return Text.hasPart r.pattern content

/-- The first keyword rule that matches. -/
def byKeyword [Stack] : ContentLookup → List Rule → Run Fault (Option Decision) :=
  byLookup .keyword .contentUnread keywordMatches

/-! ## Global tags -/

/-- The decision of the global tags, an empty one being unset: the refusing tag comes
    first, and tags that cannot be read refuse too. -/
def byGlobalTags (lookup : TagLookup) (allowTag denyTag : Text) : Option Decision :=
  if allowTag.isEmpty && denyTag.isEmpty then none
  else match lookup with
    | .notFound => none
    | .unavailable _ => some .globalTagsUnread
    | .found tags =>
      if !denyTag.isEmpty && tags.contains denyTag then some (.globalTag .deny denyTag)
      else if !allowTag.isEmpty && tags.contains allowTag then some (.globalTag .allow allowTag)
      else none

end NoteAccess.Matching
