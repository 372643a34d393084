/-
  NoteAccess.Rule.Listing

  The text of a rules file: a rule a line, between blank lines and comments.  A
  line that is no rule is skipped with a warning; a rule whose regular expression
  is malformed is kept with a warning.
-/

import NoteAccess.Rule.Line
import NoteAccess.Run
import NoteAccess.Text.Quoted

namespace NoteAccess

/-- What is wrong with a line of a rules file. -/
inductive Complaint where
  | notRule (e : LineError)
  | malformedRegex
  deriving DecidableEq

/-- The wording of a complaint. -/
def Complaint.message : Complaint → Text
  | notRule e => e.message
  | malformedRegex => "invalid regular expression, rule never matches"

/-- A complaint about a line, which is counted from zero. -/
structure RuleWarning where
  lineNumber : Nat
  complaint : Complaint
  line : Text
  deriving DecidableEq

/-- The text of a warning; the line is counted from one and quoted. -/
def RuleWarning.text (w : RuleWarning) : Text :=
  "line " ++ Text.ofNat (w.lineNumber + 1) ++ ": " ++ w.complaint.message ++ ": " ++ w.line.quoted

/-- The rules of a text, the active ones by kind and all of them with their lines. -/
structure Listing where
  ruleSet : RuleSet
  entries : List RuleEntry
  warnings : List RuleWarning

namespace Listing

/-- The listing without any rule. -/
def empty : Listing := ⟨{}, [], []⟩

/-- Whether a stripped line holds no rule: it is blank or a comment. -/
def isSilent (line : Text) : Bool :=
  line.isEmpty ||
    (line.head? == some CodePoint.hash && !line.startsWith RuleLine.disabledMark)

/-- What a line gives: its rule, if it is one, and a complaint about it. -/
def readLine (raw : Text) (index : Nat) : Run Fault (Option RuleEntry × Option RuleWarning) := do
  let line := raw.strip
  if isSilent line then return (none, none)
  match RuleEntry.ofLine line index with
  | .error e =>
    Run.log .warning "Skipping rules file line" [("line", Text.ofNat (index + 1)), ("reason", e.message)]
    return (none, some ⟨index, .notRule e, line⟩)
  | .ok entry =>
    if entry.rule.isRegex then
      let program ← Run.compile entry.rule.toPattern
      return (some entry, if program.isValid then none else some ⟨index, .malformedRegex, line⟩)
    else return (some entry, none)

/-- The rules of a text. -/
def ofText (content : Text) : Run Fault Listing := do
  let found ← Run.each (fun (line, index) => readLine line index) (content.pieces CodePoint.newline).zipIdx
  let entries := found.filterMap (·.1)
  return { ruleSet := .ofEntries entries, entries, warnings := found.filterMap (·.2) }

/-- The rules file that is written for a new vault. -/
def template : Text :=
  ([
    "# ------------------------------------------------------------------",
    "# VaultGate access rules",
    "# ------------------------------------------------------------------",
    "#",
    "# Format:  MODE  KIND  PATTERN  [METHODS]",
    "#",
    "#   MODE      allow | deny",
    "#   KIND      folder | name | tag | keyword",
    "#   PATTERN   glob pattern (or ~regex with tilde prefix)",
    "#             Quote patterns with spaces: \"00 Workpad/**\"",
    "#             Regex flags: ~pattern/i for case-insensitive",
    "#             Tag AND logic: #tag1+#tag2 (matches only if ALL present)",
    "#   METHODS   optional: comma-separated (GET,PUT,POST,PATCH,DELETE)",
    "#",
    "# Order of evaluation: global tags, folder, name, tag, keyword.",
    "# Within a kind, rules are evaluated top-to-bottom and the first match wins.",
    "# If no rule matches, the default policy from the settings applies.",
    "#",
    "# Disable a rule without deleting it:",
    "#   #!disabled allow folder SomeFolder/**",
    "#",
    "# Examples:",
    "#   allow folder Projects/**",
    "#   deny  folder Private/**",
    "#   allow folder \"00 Workpad/**\"",
    "#   allow name   *.md",
    "#   deny  tag    #secret",
    "#   deny  tag    #draft+#internal",
    "#   deny  keyword password             GET,POST",
    "#   deny  keyword ~password/i",
    "#   allow folder ~^(Projects|Public)/",
    "#",
    "# ------------------------------------------------------------------",
    "",
    "# Add your rules below:",
    ""] : List String).flatMap fun line => Text.ofString line ++ [CodePoint.newline]

end Listing

end NoteAccess
