/-
  NoteAccess.Rule.Line

  The line of a rule: verdict, kind, pattern and perhaps methods, with a mark in
  front when the rule is disabled.  `RuleEntry.ofLine` reads a line and
  `Rule.write` writes one.

  A pattern with blanks is written between quotation marks, in which a backslash
  and a quotation mark follow a backslash; a regular expression follows a tilde,
  and its flag letters follow a slash at its end.
-/

import NoteAccess.Rule

namespace NoteAccess

/-- Why a line is not a rule. -/
inductive LineError where
  | tooFewFields
  | openQuote
  | emptyPattern
  | unknownMode (word : Text)
  | unknownKind (word : Text)
  deriving DecidableEq

/-- The wording of a line that is not a rule. -/
def LineError.message : LineError → Text
  | tooFewFields => "expected at least 3 fields"
  | openQuote => "unterminated quoted pattern"
  | emptyPattern => "empty pattern"
  | unknownMode w => "invalid mode \"" ++ w ++ "\" (expected allow|deny)"
  | unknownKind w => "invalid type \"" ++ w ++ "\" (expected folder|name|tag|keyword)"

namespace RuleLine

/-- The mark in front of a disabled rule. -/
def disabledMark : Text := "#!disabled "

/-- The letters that may follow a regular expression. -/
def flagLetters : Text := "gimsuy"

/-- What stands between the fields of a written line. -/
def fieldGap : Text := "  "

/-! ## Fields -/

/-- A word and what follows it, if blanks follow it. -/
def wordThenBlank? (t : Text) : Option (Text × Text) :=
  let word := t.takeWhile (!CodePoint.isBlank ·)
  let rest := t.dropWhile (!CodePoint.isBlank ·)
  if word.isEmpty || rest.isEmpty then none else some (word, Text.stripLeft rest)

/-- The first two words of a line and the rest, if blanks follow both words. -/
def leadingFields? (t : Text) : Option (Text × Text × Text) := do
  let (mode, rest) ← wordThenBlank? t
  let (kind, rest) ← wordThenBlank? rest
  return (mode, kind, rest)

/-- The text up to the closing quotation mark, and what follows the mark. -/
def closeQuote? : Text → Option (Text × Text)
  | [] => none
  | [c] => if c = CodePoint.quote then some ([], []) else none
  | c :: d :: rest =>
    if c = CodePoint.backslash && (d = CodePoint.quote || d = CodePoint.backslash) then
      (closeQuote? rest).map fun (t, after) => (d :: t, after)
    else if c = CodePoint.quote then some ([], d :: rest)
    else (closeQuote? (d :: rest)).map fun (t, after) => (c :: t, after)

/-- The pattern and the methods at the end of a line. -/
def splitPattern (t : Text) : Except LineError (Text × Text) :=
  match t with
  | [] => .ok ([], [])
  | c :: rest =>
    if c = CodePoint.quote then
      match closeQuote? rest with
      | some (pattern, after) => .ok (pattern, after.strip)
      | none => .error .openQuote
    else
      let t := Text.stripLeft (c :: rest)
      .ok (t.takeWhile (!CodePoint.isBlank ·), Text.strip (t.dropWhile (!CodePoint.isBlank ·)))

/-- The known methods in a list that commas and blanks separate. -/
def methodsOf (t : Text) : List Method :=
  (t.fields fun c => c == CodePoint.comma || c.isBlank).filterMap Method.ofWord?

/-- The expression and the flag letters after its last slash, if there are any; a line
    feed at the end does not count. -/
def splitFlags? : Text → Option (Text × Text)
  | [] => none
  | c :: rest =>
    let letters := rest.takeWhile flagLetters.contains
    let after := rest.dropWhile flagLetters.contains
    if c = CodePoint.slash && !letters.isEmpty && (after.isEmpty || after == [CodePoint.newline]) then
      some ([], letters)
    else (splitFlags? rest).map fun (t, flags) => (c :: t, flags)

end RuleLine

open RuleLine

/-- The rule of textual fields: a leading tilde of the pattern marks a regular expression. -/
def RuleEntry.ofFields (mode kind pattern methods : Text) (enabled : Bool) (lineNumber : Int) :
    Except LineError RuleEntry := do
  if pattern.isEmpty then throw .emptyPattern
  let some m := Mode.ofWord? mode.lower | throw (.unknownMode mode)
  let some k := Kind.ofWord? kind.lower | throw (.unknownKind kind)
  let methods : Option (List Method) := if methods.isEmpty then none else some (methodsOf methods)
  let build (isRegex : Bool) (pattern : Text) (flags : Option Text) : RuleEntry :=
    { kind := k
      lineNumber
      rule := Rule.tidy { mode := m, pattern, isRegex, flags, methods, enabled, sourceLine := lineNumber } }
  match pattern with
  | CodePoint.tilde :: body =>
    let (body, flags) := match splitFlags? body with
      | some (body, flags) => (body, some flags)
      | none => (body, none)
    if body.isEmpty then throw .emptyPattern
    return build true body flags
  | pattern => return build false pattern none

/-- The rule of a line, whose blanks at the ends have been dropped. -/
def RuleEntry.ofLine (line : Text) (lineNumber : Int) : Except LineError RuleEntry := do
  let (enabled, content) := match Text.dropLead? disabledMark line with
    | some rest => (false, rest.strip)
    | none => (true, line)
  let some (mode, kind, rest) := leadingFields? content | throw .tooFewFields
  let (pattern, methods) ← splitPattern rest.strip
  RuleEntry.ofFields mode kind pattern methods enabled lineNumber

/-! ## Writing -/

namespace RuleLine

/-- A text between quotation marks. -/
def quote (t : Text) : Text :=
  CodePoint.quote :: (t.flatMap fun c =>
    if c = CodePoint.backslash || c = CodePoint.quote then [CodePoint.backslash, c] else [c]) ++
    [CodePoint.quote]

/-- Whether a pattern has to be quoted. -/
def needsQuote (t : Text) : Bool := t.hasBlank || t.head? == some CodePoint.quote

end RuleLine

namespace Rule

/-- The pattern as it is written before quoting. -/
def bareField (r : Rule) : Text :=
  if r.isRegex then
    CodePoint.tilde :: r.pattern ++
      (match r.flags with | some f => if f.isEmpty then [] else CodePoint.slash :: f | none => [])
  else r.pattern

/-- The pattern as it is written. -/
def patternField (r : Rule) : Text := if needsQuote r.bareField then quote r.bareField else r.bareField

/-- The line of a rule, with a given word for its kind. -/
def writeAs (kindWord : Text) (r : Rule) : Text :=
  (if r.enabled then [] else disabledMark) ++ r.mode.word ++ fieldGap ++ kindWord ++ fieldGap ++
    r.patternField ++
    (match r.methods with
      | some (m :: ms) => fieldGap ++ Text.join [CodePoint.comma] ((m :: ms).map Method.name)
      | _ => [])

/-- The line of a rule of a kind. -/
def write (k : Kind) (r : Rule) : Text := r.writeAs k.word

end Rule

end NoteAccess
