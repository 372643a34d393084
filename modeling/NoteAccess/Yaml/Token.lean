/-
  NoteAccess.Yaml.Token

  The tokens of a YAML document.  Indentation gives the beginnings and ends of
  block collections; a simple key is recognised only when the colon after it is
  met, so that its tokens are put in front of what it holds afterwards.

  A simple key stays on one line and within `maxKeyLength` code points.
-/

import NoteAccess.Text.Utf8
import NoteAccess.Yaml.Loader

namespace NoteAccess.Yaml

/-- A directive at the head of a document. -/
inductive Directive where
  | version (major : Nat)
  | handle (name lead : Text)
  | other
  deriving DecidableEq

/-- A token of a document. -/
inductive Token where
  | directive (d : Directive)
  | documentStart
  | documentEnd
  | blockSequenceStart
  | blockMappingStart
  | blockEnd
  | flowSequenceStart
  | flowSequenceEnd
  | flowMappingStart
  | flowMappingEnd
  | flowEntry
  | blockEntry
  | key
  | value
  | alias (name : Text)
  | anchor (name : Text)
  | tag (handle : Option Text) (suffix : Text)
  | scalar (plain : Bool) (t : Text)
  deriving DecidableEq

/-! ## Code points -/

/-- Line feeds and the other ends of a line. -/
def isBreak (c : CodePoint) : Bool :=
  c == 10 || c == 13 || c == 0x85 || c == 0x2028 || c == 0x2029

/-- The code point at the head of a text; zero at the end, which no document holds. -/
def headOf (t : Text) : CodePoint := t.headD 0

/-- The end of the text or of a line. -/
def isBreakOrEnd (c : CodePoint) : Bool := c == 0 || isBreak c

/-- A space, or the end of the text or of a line. -/
def isSpaceOrEnd (c : CodePoint) : Bool := c == 32 || isBreakOrEnd c

/-- A space or tab, or the end of the text or of a line. -/
def isGap (c : CodePoint) : Bool := c == 9 || isSpaceOrEnd c

/-- The code points that a document may hold. -/
def isAllowed (c : CodePoint) : Bool :=
  c == 9 || c == 10 || c == 13 || (0x20 ≤ c && c ≤ 0x7E) || c == 0x85 || (0xA0 ≤ c && c ≤ 0xD7FF) ||
    (0xE000 ≤ c && c ≤ 0xFFFD) || 0x10000 ≤ c

/-- Letters and digits of the basic alphabet, `-` and `_`. -/
def isNamePart (c : CodePoint) : Bool :=
  c.isBasicDigit || c.isBasicLetter || c == CodePoint.minus || c == CodePoint.underscore

/-- The mark at the beginning of a text that tells the order of its bytes. -/
def byteOrderMark : CodePoint := 0xFEFF

/-! ## The state of reading -/

/-- A place where a simple key may have begun. -/
structure KeyPlace where
  /-- How many tokens come before the key. -/
  tokens : Nat
  /-- Whether nothing but a key may stand there. -/
  required : Bool
  index : Nat
  line : Nat
  column : Nat

/-- A simple key is at most this long. -/
def maxKeyLength : Nat := 1024

/-- The text still to be read and what has been found. -/
structure Cursor where
  rest : Text
  index : Nat := 0
  line : Nat := 0
  column : Nat := 0
  /-- The column of the innermost block collection; below zero there is none. -/
  indent : Int := -1
  /-- The columns of the block collections around it. -/
  outer : List Int := []
  /-- How many flow collections are open. -/
  flow : Nat := 0
  /-- Whether a simple key may begin here. -/
  keyAllowed : Bool := true
  /-- The last place where a simple key may have begun, for each depth of flow. -/
  places : List (Nat × KeyPlace) := []
  tokens : Array Token := #[]

namespace Cursor

/-- Move over one code point; what counts as the end of a line begins a new one. -/
def step (s : Cursor) : Cursor :=
  match s.rest with
  | [] => s
  | c :: rest =>
    let newLine := c == 10 || c == 0x85 || c == 0x2028 || c == 0x2029 || (c == 13 && headOf rest != 10)
    { s with
      rest
      index := s.index + 1
      line := if newLine then s.line + 1 else s.line
      column := if newLine then 0 else if c == byteOrderMark then s.column else s.column + 1 }

/-- The state after `n` code points. -/
def steps (s : Cursor) : Nat → Cursor
  | 0 => s
  | n + 1 => s.step.steps n

end Cursor

/-- A step of reading. -/
abbrev Lexer := StateT Cursor (Except Failure)

namespace Lexer

/-- The document is not well formed. -/
def fail {α : Type} : Lexer α := throw .malformed

/-- The text still to be read. -/
def rest : Lexer Text := return (← get).rest

/-- The code point `n` places ahead. -/
def peek (n : Nat := 0) : Lexer CodePoint := return ((← get).rest[n]?).getD 0

/-- Move over `n` code points. -/
def forward (n : Nat := 1) : Lexer Unit := modify fun s => s.steps n

/-- Move over the code points at hand that satisfy `p`, and give them. -/
def takeWhile (p : CodePoint → Bool) : Lexer Text := do
  let taken := (← rest).takeWhile p
  forward taken.length
  return taken

/-- Move over the end of a line, and give what it stands for in a scalar; nothing if
    there is none. -/
def lineBreak : Lexer Text := do
  match ← rest with
  | 13 :: 10 :: _ => forward 2; return [10]
  | c :: _ =>
    if c == 10 || c == 13 || c == 0x85 then forward; return [10]
    else if c == 0x2028 || c == 0x2029 then forward; return [c]
    else return []
  | [] => return []

/-- Add a token. -/
def push (t : Token) : Lexer Unit := modify fun s => { s with tokens := s.tokens.push t }

/-- Put a token in front of the token with the given number. -/
def pushAt (n : Nat) (t : Token) : Lexer Unit :=
  modify fun s => { s with tokens := s.tokens.extract 0 n ++ #[t] ++ s.tokens.extract n s.tokens.size }

def allowKey (b : Bool) : Lexer Unit := modify fun s => { s with keyAllowed := b }

/-- Whether a line at hand begins with three times the sign and a gap. -/
def atMarker (c : CodePoint) : Lexer Bool := do
  match ← rest with
  | c1 :: c2 :: c3 :: after => return c1 == c && c2 == c && c3 == c && isGap (headOf after)
  | _ => return false

/-- Whether the sign of the beginning or end of a document is at hand. -/
def atDocumentMarker : Lexer Bool :=
  return (← atMarker CodePoint.minus) || (← atMarker CodePoint.dot)

/-! ## Indentation and keys -/

/-- End the block collections that are indented more than the column. -/
def unwind (column : Int) : Nat → Lexer Unit
  | 0 => return ()
  | fuel + 1 => do
    let s ← get
    if s.flow == 0 && column < s.indent then
      push .blockEnd
      modify fun s => { s with indent := s.outer.headD (-1), outer := s.outer.drop 1 }
      unwind column fuel

/-- End the block collections that are indented more than the column. -/
def unwindTo (column : Int) : Lexer Unit := do unwind column ((← get).outer.length + 1)

/-- Begin a block collection if the column is deeper than the one around it. -/
def deepen (column : Nat) : Lexer Bool := do
  let s ← get
  if s.indent < column then
    set { s with indent := (column : Int), outer := s.indent :: s.outer }
    return true
  else return false

/-- Forget the place of a key at this depth; it must not be one where a key is required. -/
def dropPlace : Lexer Unit := do
  let s ← get
  match s.places.lookup s.flow with
  | some k => if k.required then fail
  | none => pure ()
  set { s with places := s.places.filter (·.1 != s.flow) }

/-- Forget the places of keys that are on an earlier line or too far back. -/
def dropStalePlaces : Lexer Unit := do
  let s ← get
  let isStale (k : KeyPlace) : Bool := k.line != s.line || maxKeyLength < s.index - k.index
  if s.places.any fun (_, k) => isStale k && k.required then fail
  set { s with places := s.places.filter fun (_, k) => !isStale k }

/-- Remember that a simple key may begin here. -/
def savePlace : Lexer Unit := do
  let s ← get
  if s.keyAllowed then
    dropPlace
    modify fun s =>
      { s with
        places := (s.flow,
          { tokens := s.tokens.size
            required := s.flow == 0 && s.indent == (s.column : Int)
            index := s.index, line := s.line, column := s.column }) :: s.places }

/-! ## Between tokens -/

/-- Move over spaces, comments and ends of lines; a new line allows a key again. -/
def skipToToken : Nat → Lexer Unit
  | 0 => return ()
  | fuel + 1 => do
    discard <| takeWhile (· == 32)
    if (← peek) == CodePoint.hash then discard <| takeWhile (!isBreakOrEnd ·)
    if (← lineBreak).isEmpty then return ()
    if (← get).flow == 0 then allowKey true
    skipToToken fuel

/-- Move over the rest of a line, which holds spaces and perhaps a comment. -/
def skipRestOfLine : Lexer Unit := do
  discard <| takeWhile (· == 32)
  if (← peek) == CodePoint.hash then discard <| takeWhile (!isBreakOrEnd ·)
  unless isBreakOrEnd (← peek) do fail
  discard lineBreak

/-! ## Directives, anchors and tags -/

/-- A decimal number. -/
def number : Lexer Nat := do
  let digits ← takeWhile CodePoint.isBasicDigit
  if digits.isEmpty then fail
  return digits.foldl (fun n c => n * 10 + (c - 48)) 0

/-- The handle of a tag, between exclamation marks or a single one. -/
def tagHandle : Lexer Text := do
  unless (← peek) == CodePoint.bang do fail
  if (← peek 1) == CodePoint.space then
    forward
    return [CodePoint.bang]
  forward
  let name ← takeWhile isNamePart
  unless (← peek) == CodePoint.bang do fail
  forward
  return CodePoint.bang :: name ++ [CodePoint.bang]

/-- The code points that stand for themselves in a tag. -/
def isUriPart (c : CodePoint) : Bool :=
  c.isBasicDigit || c.isBasicLetter || ("-;/?:@&=+$,_.!~*'()[]" : Text).contains c

/-- The bytes of escapes with a percent sign. -/
def uriBytes : Nat → Lexer (List Nat)
  | 0 => return []
  | fuel + 1 => do
    match ← rest with
    | CodePoint.percent :: a :: b :: _ =>
      match a.hexValue?, b.hexValue? with
      | some x, some y =>
        forward 3
        return (x * 16 + y) :: (← uriBytes fuel)
      | _, _ => fail
    | CodePoint.percent :: _ => fail
    | _ => return []

/-- The pieces of a tag, plain ones and escaped ones. -/
def uriPieces : Nat → Lexer Text
  | 0 => return []
  | fuel + 1 => do
    let plain ← takeWhile isUriPart
    if (← peek) == CodePoint.percent then
      match Utf8.decodeFrom 0 0 [] (← uriBytes (← rest).length) with
      | .ok t => return plain ++ t ++ (← uriPieces fuel)
      | .error _ => fail
    else return plain

/-- The text of a tag; it is not empty. -/
def tagUri : Lexer Text := do
  let length := (← rest).length
  let t ← uriPieces (length + 1)
  if (← rest).length == length then fail
  return t

/-- A directive after its percent sign. -/
def directive : Lexer Directive := do
  forward
  let name ← takeWhile isNamePart
  if name.isEmpty || !isSpaceOrEnd (← peek) then fail
  if name == "YAML" then
    discard <| takeWhile (· == 32)
    let major ← number
    unless (← peek) == CodePoint.dot do fail
    forward
    discard number
    unless isSpaceOrEnd (← peek) do fail
    skipRestOfLine
    return .version major
  else if name == "TAG" then
    discard <| takeWhile (· == 32)
    let handle ← tagHandle
    unless (← peek) == CodePoint.space do fail
    discard <| takeWhile (· == 32)
    let lead ← tagUri
    unless isSpaceOrEnd (← peek) do fail
    skipRestOfLine
    return .handle handle lead
  else
    discard <| takeWhile (!isBreakOrEnd ·)
    skipRestOfLine
    return .other

/-- The name of an anchor or alias after its sign. -/
def anchorName : Lexer Text := do
  forward
  let name ← takeWhile isNamePart
  let c ← peek
  if name.isEmpty || !(isGap c || ("?:,]\x7d%@\x60" : Text).contains c) then fail
  return name

/-- A tag. -/
def tag : Lexer Token := do
  let t ← match ← rest with
    | _ :: CodePoint.less :: _ => do
      forward 2
      let suffix ← tagUri
      unless (← peek) == CodePoint.greater do fail
      forward
      pure (Token.tag none suffix)
    | _ :: after =>
      if isGap (headOf after) then do
        forward
        pure (Token.tag none [CodePoint.bang])
      else do
        let word := after.takeWhile (!isSpaceOrEnd ·)
        let handle ← if word.contains CodePoint.bang then tagHandle else do
          forward
          pure [CodePoint.bang]
        pure (Token.tag (some handle) (← tagUri))
    | [] => fail
  unless isSpaceOrEnd (← peek) do fail
  return t

/-! ## Scalars -/

/-- What happens to the last ends of lines of a block scalar. -/
inductive Chomping where
  | clip
  | strip
  | keep
  deriving DecidableEq

/-- The chomping that a sign asks for. -/
def chomping? (c : CodePoint) : Option Chomping :=
  if c = CodePoint.plus then some .keep else if c = CodePoint.minus then some .strip else none

/-- The chomping and the indentation written after the sign of a block scalar. -/
def blockHeader : Lexer (Chomping × Option Nat) := do
  let digit : Lexer (Option Nat) := do
    let c ← peek
    if c.isBasicDigit then
      if c = 48 then fail
      forward
      return some (c - 48)
    else return none
  let result ← match chomping? (← peek) with
    | some ch => do
      forward
      pure (ch, ← digit)
    | none => do
      match ← digit with
      | none => pure (Chomping.clip, none)
      | some n =>
        match chomping? (← peek) with
        | some ch => do
          forward
          pure (ch, some n)
        | none => pure (Chomping.clip, some n)
  unless isSpaceOrEnd (← peek) do fail
  return result

/-- The ends of lines before the first line of a block scalar, and the deepest column
    reached among them. -/
def leadingLines (deepest : Nat) : Nat → Lexer (Text × Nat)
  | 0 => return ([], deepest)
  | fuel + 1 => do
    let c ← peek
    if c == 32 then
      forward
      leadingLines (max deepest (← get).column) fuel
    else if isBreak c then
      let b ← lineBreak
      let (later, deepest) ← leadingLines deepest fuel
      return (b ++ later, deepest)
    else return ([], deepest)

/-- Move over spaces up to a column. -/
def skipIndent (column : Nat) : Lexer Unit := do
  let s ← get
  forward (((s.rest.take (column - s.column)).takeWhile (· == 32)).length)

/-- The empty lines at hand, and the indentation of the line after them. -/
def emptyLines (indent : Nat) : Nat → Lexer Text
  | 0 => return []
  | fuel + 1 => do
    skipIndent indent
    if isBreak (← peek) then
      let b ← lineBreak
      return b ++ (← emptyLines indent fuel)
    else return []

/-- The lines of a block scalar: its text up to the last line, the end of that line,
    and the empty lines after it. -/
def blockLines (folded : Bool) (indent : Nat) (breaks : Text) : Nat → Lexer (Text × Text × Text)
  | 0 => return ([], [], breaks)
  | fuel + 1 => do
    let s ← get
    if s.column == indent && !s.rest.isEmpty then
      let flush := !(headOf s.rest == 32 || headOf s.rest == 9)
      let line ← takeWhile (!isBreak ·)
      let ending ← lineBreak
      let later ← emptyLines indent (← rest).length.succ
      let s ← get
      if s.column == indent && !s.rest.isEmpty then
        let joint : Text :=
          if folded && ending == [10] && flush && !(headOf s.rest == 32 || headOf s.rest == 9) then
            if later.isEmpty then [CodePoint.space] else []
          else ending
        let (t, last, after) ← blockLines folded indent later fuel
        return (breaks ++ line ++ joint ++ t, last, after)
      else return (breaks ++ line, ending, later)
    else return ([], [], breaks)

/-- A block scalar. -/
def blockScalar (folded : Bool) : Lexer Text := do
  forward
  let (chomping, increment) ← blockHeader
  skipRestOfLine
  let least := ((← get).indent + 1).toNat
  let least := max least 1
  let fuel := (← rest).length.succ
  let (breaks, indent) ← match increment with
    | none => do
      let (breaks, deepest) ← leadingLines 0 fuel
      pure (breaks, max least deepest)
    | some n => do
      let indent := least + n - 1
      pure (← emptyLines indent fuel, indent)
  let (t, ending, after) ← blockLines folded indent breaks fuel
  match chomping with
  | .strip => return t
  | .clip => return t ++ ending
  | .keep => return t ++ ending ++ after

/-- What letters after a backslash stand for. -/
def escapes : List (CodePoint × CodePoint) := [
  ('0', 0), ('a', 7), ('b', 8), ('t', 9), ('\t', 9), ('n', 10), ('v', 11), ('f', 12), ('r', 13),
  ('e', 27), (' ', 32), ('"', 34), ('\\', 92), ('/', 47), ('N', 0x85), ('_', 0xA0), ('L', 0x2028),
  ('P', 0x2029)]

/-- How many digits follow a letter after a backslash. -/
def escapeLength? (c : CodePoint) : Option Nat :=
  if c = 'x' then some 2 else if c = 'u' then some 4 else if c = 'U' then some 8 else none

/-- The ends of lines between the lines of a quoted scalar. -/
def quotedBreaks : Nat → Lexer Text
  | 0 => return []
  | fuel + 1 => do
    if ← atDocumentMarker then fail
    discard <| takeWhile fun c => c == 32 || c == 9
    if isBreak (← peek) then
      let b ← lineBreak
      return b ++ (← quotedBreaks fuel)
    else return []

/-- The text of a quoted scalar up to its closing sign. -/
def quotedText (double : Bool) : Nat → Lexer Text
  | 0 => fail
  | fuel + 1 => do
    let c ← peek
    if c == 0 then fail
    else if c == 32 || c == 9 then
      let blanks ← takeWhile fun c => c == 32 || c == 9
      if isBreak (← peek) then quotedText double fuel
      else return blanks ++ (← quotedText double fuel)
    else if isBreak c then
      let b ← lineBreak
      let later ← quotedBreaks (← rest).length.succ
      let joint : Text := if b != [10] then b else if later.isEmpty then [CodePoint.space] else []
      return joint ++ later ++ (← quotedText double fuel)
    else if double && c == CodePoint.quote then
      forward
      return []
    else if !double && c == CodePoint.apostrophe then
      if (← peek 1) == CodePoint.apostrophe then
        forward 2
        return CodePoint.apostrophe :: (← quotedText double fuel)
      else
        forward
        return []
    else if double && c == CodePoint.backslash then
      forward
      let e ← peek
      match escapes.lookup e, escapeLength? e with
      | some x, _ =>
        forward
        return x :: (← quotedText double fuel)
      | none, some n =>
        forward
        let digits := (← rest).take n
        if digits.length < n || !digits.all fun (c : CodePoint) => c.hexValue?.isSome then fail
        let x : CodePoint := digits.foldl (fun n c => n * 16 + (CodePoint.hexValue? c).getD 0) 0
        if 0x7FFFFFFF < x then throw (.fault .tooLarge "int too large to convert to C int")
        if 0x10FFFF < x then throw (.fault .badValue "chr() arg not in range(0x110000)")
        forward n
        return x :: (← quotedText double fuel)
      | none, none =>
        if isBreak e then
          discard lineBreak
          let later ← quotedBreaks (← rest).length.succ
          return later ++ (← quotedText double fuel)
        else fail
    else
      forward
      return c :: (← quotedText double fuel)

/-- A quoted scalar. -/
def quotedScalar (double : Bool) : Lexer Text := do
  forward
  quotedText double ((← rest).length + 1)

/-- What ends a plain scalar inside a flow collection. -/
def isFlowSign (c : CodePoint) : Bool := (",?[]\x7b\x7d" : Text).contains c

/-- The length of the piece of a plain scalar at hand. -/
def plainLength (inFlow : Bool) : Text → Nat
  | [] => 0
  | c :: t =>
    let colonEnds := c == CodePoint.colon &&
      (isGap (headOf t) || (inFlow && (",[]\x7b\x7d" : Text).contains (headOf t)))
    if isGap c || colonEnds || (inFlow && isFlowSign c) then 0 else plainLength inFlow t + 1

/-- The ends of lines between the lines of a plain scalar; none if a sign of a document
    follows one of them. -/
def plainBreaks? : Nat → Lexer (Option Text)
  | 0 => return some []
  | fuel + 1 => do
    if ← atDocumentMarker then return none
    discard <| takeWhile (· == 32)
    if isBreak (← peek) then
      let b ← lineBreak
      return (← plainBreaks? fuel).map (b ++ ·)
    else return some []

/-- What stands between two pieces of a plain scalar; nothing if the scalar ends. -/
def plainGap : Lexer Text := do
  let blanks ← takeWhile (· == 32)
  if isBreak (← peek) then
    let b ← lineBreak
    allowKey true
    match ← plainBreaks? (← rest).length.succ with
    | none => return []
    | some later =>
      let joint : Text := if b != [10] then b else if later.isEmpty then [CodePoint.space] else []
      return joint ++ later
  else return blanks

/-- The pieces of a plain scalar from `gap` on. -/
def plainText (indent : Int) (gap : Text) : Nat → Lexer Text
  | 0 => return []
  | fuel + 1 => do
    let s ← get
    let n := plainLength (s.flow != 0) s.rest
    if headOf s.rest == CodePoint.hash || n == 0 then return []
    allowKey false
    let piece := s.rest.take n
    forward n
    let next ← plainGap
    let s ← get
    if next.isEmpty || headOf s.rest == CodePoint.hash || (s.flow == 0 && (s.column : Int) < indent) then
      return gap ++ piece
    else return gap ++ piece ++ (← plainText indent next fuel)

/-- A plain scalar. -/
def plainScalar : Lexer Text := do
  let s ← get
  plainText (s.indent + 1) [] (s.rest.length + 1)

/-- Whether a plain scalar may begin at the text at hand. -/
def beginsPlain (inFlow : Bool) : Text → Bool
  | [] => false
  | c :: t =>
    (!isGap c && !("-?:,[]\x7b\x7d#&*!|>'\"%@\x60" : Text).contains c) ||
      (!isGap (headOf t) && (c == CodePoint.minus || (!inFlow && (c == CodePoint.query || c == CodePoint.colon))))

/-! ## Tokens -/

/-- A sign of the beginning or end of a document. -/
def documentMarker (t : Token) : Lexer Unit := do
  unwindTo (-1)
  dropPlace
  allowKey false
  forward 3
  push t

/-- The beginning of a flow collection. -/
def openFlow (t : Token) : Lexer Unit := do
  savePlace
  modify fun s => { s with flow := s.flow + 1, keyAllowed := true }
  forward
  push t

/-- The end of a flow collection; one must be open. -/
def closeFlow (t : Token) : Lexer Unit := do
  dropPlace
  if (← get).flow == 0 then fail
  modify fun s => { s with flow := s.flow - 1, keyAllowed := false }
  forward
  push t

/-- The sign of an entry of a block sequence. -/
def entry : Lexer Unit := do
  let s ← get
  if s.flow == 0 then
    unless s.keyAllowed do fail
    if ← deepen s.column then push .blockSequenceStart
  allowKey true
  dropPlace
  forward
  push .blockEntry

/-- The sign of a key. -/
def keySign : Lexer Unit := do
  let s ← get
  if s.flow == 0 then
    unless s.keyAllowed do fail
    if ← deepen s.column then push .blockMappingStart
  allowKey (s.flow == 0)
  dropPlace
  forward
  push .key

/-- The sign of a value: what came before it on the line was a simple key, if one may
    have begun there. -/
def valueSign : Lexer Unit := do
  let s ← get
  match s.places.lookup s.flow with
  | some k =>
    set { s with places := s.places.filter (·.1 != s.flow) }
    pushAt k.tokens .key
    if s.flow == 0 then
      if ← deepen k.column then pushAt k.tokens .blockMappingStart
    allowKey false
  | none =>
    if s.flow == 0 then
      unless s.keyAllowed do fail
      if ← deepen s.column then push .blockMappingStart
    allowKey (s.flow == 0)
    dropPlace
  forward
  push .value

/-- A token that may be a simple key. -/
def keyLike (t : Lexer Token) : Lexer Unit := do
  savePlace
  allowKey false
  push (← t)

/-- A block scalar as a token. -/
def blockToken (folded : Bool) : Lexer Unit := do
  allowKey true
  dropPlace
  push (.scalar false (← blockScalar folded))

/-- The next token; false at the end of the text. -/
def token : Lexer Bool := do
  skipToToken ((← rest).length + 1)
  dropStalePlaces
  unwindTo (← get).column
  let s ← get
  match s.rest with
  | [] =>
    unwindTo (-1)
    dropPlace
    return false
  | c :: after =>
    let inFlow := s.flow != 0
    let gapAfter := isGap (headOf after)
    if c == CodePoint.percent && s.column == 0 then
      unwindTo (-1)
      dropPlace
      allowKey false
      push (.directive (← directive))
    else if s.column == 0 && (← atMarker CodePoint.minus) then documentMarker .documentStart
    else if s.column == 0 && (← atMarker CodePoint.dot) then documentMarker .documentEnd
    else if c == CodePoint.openBracket then openFlow .flowSequenceStart
    else if c == CodePoint.openBrace then openFlow .flowMappingStart
    else if c == CodePoint.closeBracket then closeFlow .flowSequenceEnd
    else if c == CodePoint.closeBrace then closeFlow .flowMappingEnd
    else if c == CodePoint.comma then
      allowKey true
      dropPlace
      forward
      push .flowEntry
    else if c == CodePoint.minus && gapAfter then entry
    else if c == CodePoint.query && (inFlow || gapAfter) then keySign
    else if c == CodePoint.colon && (inFlow || gapAfter) then valueSign
    else if c == CodePoint.star then keyLike (do return .alias (← anchorName))
    else if c == CodePoint.ampersand then keyLike (do return .anchor (← anchorName))
    else if c == CodePoint.bang then keyLike tag
    else if c == CodePoint.bar && !inFlow then blockToken false
    else if c == CodePoint.greater && !inFlow then blockToken true
    else if c == CodePoint.apostrophe then keyLike (do return .scalar false (← quotedScalar false))
    else if c == CodePoint.quote then keyLike (do return .scalar false (← quotedScalar true))
    else if beginsPlain inFlow s.rest then
      -- a line break inside the scalar may allow a key again
      savePlace
      allowKey false
      push (.scalar true (← plainScalar))
    else fail
    return true

/-- All tokens up to the end of the text. -/
def tokens : Nat → Lexer Unit
  | 0 => return ()
  | fuel + 1 => do
    if ← token then tokens fuel

end Lexer

/-- The tokens of a text. -/
def Token.ofText (t : Text) : Except Failure (List Token) := do
  unless t.all isAllowed do throw .malformed
  let t := if t.head? = some byteOrderMark then t.drop 1 else t
  let ((), s) ← (Lexer.tokens (t.length + 2)).run { rest := t }
  return s.tokens.toList

end NoteAccess.Yaml
