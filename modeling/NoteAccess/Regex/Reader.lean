/-
  NoteAccess.Regex.Reader

  Reading a regular expression.  The text is first cut into tokens, a code point
  or a backslash with the code point after it; a backslash at the end spoils the
  expression as soon as the reader comes to stand before it.

  Repetition counts are below `repeatLimit`; flags for the whole expression stand
  at its beginning; a reference goes to a group that is closed.
-/

import NoteAccess.Regex.Syntax
import NoteAccess.Text.CharacterName
import NoteAccess.Text.Identifier
import NoteAccess.Decimal.Numeral

namespace NoteAccess.Regex

/-! ## Tokens -/

/-- A piece of the written expression. -/
inductive Token where
  | char (c : CodePoint)
  | escape (c : CodePoint)
  | dangling
  deriving DecidableEq, Repr

/-- The tokens of an expression. -/
def Token.ofText : Text → List Token
  | [] => []
  | [c] => if c = CodePoint.backslash then [.dangling] else [.char c]
  | c :: d :: rest =>
    if c = CodePoint.backslash then .escape d :: ofText rest else .char c :: ofText (d :: rest)

/-- The text of a token. -/
def Token.text : Token → Text
  | char c => [c]
  | escape c => [CodePoint.backslash, c]
  | dangling => [CodePoint.backslash]

/-- The number of code points of tokens. -/
def Token.sizeOfAll (ts : List Token) : Nat := ts.foldl (fun n t => n + t.text.length) 0

/-- What the reader knows while it reads. -/
structure Reading where
  /-- The number of code points of the expression. -/
  size : Nat
  /-- The tokens still to be read. -/
  tokens : List Token
  /-- Flags of the whole expression. -/
  flags : Flags
  /-- The groups that have names. -/
  names : List (Text × Nat) := []
  /-- The widths of the groups opened so far, none while a group is open; group zero
      is the whole expression. -/
  widths : Array (Option (Nat × Nat)) := #[none]
  /-- Inside a look behind: the number of groups before it. -/
  groupsBefore : Option Nat := none
  /-- The group numbers that conditions ask for, each with its place, the last one first. -/
  asked : List (Nat × Nat) := []

/-- A step of reading. -/
abbrev Reader := StateT Reading (Except Failure)

namespace Reader

/-- The place of the token at hand, in code points from the beginning. -/
def place : Reader Nat := do
  let s ← get
  return s.size - Token.sizeOfAll s.tokens

/-- The expression is malformed at a place. -/
def failAt {α : Type} (f : Flaw) (place : Nat) : Reader α := throw (.malformed f (some place))

/-- The expression is malformed `back` code points before the token at hand. -/
def fail {α : Type} (f : Flaw) (back : Nat) : Reader α := do failAt f ((← place) - back)

/-- Stand before the given tokens. -/
def moveTo (tokens : List Token) : Reader Unit := do
  modify fun s => { s with tokens }
  if tokens.head? = some .dangling then failAt .escapeAtEnd ((← get).size - 1)

/-- The token at hand. -/
def peek? : Reader (Option Token) := return (← get).tokens.head?

/-- Take the token at hand, if there is one. -/
def take? : Reader (Option Token) := do
  match (← get).tokens with
  | [] => return none
  | t :: rest => moveTo rest; return some t

/-- Take the token at hand; it is a flaw if the expression ends here. -/
def take (f : Flaw) : Reader Token := do
  match ← take? with
  | some t => return t
  | none => fail f 0

/-- Take the token at hand if it is this code point. -/
def accept (c : CodePoint) : Reader Bool := do
  match (← get).tokens with
  | .char d :: rest => if c = d then moveTo rest; return true else return false
  | _ => return false

/-- The token at hand must close the parenthesis that stands at a place. -/
def close (start : Nat) : Reader Unit := do
  unless ← accept CodePoint.closeParen do failAt .unterminatedGroup start

/-- At most `n` code points that satisfy `p`. -/
def takeWhile (p : CodePoint → Bool) : Nat → Reader Text
  | 0 => return []
  | n + 1 => do
    match (← get).tokens with
    | .char c :: rest =>
      if p c then
        moveTo rest
        return c :: (← takeWhile p n)
      else return []
    | _ => return []

/-- The text up to a terminator, which is taken too; neither may be missing.  `seen` is
    the text before. -/
def takeUntilFrom (terminator : CodePoint) (what seen : Text) : List Token → Reader Text
  | [] => if seen.isEmpty then fail (.missing what) 0 else fail (.unterminatedName terminator) seen.length
  | t :: rest => do
    moveTo rest
    if t = .char terminator then
      if seen.isEmpty then fail (.missing what) 1 else return seen
    else takeUntilFrom terminator what (seen ++ t.text) rest

/-- The text up to a terminator, which is taken too; neither may be missing. -/
def takeUntil (terminator : CodePoint) (what : Text) : Reader Text := do
  takeUntilFrom terminator what [] (← get).tokens

/-! ## Groups -/

/-- The number of groups, the whole expression included. -/
def groupCount : Reader Nat := return (← get).widths.size

/-- Whether the group is closed. -/
def isClosed (n : Nat) : Reader Bool := return ((← get).widths[n]?.getD none).isSome

/-- Inside a look behind, a reference goes to a closed group from before it. -/
def checkBehind (n : Nat) : Reader Unit := do
  match (← get).groupsBefore with
  | none => return ()
  | some before =>
    unless ← isClosed n do fail .openGroup 0
    if before ≤ n then fail .groupBehind 0

/-- A reference to a group that is closed; it has been written `back` code points ago. -/
def reference (n back : Nat) : Reader Atom := do
  unless ← isClosed n do fail .openGroup back
  checkBehind n
  return .backref n

/-- A new group, with a name that no other group has. -/
def openGroup (name : Option Text) : Reader Nat := do
  let s ← get
  let n := s.widths.size
  match name with
  | none => set { s with widths := s.widths.push none }
  | some name =>
    if let some before := s.names.lookup name then fail (.redefinedGroup name n before) (name.length + 1)
    set { s with widths := s.widths.push none, names := (name, n) :: s.names }
  return n

/-- The least and greatest length that a tree matches, given the closed groups. -/
def widthOf (n : Node Atom) : Reader (Nat × Nat) := do
  let s ← get
  return n.width fun g => (s.widths[g]?.getD none).getD (0, 0)

/-- The group is closed. -/
def closeGroup (n : Nat) (body : Node Atom) : Reader Unit := do
  let w ← widthOf body
  modify fun s => { s with widths := s.widths.setIfInBounds n (some w) }

/-! ## Escapes -/

/-- A flaw of an escape that has just been read. -/
def failEscape {α : Type} (f : Text → Flaw) (written : Text) : Reader α :=
  fail (f (CodePoint.backslash :: written)) (written.length + 1)

/-- The code point of hexadecimal digits after a letter, of which there must be `count`. -/
def hexEscape (letter : CodePoint) (count : Nat) : Reader CodePoint := do
  let digits ← takeWhile (fun c => (CodePoint.hexValue? c).isSome) count
  if digits.length < count then failEscape .incompleteEscape (letter :: digits)
  let c : CodePoint := digits.foldl (fun n c => n * 16 + (CodePoint.hexValue? c).getD 0) 0
  if 0x10FFFF < c then failEscape .badEscape (letter :: digits) else return c

/-- The code point of a name in braces. -/
def namedEscape : Reader CodePoint := do
  unless ← accept CodePoint.openBrace do fail (.missing [CodePoint.openBrace]) 0
  let name ← takeUntil CodePoint.closeBrace "character name"
  match CharacterName.find? name with
  | some c => return c
  | none => fail (.unknownCharacter name) (name.length + 4)

/-- Octal digits are 0 to 7. -/
def isOctal (c : CodePoint) : Bool := 48 ≤ c && c ≤ 55

/-- The number that octal digits denote. -/
def octalValue (digits : Text) : Nat := digits.foldl (fun n c => n * 8 + (c - 48)) 0

/-- The control that a letter after a backslash stands for, apart from `\b`. -/
def controlOf? (c : CodePoint) : Option CodePoint :=
  ([('a', 7), ('f', 12), ('n', 10), ('r', 13), ('t', 9), ('v', 11), ('\\', 92)] :
    List (CodePoint × CodePoint)).lookup c

/-- The class that a letter after a backslash stands for. -/
def categoryOf? (c : CodePoint) : Option SetItem :=
  ([('d', .category .digit false), ('D', .category .digit true),
    ('s', .category .blank false), ('S', .category .blank true),
    ('w', .category .word false), ('W', .category .word true)] : List (CodePoint × SetItem)).lookup c

/-- The place that a letter after a backslash stands for. -/
def anchorOf? (c : CodePoint) : Option Anchor :=
  ([('A', .textStart), ('Z', .textEnd), ('b', .wordEdge), ('B', .notWordEdge)] :
    List (CodePoint × Anchor)).lookup c

/-- The code point of an escape with digits or a name after it, or of a sign that
    stands for itself; other letters have no meaning. -/
def pointEscape (c : CodePoint) : Reader CodePoint := do
  if c = 'x' then hexEscape c 2
  else if c = 'u' then hexEscape c 4
  else if c = 'U' then hexEscape c 8
  else if c = 'N' then namedEscape
  else if c.isBasicLetter then failEscape .badEscape [c]
  else return c

/-- An escape inside a set. -/
def setEscape (c : CodePoint) : Reader SetItem := do
  if let some d := controlOf? c then return .single d
  if c = 'b' then return .single 8
  if let some item := categoryOf? c then return item
  if isOctal c then
    let digits := c :: (← takeWhile isOctal 2)
    if 0o377 < octalValue digits then failEscape .octalTooLarge digits else return .single (octalValue digits)
  if c.isBasicDigit then failEscape .badEscape [c]
  return .single (← pointEscape c)

/-- A reference to the group with a number in decimal digits. -/
def numberedReference (digits : Text) : Reader Atom := do
  let n := Decimal.digitsToNat digits
  if n < (← groupCount) then reference n (digits.length + 1) else fail (.noGroup n) digits.length

/-- An escape with a digit other than zero: three octal digits are a code point,
    else one or two digits are the number of a group. -/
def numberEscape (c : CodePoint) : Reader Atom := do
  match (← get).tokens with
  | .char d :: rest =>
    if d.isBasicDigit then
      moveTo rest
      match rest with
      | .char e :: rest' =>
        if isOctal c && isOctal d && isOctal e then
          moveTo rest'
          let value := octalValue [c, d, e]
          if 0o377 < value then failEscape .octalTooLarge [c, d, e] else return .char value
        else numberedReference [c, d]
      | _ => numberedReference [c, d]
    else numberedReference [c]
  | _ => numberedReference [c]

/-- An escape outside a set. -/
def escape (c : CodePoint) : Reader Atom := do
  if let some a := anchorOf? c then return .anchor a
  if let some item := categoryOf? c then return .set false [item]
  if let some d := controlOf? c then return .char d
  if c = '0' then return .char (octalValue (c :: (← takeWhile isOctal 2)))
  if c.isBasicDigit then numberEscape c
  else return .char (← pointEscape c)

/-! ## Sets -/

/-- One end of a possible range. -/
def setMember : Token → Reader SetItem
  | .escape c => setEscape c
  | .char c => return .single c
  | .dangling => fail .escapeAtEnd 1

/-- The next token of a set that begins at a place. -/
def setToken (start : Nat) : Reader Token := do
  match ← take? with
  | some t => return t
  | none => failAt .unterminatedSet start

/-- The members of a set up to its closing bracket, which does not close an empty set. -/
def setItems (start : Nat) (items : List SetItem) : Nat → Reader (List SetItem)
  | 0 => failAt .unterminatedSet start
  | fuel + 1 => do
    let this ← setToken start
    if this = .char CodePoint.closeBracket && !items.isEmpty then return items.reverse
    let first ← setMember this
    if ← accept CodePoint.minus then
      let that ← setToken start
      if that = .char CodePoint.closeBracket then
        return (.single CodePoint.minus :: first :: items).reverse
      let badRange : Reader (List SetItem) :=
        fail (.badRange this.text that.text) (this.text.length + 1 + that.text.length)
      match first, ← setMember that with
      | .single lo, .single hi =>
        if hi < lo then badRange else setItems start (.range lo hi :: items) fuel
      | _, _ => badRange
    else setItems start (first :: items) fuel

/-- A set after its opening bracket. -/
def set : Reader Atom := do
  let start := (← place) - 1
  let negated ← accept CodePoint.caret
  let items ← setItems start [] ((← get).tokens.length + 1)
  match items.eraseDups with
  | [.single c] => return if negated then .notChar c else .char c
  | items => return .set negated items

/-! ## Loops -/

/-- Repetition counts from here on are too large. -/
def repeatLimit : Nat := 4294967295

/-- A repetition count, if one is written. -/
def count? (digits : Text) : Reader (Option Nat) := do
  if digits.isEmpty then return none
  if Decimal.maxDigits < digits.length then throw .badValue
  let n := Decimal.digitsToNat digits
  if repeatLimit ≤ n then throw .tooLarge
  return some n

/-- The bounds in braces; none if the brace opens no bounds and stands for itself. -/
def bounds? : Reader (Option (Nat × Option Nat)) := do
  let start := (← get).tokens
  let here ← place
  if start.head? = some (.char CodePoint.closeBrace) then return none
  let lo ← takeWhile CodePoint.isBasicDigit start.length
  let hi ← if ← accept CodePoint.comma then takeWhile CodePoint.isBasicDigit start.length else pure lo
  unless ← accept CodePoint.closeBrace do
    moveTo start
    return none
  let least := (← count? lo).getD 0
  let most ← count? hi
  match most with
  | some n => if n < least then failAt .boundsReversed here
  | none => pure ()
  return some (least, most)

/-- The bounds that a sign of repetition stands for. -/
def repetition? (c : CodePoint) : Reader (Option (Nat × Option Nat)) :=
  if c = CodePoint.query then return some (0, some 1)
  else if c = CodePoint.star then return some (0, none)
  else if c = CodePoint.plus then return some (1, none)
  else bounds?

/-- How the loop chooses, from the sign after its bounds. -/
def greed : Reader Greed := do
  if ← accept CodePoint.query then return .lazy
  if ← accept CodePoint.plus then return .possessive
  return .greedy

/-- A part of a sequence, which a sign of repetition takes as a whole. -/
structure Piece where
  /-- Whether the part is a group that neither captures nor sets flags. -/
  grouped : Bool
  items : List (Node Atom)

/-- A part that is a single node. -/
def Piece.single (n : Node Atom) : Piece := ⟨false, [n]⟩

/-- Why a part cannot be repeated: it is a place, or a loop without a group around it. -/
def Piece.unrepeatable? (p : Piece) : Option Flaw :=
  if p.grouped then none
  else match p.items with
    | [.leaf (.anchor _)] => some .nothingToRepeat
    | [.loop ..] => some .multipleRepeat
    | _ => none

/-- The last part before a sign of repetition, in a loop, and the parts before it. -/
def repeatLast (least : Nat) (most : Option Nat) (sign : Nat) : List Piece → Reader (List Piece)
  | [] => failAt .nothingToRepeat sign
  | last :: earlier => do
    if let some f := last.unrepeatable? then failAt f sign
    return .single (.loop (← greed) least most (Node.ofList last.items)) :: earlier

/-! ## Flags -/

/-- The flag with this letter. -/
def flagOf? (c : CodePoint) : Option Flags :=
  ([('i', { ignoreCase := true }), ('m', { multiline := true }), ('s', { dotAll := true }),
    ('x', { verbose := true }), ('a', { ascii := true }), ('u', { unicode := true }),
    ('t', { template := true })] : List (CodePoint × Flags)).lookup c

/-- The flag for bytes, which expressions for text cannot have. -/
def isByteFlag (c : CodePoint) : Bool := c == 'L'

/-- Whether a token is a letter. -/
def isLetter : Token → Bool
  | .char c => identifierStarts.contains c && c != CodePoint.underscore
  | _ => false

/-- The letter of a flag; another token stands where something else is `missing`. -/
def flagLetter (t : Token) (what : Text) : Reader CodePoint := do
  let other : Reader CodePoint := fail (if isLetter t then .unknownFlag else .missing what) t.text.length
  match t with
  | .char c => if (flagOf? c).isSome || isByteFlag c then return c else other
  | _ => other

/-- What may follow flags to turn on. -/
def afterFlags : Text := "-, : or )"

/-- Flags to turn on, up to the sign that ends them. -/
def flagsOn (on : Flags) (c : CodePoint) : Nat → Reader (Flags × Token)
  | 0 => fail .endOfPattern 0
  | fuel + 1 => do
    match flagOf? c with
    | none => fail .byteFlag 0
    | some f =>
      let on := on.union f
      if on.ascii && on.unicode then fail .characterSets 0
      let next ← take (.missing afterFlags)
      if next = .char CodePoint.closeParen || next = .char CodePoint.minus || next = .char CodePoint.colon then
        return (on, next)
      flagsOn on (← flagLetter next afterFlags) fuel

/-- Flags to turn off, up to the colon that ends them. -/
def flagsOff (off : Flags) (c : CodePoint) : Nat → Reader Flags
  | 0 => fail .endOfPattern 0
  | fuel + 1 => do
    match flagOf? c with
    | none => fail .characterSetOff 0
    | some f =>
      if f.ascii || f.unicode then fail .characterSetOff 0
      let off := off.union f
      let colon : Text := [CodePoint.colon]
      let next ← take (.missing colon)
      if next = .char CodePoint.colon then return off
      flagsOff off (← flagLetter next colon) fuel

/-- The flags of a group from its first sign on: those turned on and off inside it, or
    none if they are turned on for the whole expression. -/
def groupFlags? (first : CodePoint) : Reader (Option (Flags × Flags)) := do
  let fuel := (← get).tokens.length + 1
  let (on, last) ←
    if first = CodePoint.minus then pure (({} : Flags), Token.char first) else flagsOn {} first fuel
  if last = .char CodePoint.closeParen then
    modify fun s => { s with flags := s.flags.union on }
    return none
  if on.template then fail .globalOn 1
  let off ←
    if last = .char CodePoint.minus then
      flagsOff {} (← flagLetter (← take (.missing "flag")) "flag") fuel
    else pure {}
  if off.template then fail .globalOff 1
  if on.meets off then fail .onAndOff 1
  return some (on, off)

/-! ## Alternatives -/

/-- The alternatives without the leaf that all of them begin with. -/
def sharedHead? (branches : List (List (Node Atom))) : Option (Atom × List (List (Node Atom))) :=
  match branches with
  | (.leaf a :: _) :: _ =>
    (branches.mapM fun (branch : List (Node Atom)) =>
      match branch with
      | .leaf b :: rest => if a = b then some rest else none
      | _ => none).map (a, ·)
  | _ => none

/-- The set that alternatives of single code points and sets amount to. -/
def asSet? (branches : List (List (Node Atom))) : Option (List SetItem) :=
  (branches.mapM fun (branch : List (Node Atom)) =>
    match branch with
    | [.leaf (.char c)] => some [SetItem.single c]
    | [.leaf (.set false items)] => some items
    | _ => none).map fun (items : List (List SetItem)) => items.flatten.eraseDups

/-- A choice between sequences: what all begin with is taken out, and code points and
    sets are put together. -/
def choice (branches : List (List (Node Atom))) : Nat → List (Node Atom)
  | 0 => [Node.ofChoices (branches.map Node.ofList)]
  | fuel + 1 =>
    match sharedHead? branches with
    | some (a, rests) => .leaf a :: choice rests fuel
    | none =>
      match asSet? branches with
      | some items => [.leaf (.set false items)]
      | none => [Node.ofChoices (branches.map Node.ofList)]

/-! ## Sequences and groups -/

/-- What stands in parentheses. -/
inductive Opened where
  | piece (p : Piece)
  | comment
  | wholeFlags

/-- The spaces that the verbose notation skips. -/
def isLayout (c : CodePoint) : Bool := c == 32 || (9 ≤ c && c ≤ 13)

/-- Skip up to the end of the line. -/
def skipLine : List Token → Reader Unit
  | [] => moveTo []
  | t :: rest => do
    moveTo rest
    if t = .char CodePoint.newline then return () else skipLine rest

/-- Skip up to the end of a comment that begins at a place. -/
def skipComment (start : Nat) : List Token → Reader Unit
  | [] => failAt .unterminatedComment start
  | t :: rest => do
    moveTo rest
    if t = .char CodePoint.closeParen then return () else skipComment start rest

/-- What names of groups are called. -/
def groupNameLabel : Text := "group name"

/-- The group with a name that has just been read. -/
def namedGroup (name : Text) : Reader Nat := do
  match (← get).names.lookup name with
  | some n => return n
  | none => fail (.unknownGroup name) (name.length + 1)

/-- The group that a condition asks for, by name or by number. -/
def askedGroup : Reader Nat := do
  let name ← takeUntil CodePoint.closeParen groupNameLabel
  let back := name.length + 1
  let n ←
    if name.isIdentifier then namedGroup name
    else
      match Decimal.readInt? name with
      | some (.ofNat n) =>
        if n = 0 then fail .groupZero back
        if 1073741823 ≤ n then fail (.noGroup n) back
        let here := (← place) - back
        modify fun s => { s with asked := (n, here) :: s.asked }
        pure n
      | _ => fail (.badGroupName name) back
  checkBehind n
  return n

/-- The name of a group. -/
def groupName (terminator : CodePoint) : Reader Text := do
  let name ← takeUntil terminator groupNameLabel
  if name.isIdentifier then return name else fail (.badGroupName name) (name.length + 1)

/-- What a look at the text behind needs: the one length that its body matches. -/
def behindWidth? (body : Node Atom) : Reader (Option Nat) := do
  let (lo, hi) ← widthOf body
  return if lo = hi && lo ≤ repeatLimit then some lo else none

mutual

/-- Alternatives up to a closing parenthesis or the end. -/
def alternatives (fuel : Nat) (verbose top : Bool) (before : List (List (Node Atom))) :
    Reader (List (Node Atom)) := do
  match fuel with
  | 0 => fail .unbalanced 0
  | fuel + 1 =>
    let branch ← sequence fuel verbose (top && before.isEmpty) []
    let branches := branch :: before
    if ← accept CodePoint.bar then
      let flags := (← get).flags
      alternatives fuel (if top then flags.verbose else verbose) top branches
    else
      match branches with
      | [only] => return only
      | _ =>
        let branches := branches.reverse
        return choice branches (branch.length + 1)

/-- A sequence up to a bar, a closing parenthesis or the end; `start` says that it
    begins the expression. -/
def sequence (fuel : Nat) (verbose start : Bool) (before : List Piece) : Reader (List (Node Atom)) := do
  match fuel with
  | 0 => fail .unbalanced 0
  | fuel + 1 =>
    let done : List (Node Atom) := (before.reverse.map Piece.items).flatten
    match ← peek? with
    | none => return done
    | some this =>
      if this = .char CodePoint.bar || this = .char CodePoint.closeParen then return done
      discard take?
      match this with
      | .dangling => fail .escapeAtEnd 1
      | .escape c => sequence fuel verbose start (.single (.leaf (← escape c)) :: before)
      | .char c =>
        if verbose && isLayout c then sequence fuel verbose start before
        else if verbose && c = CodePoint.hash then
          skipLine (← get).tokens
          sequence fuel verbose start before
        else if c = CodePoint.openBracket then
          sequence fuel verbose start (.single (.leaf (← set)) :: before)
        else if c = CodePoint.query || c = CodePoint.star || c = CodePoint.plus || c = CodePoint.openBrace then
          let sign := (← place) - 1
          match ← repetition? c with
          | none => sequence fuel verbose start (.single (.leaf (.char c)) :: before)
          | some (least, most) => sequence fuel verbose start (← repeatLast least most sign before)
        else if c = CodePoint.dot then sequence fuel verbose start (.single (.leaf .any) :: before)
        else if c = CodePoint.caret then
          sequence fuel verbose start (.single (.leaf (.anchor .lineStart)) :: before)
        else if c = CodePoint.dollar then
          sequence fuel verbose start (.single (.leaf (.anchor .lineEnd)) :: before)
        else if c = CodePoint.openParen then
          let opening := (← place) - 1
          match ← parenthesis fuel verbose opening with
          | .piece p => sequence fuel verbose start (p :: before)
          | .comment => sequence fuel verbose start before
          | .wholeFlags =>
            if start && before.isEmpty then
              sequence fuel (← get).flags.verbose start before
            else failAt .lateFlags opening
        else sequence fuel verbose start (.single (.leaf (.char c)) :: before)

/-- What stands after an opening parenthesis, which has the place `start`. -/
def parenthesis (fuel : Nat) (verbose : Bool) (start : Nat) : Reader Opened := do
  match fuel with
  | 0 => fail .unbalanced 0
  | fuel + 1 =>
    if !(← accept CodePoint.query) then captured fuel verbose start none
    else
      let sign ← take .endOfPattern
      let unknown : Reader Opened := fail (.unknownExtension sign.text) (sign.text.length + 1)
      match sign with
      | .char c =>
        if c = 'P' then
          if ← accept CodePoint.less then captured fuel verbose start (some (← groupName CodePoint.greater))
          else if ← accept CodePoint.equals then
            let name ← groupName CodePoint.closeParen
            return .piece (.single (.leaf (← reference (← namedGroup name) (name.length + 1))))
          else
            let t ← take .endOfPattern
            fail (.unknownExtension (c :: t.text)) (t.text.length + 2)
        else if c = CodePoint.colon then
          return .piece ⟨true, ← body fuel verbose start⟩
        else if c = CodePoint.hash then
          skipComment start (← get).tokens
          return .comment
        else if c = CodePoint.equals || c = CodePoint.bang then
          return .piece (.single (.ahead (c = CodePoint.bang) (Node.ofList (← body fuel verbose start))))
        else if c = CodePoint.less then
          let t ← take .endOfPattern
          if t = .char CodePoint.equals || t = .char CodePoint.bang then
            let outer := (← get).groupsBefore
            modify fun s => { s with groupsBefore := some (outer.getD s.widths.size) }
            let items ← alternatives fuel verbose false []
            modify fun s => { s with groupsBefore := outer }
            close start
            let node := Node.ofList items
            return .piece (.single (.behind (t = .char CodePoint.bang) (← behindWidth? node) node))
          else fail (.unknownExtension (c :: t.text)) (t.text.length + 2)
        else if c = CodePoint.openParen then
          let n ← askedGroup
          let yes ← sequence fuel verbose false []
          if ← accept CodePoint.bar then
            let no ← sequence fuel verbose false []
            if (← peek?) = some (.char CodePoint.bar) then fail .thirdBranch 0
            close start
            return .piece (.single (.ifGroup n (Node.ofList yes) (Node.ofList no)))
          else
            close start
            return .piece (.single (.ifGroup n (Node.ofList yes) .empty))
        else if c = CodePoint.greater then
          return .piece (.single (.atomic (Node.ofList (← body fuel verbose start))))
        else if (flagOf? c).isSome || isByteFlag c || c = CodePoint.minus then
          match ← groupFlags? c with
          | none => return .wholeFlags
          | some (on, off) =>
            let items ← body fuel ((verbose || on.verbose) && !off.verbose) start
            return .piece (.single (.flagged on off (Node.ofList items)))
        else unknown
      | _ => unknown

/-- The rest of a group and its closing parenthesis. -/
def body (fuel : Nat) (verbose : Bool) (start : Nat) : Reader (List (Node Atom)) := do
  match fuel with
  | 0 => fail .unbalanced 0
  | fuel + 1 =>
    let items ← alternatives fuel verbose false []
    close start
    return items

/-- The rest of a group that captures. -/
def captured (fuel : Nat) (verbose : Bool) (start : Nat) (name : Option Text) : Reader Opened := do
  match fuel with
  | 0 => fail .unbalanced 0
  | fuel + 1 =>
    let n ← openGroup name
    let node := Node.ofList (← body fuel verbose start)
    closeGroup n node
    return .piece (.single (.group n node))

end

end Reader

/-- An expression as written, with the flags that hold for all of it. -/
structure Expression where
  tree : Node Atom
  flags : Flags
  /-- The number of groups, the whole expression included. -/
  groups : Nat

/-- The character set of the expression: that of the basic alphabet if asked for, and
    not together with the full one. -/
def settleFlags (f : Flags) : Except Failure Flags :=
  if !f.ascii then .ok { f with unicode := true }
  else if f.unicode then .error .badValue
  else .ok f

/-- Read an expression with the flags given beside it. -/
def read (flags : Flags) (t : Text) : Except Failure Expression := do
  let tokens := Token.ofText t
  let reader : Reader (List (Node Atom)) := do
    Reader.moveTo tokens
    Reader.alternatives (8 * tokens.length + 8) flags.verbose true []
  let (items, s) ← reader.run { size := t.length, tokens, flags }
  let flags ← settleFlags s.flags
  unless s.tokens.isEmpty do
    throw (.malformed .unbalanced (some (t.length - Token.sizeOfAll s.tokens)))
  match s.asked.reverse.find? fun (n, _) => s.widths.size ≤ n with
  | some (n, place) => throw (.malformed (.noGroup n) (some place))
  | none => return { tree := Node.ofList items, flags, groups := s.widths.size }

end NoteAccess.Regex
