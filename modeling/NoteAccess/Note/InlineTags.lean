/-
  NoteAccess.Note.InlineTags

  The tags written in the body of a note, outside of code.

  A tag follows a number sign that itself follows none of the characters that
  can be part of a tag, an anchor or a character reference.  It is the longest
  run of word characters, slashes and hyphens, and is not made of digits only.
-/

import NoteAccess.Text.Word

namespace NoteAccess.InlineTags

/-! ## Code -/

/-- The marks that enclose a block of code. -/
def codeFences : List Text := [List.replicate 3 CodePoint.backtick, List.replicate 3 CodePoint.tilde]

/-- What follows the closing fence of a block of code: its line, from the end of the marks
    and the blanks after them. -/
def afterFence? (fence : Text) : Text → Option Text
  | [] => none
  | c :: rest =>
    let closed : Option Text :=
      if c = CodePoint.newline then
        (Text.dropLead? fence rest).bind fun after =>
          let after := after.dropWhile fun c => c == CodePoint.space || c == CodePoint.tab
          if after.isEmpty || after.head? == some CodePoint.newline then some after else none
      else none
    match closed with
    | some after => some after
    | none => afterFence? fence rest

/-- What follows the block of code that begins here, if one does. -/
def afterBlock? (t : Text) : Option Text :=
  codeFences.findSome? fun fence => (Text.dropLead? fence t).bind (afterFence? fence)

/-- The text without blocks of code; `lineStart` tells whether a line begins here, and
    `seen` is what has been kept, in reverse. -/
def dropBlocks (lineStart : Bool) (seen : Text) : Nat → Text → Text
  | 0, t => seen.reverse ++ t
  | _ + 1, [] => seen.reverse
  | fuel + 1, c :: rest =>
    match if lineStart then afterBlock? (c :: rest) else none with
    | some after => dropBlocks false seen fuel after
    | none => dropBlocks (c == CodePoint.newline) (c :: seen) fuel rest

/-- What follows the code in a line that begins after a backtick, if it ends in the line. -/
def afterSpan? (t : Text) : Option Text :=
  match t.dropWhile fun c => c != CodePoint.backtick && c != CodePoint.newline with
  | CodePoint.backtick :: after => some after
  | _ => none

/-- The text without code inside lines; `seen` is what has been kept, in reverse. -/
def dropSpans (seen : Text) : Nat → Text → Text
  | 0, t => seen.reverse ++ t
  | _ + 1, [] => seen.reverse
  | fuel + 1, c :: rest =>
    match if c = CodePoint.backtick then afterSpan? rest else none with
    | some after => dropSpans seen fuel after
    | none => dropSpans (c :: seen) fuel rest

/-- The text without code. -/
def dropCode (body : Text) : Text :=
  let t := dropBlocks true [] body.length body
  dropSpans [] t.length t

/-! ## Tags -/

/-- The code points of a tag. -/
def isTagPart (c : CodePoint) : Bool := c.isWord || c == CodePoint.slash || c == CodePoint.minus

/-- The code points that make a run a tag: those of words, except digits. -/
def isTagCore (c : CodePoint) : Bool := c.isWord && !c.isDigit

/-- The code points after which a number sign begins no tag. -/
def blocksTag (c : CodePoint) : Bool :=
  c.isWord || c == CodePoint.hash || c == CodePoint.slash || c == CodePoint.ampersand

/-- The tags of a text without code; `free` tells whether a tag may begin here, and
    `seen` are the tags before, in reverse. -/
def scan (free : Bool) (seen : List Text) : Text → List Text
  | [] => seen.reverse
  | c :: rest =>
    let run := rest.takeWhile isTagPart
    let seen := if c = CodePoint.hash && free && run.any isTagCore then run :: seen else seen
    scan (!blocksTag c) seen rest

/-- The tags written in a body, in order. -/
def ofBody (body : Text) : List Text := scan true [] (dropCode body)

end NoteAccess.InlineTags
