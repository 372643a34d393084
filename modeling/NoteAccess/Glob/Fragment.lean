/-
  NoteAccess.Glob.Fragment

  The parts of a glob: each takes a beginning of the text, and a list of parts
  matches a text that they take up completely.

  * `Fragment.rests f t` — what can remain of `t` after the part `f`.
  * `matchAll fs t` — whether the parts take up the whole of `t`.
  * `Fragment.source f` — the part as a regular expression.
-/

import NoteAccess.Text

namespace NoteAccess.Glob

/-- A part of a glob. -/
inductive Fragment where
  /-- One code point, itself. -/
  | literal (c : CodePoint)
  /-- A single code point other than the separator. -/
  | one
  /-- Any run of code points other than the separator. -/
  | run
  /-- A code point that is in a set, and not the separator. -/
  | oneOf (body : Text)
  /-- A code point outside a set, and not the separator. -/
  | noneOf (body : Text)
  /-- The separator between two segments. -/
  | separator
  /-- Any text. -/
  | anything
  /-- Nothing, or any text that ends with a separator. -/
  | folders
  /-- Nothing, or any text that begins with a separator. -/
  | below
  deriving DecidableEq, Repr

/-! ## Character classes -/

/-- The ranges of a class body: two code points around a `-`, or one by itself; none
    if the ends of a range are in the wrong order. -/
def classRanges? : Text → Option (List (CodePoint × CodePoint))
  | [] => some []
  | [c] => some [(c, c)]
  | [c, d] => some [(c, c), (d, d)]
  | c :: d :: e :: rest =>
    if d = CodePoint.minus then
      if e < c then none else (classRanges? rest).map ((c, e) :: ·)
    else (classRanges? (d :: e :: rest)).map ((c, c) :: ·)

/-- Whether a code point is in one of the ranges. -/
def inRanges (ranges : List (CodePoint × CodePoint)) (c : CodePoint) : Bool :=
  ranges.any fun (lo, hi) => lo ≤ c && c ≤ hi

/-- The body of the negated class, in which the separator comes first. -/
def negatedBody (body : Text) : Text := CodePoint.slash :: body

/-- Whether the part can be used: the ranges of a class are in order. -/
def Fragment.isValid : Fragment → Bool
  | oneOf body => (classRanges? body).isSome
  | noneOf body => (classRanges? (negatedBody body)).isSome
  | _ => true

/-- Whether a code point is in the class with this body. -/
def inClass (body : Text) (c : CodePoint) : Bool :=
  match classRanges? body with
  | some ranges => inRanges ranges c
  | none => false

/-! ## Matching -/

/-- A text and what is left of it after each of its beginnings. -/
def suffixes : Text → List Text
  | [] => [[]]
  | c :: t => (c :: t) :: suffixes t

/-- What is left after each separator of a text. -/
def afterSeparators : Text → List Text
  | [] => []
  | c :: t => if c = CodePoint.slash then t :: afterSeparators t else afterSeparators t

/-- A text and what is left of it after each beginning without a separator. -/
def withinSegment : Text → List Text
  | [] => [[]]
  | c :: t => if c = CodePoint.slash then [c :: t] else (c :: t) :: withinSegment t

/-- What is left after one code point that satisfies `p`. -/
def afterOne (p : CodePoint → Bool) : Text → List Text
  | [] => []
  | c :: t => if p c then [t] else []

/-- What can remain of a text after the part has taken a beginning of it. -/
def Fragment.rests : Fragment → Text → List Text
  | literal c => afterOne (· == c)
  | one => afterOne (· != CodePoint.slash)
  | run => withinSegment
  | oneOf body => afterOne fun c => c != CodePoint.slash && inClass body c
  | noneOf body => afterOne fun c => !inClass (negatedBody body) c
  | separator => afterOne (· == CodePoint.slash)
  | anything => suffixes
  | folders => fun t => t :: afterSeparators t
  | below => fun t =>
    match t with
    | [] => [[]]
    | c :: rest => if c = CodePoint.slash then (c :: rest) :: suffixes rest else [c :: rest]

/-- Whether the parts, one after the other, take up the whole text. -/
def matchAll : List Fragment → Text → Bool
  | [], t => t.isEmpty
  | f :: fs, t => (f.rests t).any (matchAll fs)

/-! ## As a regular expression -/

/-- The code points that a regular expression may give a meaning of their own. -/
def specials : Text := "()[]\x7b\x7d?*+-|^$\\.&~# \t\n\r\x0b\x0c"

/-- A code point that stands for itself in a regular expression. -/
def escaped (c : CodePoint) : Text := if specials.contains c then [CodePoint.backslash, c] else [c]

/-- The body of a class; its ranges keep their `-`. -/
def escapedBody (body : Text) : Text :=
  body.flatMap fun c => if c = CodePoint.minus then [c] else escaped c

/-- The part as a regular expression. -/
def Fragment.source : Fragment → Text
  | literal c => escaped c
  | one => "[^/]"
  | run => "[^/]*"
  | oneOf body => "(?!/)[" ++ escapedBody body ++ "]"
  | noneOf body => "[^" ++ escapedBody (negatedBody body) ++ "]"
  | separator => "/"
  | anything => ".*"
  | folders => "(?:.*/)?"
  | below => "(?:/.*)?"

end NoteAccess.Glob
