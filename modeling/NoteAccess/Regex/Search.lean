/-
  NoteAccess.Regex.Search

  Matching by trying alternatives in order.  A tree is matched from a state, the
  position and the marks of the groups, and what follows it is a continuation:
  the first state from which everything after it succeeds is the result.

  A loop below its least number of rounds always goes on; above it, a round may
  not begin where the round before it began, so that every loop ends.
-/

import NoteAccess.Regex.Program

namespace NoteAccess.Regex

/-- A position in the text with the marks where groups begin and end. -/
structure State where
  pos : Nat
  /-- At `2 * n` the beginning of group `n`, at `2 * n + 1` its end. -/
  marks : Array (Option Nat)

/-- What follows: the state in which everything has succeeded, if it does. -/
abbrev Next := State → Option State

/-- Matching from a state with what follows. -/
abbrev Matcher := State → Next → Option State

namespace State

/-- The state at another position. -/
def at_ (s : State) (pos : Nat) : State := { s with pos }

/-- The state with a mark at its position. -/
def mark (s : State) (i : Nat) : State := { s with marks := s.marks.setIfInBounds i (some s.pos) }

/-- The beginning and end of a group that has matched. -/
def span? (s : State) (n : Nat) : Option (Nat × Nat) :=
  match s.marks[2 * n]?.getD none, s.marks[2 * n + 1]?.getD none with
  | some a, some b => if a ≤ b then some (a, b) else none
  | _, _ => none

end State

/-! ## Leaves -/

/-- Whether the code point at a position belongs to a word. -/
def wordAt (text : Array CodePoint) (basic : Bool) (i : Nat) : Bool :=
  match text[i]? with
  | some c => Category.word.holds basic c
  | none => false

/-- Whether a position is the place asked for.  An empty text has no word edges, nor
    places that are none. -/
def Place.holds (text : Array CodePoint) (i : Nat) : Place → Bool
  | textStart => i == 0
  | textEnd => i == text.size
  | lineStart => i == 0 || text[i - 1]? == some CodePoint.newline
  | lineEnd => i == text.size || text[i]? == some CodePoint.newline
  | lastLineEnd => i == text.size || (i + 1 == text.size && text[i]? == some CodePoint.newline)
  | wordEdge basic negated =>
    text.size != 0 &&
      ((i != 0 && wordAt text basic (i - 1)) != wordAt text basic i) != negated

/-- Whether `count` code points from `i` and from `j` are the same under a folding. -/
def sameText (text : Array CodePoint) (f : Fold) (i j : Nat) : Nat → Bool
  | 0 => true
  | count + 1 =>
    match text[i]?, text[j]? with
    | some c, some d => f.apply c == f.apply d && sameText text f (i + 1) (j + 1) count
    | _, _ => false

/-- Whether the leaf takes the code point at a position. -/
def Step.takes (text : Array CodePoint) (i : Nat) : Step → Bool
  | any => i < text.size
  | one s => (text[i]?).any s.contains
  | _ => false

/-- Whether the leaf takes one code point. -/
def Step.isUnit : Step → Bool
  | any | one _ => true
  | _ => false

/-- Matching a leaf. -/
def Step.run (text : Array CodePoint) (x : Step) (s : State) (k : Next) : Option State :=
  match x with
  | place p => if p.holds text s.pos then k s else none
  | backref n f =>
    match s.span? n with
    | none => none
    | some (a, b) => if sameText text f a s.pos (b - a) then k (s.at_ (s.pos + (b - a))) else none
  | x => if x.takes text s.pos then k (s.at_ (s.pos + 1)) else none

/-! ## Loops -/

/-- The first result of `k` after `n`, `n - 1`, …, `least` code points. -/
def fewer (s : State) (k : Next) (least : Nat) : Nat → Option State
  | 0 => if least = 0 then k s else none
  | n + 1 =>
    if n + 1 < least then none
    else match k (s.at_ (s.pos + (n + 1))) with
      | some r => some r
      | none => fewer s k least n

/-- The first result of `k` after `n`, `n + 1`, …, code points, at most `fuel` more. -/
def more (s : State) (k : Next) (n : Nat) : Nat → Option State
  | 0 => k (s.at_ (s.pos + n))
  | fuel + 1 =>
    match k (s.at_ (s.pos + n)) with
    | some r => some r
    | none => more s k (n + 1) fuel

/-- How many code points from `i` on the leaf takes, at most `fuel`. -/
def runLength (text : Array CodePoint) (x : Step) (i : Nat) : Nat → Nat
  | 0 => 0
  | fuel + 1 => if x.takes text i then runLength text x (i + 1) fuel + 1 else 0

/-- A loop over a leaf that takes one code point. -/
def unitLoop (text : Array CodePoint) (x : Step) (g : Greed) (least : Nat) (most : Option Nat)
    (s : State) (k : Next) : Option State :=
  let room := text.size - s.pos
  let n := runLength text x s.pos (match most with | some m => min m room | none => room)
  if n < least then none
  else match g with
    | .greedy => fewer s k least n
    | .lazy => more s k least (n - least)
    | .possessive => k (s.at_ (s.pos + n))

/-- A loop after `count` rounds, the last free one of which began at `last`. -/
def rounds (body : Matcher) (g : Greed) (least : Nat) (most : Option Nat) :
    Nat → Nat → Option Nat → Matcher
  | 0, _, _, _, _ => none
  | fuel + 1, count, last, s, k =>
    if count < least then
      match g with
      | .possessive =>
        match body s some with
        | some s' => rounds body g least most fuel (count + 1) last s' k
        | none => none
      | _ => body s fun s' => rounds body g least most fuel (count + 1) last s' k
    else
      let mayGoOn := (match most with | some m => count < m | none => true) && last != some s.pos
      match g with
      | .greedy =>
        if mayGoOn then
          match body s fun s' => rounds body g least most fuel (count + 1) (some s.pos) s' k with
          | some r => some r
          | none => k s
        else k s
      | .lazy =>
        match k s with
        | some r => some r
        | none =>
          if mayGoOn then body s fun s' => rounds body g least most fuel (count + 1) (some s.pos) s' k
          else none
      | .possessive =>
        if mayGoOn then
          match body s some with
          | some s' => rounds body g least most fuel (count + 1) (some s.pos) s' k
          | none => k s
        else k s

/-! ## Trees -/

/-- Matching a tree. -/
def Node.run (text : Array CodePoint) : Node Step → Matcher
  | leaf x, s, k => x.run text s k
  | empty, s, k => k s
  | seq a b, s, k => a.run text s fun s' => b.run text s' k
  | alt a b, s, k =>
    match a.run text s k with
    | some r => some r
    | none => b.run text s k
  | group n a, s, k => a.run text (s.mark (2 * n)) fun s' => k (s'.mark (2 * n + 1))
  | flagged _ _ a, s, k => a.run text s k
  | loop g least most a, s, k =>
    match a with
    | leaf x =>
      if x.isUnit then unitLoop text x g least most s k
      else rounds (x.run text) g least most (least + text.size + 3) 0 none s k
    | a => rounds (a.run text) g least most (least + text.size + 3) 0 none s k
  | atomic a, s, k =>
    match a.run text s some with
    | some s' => k s'
    | none => none
  | ahead negated a, s, k =>
    match a.run text s some with
    | some s' => if negated then none else k (s'.at_ s.pos)
    | none => if negated then k s else none
  | behind negated width a, s, k =>
    match width with
    | none => none
    | some w =>
      if s.pos < w then (if negated then k s else none)
      else match a.run text (s.at_ (s.pos - w)) some with
        | some s' => if negated then none else k (s'.at_ s.pos)
        | none => if negated then k s else none
  | ifGroup n a b, s, k => if (s.span? n).isSome then a.run text s k else b.run text s k

/-- Whether the program matches from a position on, or from a later one. -/
def Program.searchFrom (p : Program) (text : Array CodePoint) (start : Nat) : Nat → Bool
  | 0 => false
  | fuel + 1 =>
    (p.tree.run text ⟨start, Array.replicate (2 * p.groups) none⟩ some).isSome ||
      searchFrom p text (start + 1) fuel

/-- Whether the program matches somewhere in the text. -/
def Program.search (p : Program) (t : Text) : Bool :=
  let text := t.toArray
  p.searchFrom text 0 (text.size + 1)

end NoteAccess.Regex
