/-
  NoteAccess.Regex.Syntax

  Regular expressions as trees.  `Node` is the shape they share: sequence,
  alternation, groups, loops, assertions and conditions over some kind of leaf.
  As written, the leaves are `Atom`s, whose meaning still depends on the flags.

  `Node.width` gives the least and greatest length that a tree can match.
-/

import NoteAccess.Regex.Flaw

namespace NoteAccess.Regex

/-- Switches of an expression. -/
structure Flags where
  ignoreCase : Bool := false
  multiline : Bool := false
  dotAll : Bool := false
  verbose : Bool := false
  ascii : Bool := false
  unicode : Bool := false
  template : Bool := false
  deriving DecidableEq, Repr

namespace Flags

/-- The switches of either. -/
def union (f g : Flags) : Flags where
  ignoreCase := f.ignoreCase || g.ignoreCase
  multiline := f.multiline || g.multiline
  dotAll := f.dotAll || g.dotAll
  verbose := f.verbose || g.verbose
  ascii := f.ascii || g.ascii
  unicode := f.unicode || g.unicode
  template := f.template || g.template

/-- The switches of `f` that are not in `g`. -/
def without (f g : Flags) : Flags where
  ignoreCase := f.ignoreCase && !g.ignoreCase
  multiline := f.multiline && !g.multiline
  dotAll := f.dotAll && !g.dotAll
  verbose := f.verbose && !g.verbose
  ascii := f.ascii && !g.ascii
  unicode := f.unicode && !g.unicode
  template := f.template && !g.template

/-- Whether the two have a switch in common. -/
def meets (f g : Flags) : Bool :=
  (f.ignoreCase && g.ignoreCase) || (f.multiline && g.multiline) || (f.dotAll && g.dotAll) ||
    (f.verbose && g.verbose) || (f.ascii && g.ascii) || (f.unicode && g.unicode) ||
    (f.template && g.template)

/-- The flags inside a group that turns some on and some off; a choice of character
    set replaces the one outside. -/
def inside (f on off : Flags) : Flags :=
  let f := if on.ascii || on.unicode then { f with ascii := false, unicode := false } else f
  (f.union on).without off

end Flags

/-- A class of code points with a letter of its own. -/
inductive Category where
  | digit
  | blank
  | word
  deriving DecidableEq, Repr

/-- A member of a set in brackets. -/
inductive SetItem where
  | single (c : CodePoint)
  | range (lo hi : CodePoint)
  | category (k : Category) (negated : Bool)
  deriving DecidableEq, Repr

/-- A place in the text. -/
inductive Anchor where
  | textStart
  | textEnd
  | lineStart
  | lineEnd
  | wordEdge
  | notWordEdge
  deriving DecidableEq, Repr

/-- A leaf of an expression as written. -/
inductive Atom where
  | char (c : CodePoint)
  | notChar (c : CodePoint)
  | any
  | set (negated : Bool) (items : List SetItem)
  | anchor (a : Anchor)
  | backref (group : Nat)
  deriving DecidableEq, Repr

/-- How a loop chooses among the possible numbers of rounds. -/
inductive Greed where
  /-- As many as possible first. -/
  | greedy
  /-- As few as possible first. -/
  | lazy
  /-- As many as possible, and no other number. -/
  | possessive
  deriving DecidableEq, Repr

/-- What messages call a loop that chooses so. -/
def Greed.name : Greed → Text
  | greedy => "MAX_REPEAT"
  | .lazy => "MIN_REPEAT"
  | possessive => "POSSESSIVE_REPEAT"

/-- The tree of an expression with leaves in `α`. -/
inductive Node (α : Type) where
  | leaf (a : α)
  | empty
  | seq (first second : Node α)
  | alt (first second : Node α)
  | group (number : Nat) (body : Node α)
  | flagged (on off : Flags) (body : Node α)
  | loop (greed : Greed) (min : Nat) (max : Option Nat) (body : Node α)
  | atomic (body : Node α)
  | ahead (negated : Bool) (body : Node α)
  | behind (negated : Bool) (width : Option Nat) (body : Node α)
  | ifGroup (number : Nat) (yes no : Node α)
  deriving DecidableEq

namespace Node

variable {α : Type}

/-- A sequence of nodes. -/
def ofList : List (Node α) → Node α
  | [] => empty
  | [n] => n
  | n :: rest => seq n (ofList rest)

/-- A choice between nodes, the first one tried first. -/
def ofChoices : List (Node α) → Node α
  | [] => empty
  | [n] => n
  | n :: rest => alt n (ofChoices rest)

end Node

/-- Widths are cut off here. -/
def maxWidth : Nat := 0x10000000000000000

/-- The least and the greatest length of a leaf, given those of the closed groups. -/
def Atom.width (groups : Nat → Nat × Nat) : Atom → Nat × Nat
  | .anchor _ => (0, 0)
  | .backref n => groups n
  | _ => (1, 1)

/-- The least and the greatest length that a tree matches, before the cut. -/
def Node.rawWidth (groups : Nat → Nat × Nat) : Node Atom → Nat × Nat
  | leaf a => a.width groups
  | empty => (0, 0)
  | seq a b =>
    let (lo, hi) := rawWidth groups a
    let (lo', hi') := rawWidth groups b
    (lo + lo', hi + hi')
  | alt a b =>
    let (lo, hi) := rawWidth groups a
    let (lo', hi') := rawWidth groups b
    (min lo lo', max hi hi')
  | group _ a | flagged _ _ a | atomic a =>
    let (lo, hi) := rawWidth groups a
    (min lo maxWidth, min hi maxWidth)
  | loop _ least most a =>
    let (lo, hi) := rawWidth groups a
    let (lo, hi) := (min lo maxWidth, min hi maxWidth)
    (lo * least, match most with
      | none => if hi = 0 then 0 else maxWidth
      | some n => hi * n)
  | ahead .. | behind .. => (0, 0)
  | ifGroup _ a b =>
    let (lo, hi) := rawWidth groups a
    let (lo', hi') := rawWidth groups b
    (min lo lo', max hi hi')

/-- The least and the greatest length that a tree matches. -/
def Node.width (groups : Nat → Nat × Nat) (n : Node Atom) : Nat × Nat :=
  let (lo, hi) := n.rawWidth groups
  (min lo maxWidth, min hi maxWidth)

end NoteAccess.Regex
