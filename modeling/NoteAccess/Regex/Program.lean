/-
  NoteAccess.Regex.Program

  An expression ready for matching: its flags are settled in the leaves, and each
  look behind knows how far it reaches back.
-/

import NoteAccess.Regex.Charset
import NoteAccess.Regex.Reader

namespace NoteAccess.Regex

/-- A place in the text, with the flags settled. -/
inductive Place where
  | textStart
  | textEnd
  | lineStart
  | lineEnd
  /-- The end of the text or before a line feed that ends it. -/
  | lastLineEnd
  | wordEdge (basic negated : Bool)
  deriving DecidableEq, Repr

/-- A leaf ready for matching. -/
inductive Step where
  /-- Any code point. -/
  | any
  /-- One code point of a set. -/
  | one (s : Charset)
  | place (p : Place)
  /-- What a group has matched, compared under a folding. -/
  | backref (group : Nat) (f : Fold)
  deriving DecidableEq

/-- The place that an anchor means under the flags. -/
def Anchor.place (flags : Flags) : Anchor → Place
  | textStart => .textStart
  | textEnd => .textEnd
  | lineStart => if flags.multiline then .lineStart else .textStart
  | lineEnd => if flags.multiline then .lineEnd else .lastLineEnd
  | wordEdge => .wordEdge flags.ascii false
  | notWordEdge => .wordEdge flags.ascii true

/-- What a leaf means under the flags. -/
def Atom.step (flags : Flags) : Atom → Step
  | char c => .one (.ofChar flags false c)
  | notChar c => .one (.ofChar flags true c)
  | any =>
    if flags.dotAll then .any
    else .one { negated := true, fold := .keep, members := [.point CodePoint.newline] }
  | set negated items => .one (.ofItems flags negated items)
  | anchor a => .place (a.place flags)
  | backref n => .backref n (.ofFlags flags)

/-- The tree with its flags settled.  A look behind needs a body of one length, and
    template expressions have no loops. -/
def Node.settle (flags : Flags) : Node Atom → Except Failure (Node Step)
  | leaf a => .ok (.leaf (a.step flags))
  | empty => .ok .empty
  | seq a b => return .seq (← settle flags a) (← settle flags b)
  | alt a b => return .alt (← settle flags a) (← settle flags b)
  | group n a => return .group n (← settle flags a)
  | flagged on off a => settle (flags.inside on off) a
  | loop g least most a => do
    if flags.template then throw (.malformed (.templateLoop g.name) none)
    return .loop g least most (← settle flags a)
  | atomic a => return .atomic (← settle flags a)
  | ahead negated a => return .ahead negated (← settle flags a)
  | behind negated width a =>
    match width with
    | none => .error (.malformed .variableBehind none)
    | some w => return .behind negated (some w) (← settle flags a)
  | ifGroup n a b => return .ifGroup n (← settle flags a) (← settle flags b)

/-- An expression ready for matching. -/
structure Program where
  tree : Node Step
  /-- The number of groups, the whole expression included. -/
  groups : Nat
  deriving DecidableEq

/-- The program of an expression with the flags given beside it. -/
def compile (flags : Flags) (t : Text) : Except Failure Program := do
  let e ← read flags t
  return { tree := ← e.tree.settle e.flags, groups := e.groups }

end NoteAccess.Regex
