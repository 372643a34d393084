/-
  NoteAccess.Yaml.Node

  The tree of a YAML document.  Each node has a meaning, given by its tag or by
  the way it is written; an alias is the node that its anchor names.
-/

import NoteAccess.Stack
import NoteAccess.Yaml.Scalar

namespace NoteAccess.Yaml

/-- A node of a document.  A mapping is told from all other ones of the document by its
    position. -/
inductive Node where
  | scalar (m : Meaning) (t : Text)
  | sequence (m : Meaning) (items : List Node)
  | mapping (m : Meaning) (position : Nat) (entries : List (Node × Node))

/-- The node of a place where nothing is written. -/
def Node.empty : Node := .scalar .null []

/-- The meaning of a node. -/
def Node.meaning : Node → Meaning
  | scalar m _ | sequence m _ | mapping m _ _ => m

/-- The tokens still to be read, the handles of tags and the anchors seen. -/
structure Assembly where
  rest : List Token
  handles : List (Text × Text) := []
  /-- The nodes of anchors; a node that is still being read is absent. -/
  anchors : List (Text × Option Node) := []

/-- A step of building the tree. -/
abbrev Assembler := StateT Assembly (Except Failure)

namespace Assembler

/-- The document is not well formed. -/
def fail {α : Type} : Assembler α := throw .malformed

/-- The token at hand; none at the end. -/
def head : Assembler (Option Token) := return (← get).rest.head?

/-- How many tokens there are still to be read. -/
def position : Assembler Nat := return (← get).rest.length

/-- Move over a token. -/
def advance : Assembler Unit := modify fun s => { s with rest := s.rest.drop 1 }

/-- Move over the token at hand, which must be this one. -/
def expect (t : Token) : Assembler Unit := do
  if (← head) == some t then advance else fail

/-- Whether the token at hand is one of these. -/
def atAny (ts : List Token) : Assembler Bool := do
  match ← head with
  | some t => return ts.contains t
  | none => return false

/-! ## Properties of a node -/

/-- The anchor and the tag in front of a node, in either order. -/
def properties : Assembler (Option Text × Option (Option Text × Text)) := do
  match ← head with
  | some (.anchor name) =>
    advance
    match ← head with
    | some (.tag handle suffix) =>
      advance
      return (some name, some (handle, suffix))
    | _ => return (some name, none)
  | some (.tag handle suffix) =>
    advance
    match ← head with
    | some (.anchor name) =>
      advance
      return (some name, some (handle, suffix))
    | _ => return (none, some (handle, suffix))
  | _ => return (none, none)

/-- A tag with its handle replaced by what it stands for. -/
def expandTag (handle : Option Text) (suffix : Text) : Assembler Text := do
  match handle with
  | none => return suffix
  | some h =>
    match (← get).handles.lookup h with
    | some lead => return lead ++ suffix
    | none => fail

/-- The meaning of a scalar; a lone exclamation mark as its tag makes it plain. -/
def scalarMeaning (tag : Option Text) (plain : Bool) (t : Text) : Meaning :=
  match tag with
  | none => if plain then .ofPlain t else .text
  | some tag => if tag == "!" then .ofPlain t else .ofTag tag

/-- The meaning of a collection; a lone exclamation mark as its tag has no effect. -/
def collectionMeaning (tag : Option Text) (untagged : Meaning) : Meaning :=
  match tag with
  | none => untagged
  | some tag => if tag == "!" then untagged else .ofTag tag

/-- The node of an anchor, which must have been read: no node is inside itself here. -/
def find (name : Text) : Assembler Node := do
  match (← get).anchors.lookup name with
  | some (some n) => return n
  | some none => throw (.fault .tooDeep Stack.exceeded)
  | none => fail

/-- Build a node and remember it under its anchor, which must be a new one. -/
def underAnchor (anchor : Option Text) (build : Assembler Node) : Assembler Node := do
  match anchor with
  | none => build
  | some name =>
    if ((← get).anchors.lookup name).isSome then fail
    modify fun s => { s with anchors := (name, none) :: s.anchors }
    let n ← build
    modify fun s => { s with anchors := (name, some n) :: s.anchors }
    return n

/-! ## Nodes -/

mutual

/-- A node; `block` allows block collections, and `hanging` a sequence whose entries are
    not indented. -/
def node (block hanging : Bool) : Nat → Assembler Node
  | 0 => fail
  | fuel + 1 => do
    match ← head with
    | some (.alias name) =>
      advance
      find name
    | _ =>
      let (anchor, written) ← properties
      let tag ← match written with
        | some (handle, suffix) => do pure (some (← expandTag handle suffix))
        | none => pure none
      underAnchor anchor do
        let ofItems := collectionMeaning tag .sequence
        let ofEntries := collectionMeaning tag .mapping
        match ← head with
        | some .blockEntry =>
          if hanging then return .sequence ofItems (← hangingItems fuel)
          else if anchor.isSome || tag.isSome then return .scalar (scalarMeaning tag true []) []
          else fail
        | some (.scalar plain t) =>
          advance
          return .scalar (scalarMeaning tag plain t) t
        | some .flowSequenceStart =>
          advance
          return .sequence ofItems (← flowItems true fuel)
        | some .flowMappingStart =>
          advance
          return .mapping ofEntries (← position) (← flowEntries true fuel)
        | t =>
          if block && t == some .blockSequenceStart then
            advance
            return .sequence ofItems (← blockItems fuel)
          else if block && t == some .blockMappingStart then
            advance
            return .mapping ofEntries (← position) (← blockEntries fuel)
          else if anchor.isSome || tag.isSome then return .scalar (scalarMeaning tag true []) []
          else fail

/-- The items of a block sequence up to its end. -/
def blockItems : Nat → Assembler (List Node)
  | 0 => fail
  | fuel + 1 => do
    match ← head with
    | some .blockEntry =>
      advance
      let item ← if ← atAny [.blockEntry, .blockEnd] then pure Node.empty else node true false fuel
      return item :: (← blockItems fuel)
    | _ =>
      expect .blockEnd
      return []

/-- The items of a sequence whose entries are not indented. -/
def hangingItems : Nat → Assembler (List Node)
  | 0 => fail
  | fuel + 1 => do
    match ← head with
    | some .blockEntry =>
      advance
      let item ← if ← atAny [.blockEntry, .key, .value, .blockEnd] then pure Node.empty
        else node true false fuel
      return item :: (← hangingItems fuel)
    | _ => return []

/-- The entries of a block mapping up to its end.  What follows the sign of a key may be
    missing, and so may the value. -/
def blockEntries : Nat → Assembler (List (Node × Node))
  | 0 => fail
  | fuel + 1 => do
    let part : Assembler Node := do
      advance
      if ← atAny [.key, .value, .blockEnd] then pure Node.empty else node true true fuel
    match ← head with
    | some .key => do
      let k ← part
      let v ← if ← atAny [.value] then part else pure Node.empty
      return (k, v) :: (← blockEntries fuel)
    | _ =>
      expect .blockEnd
      return []

/-- The items of a flow sequence up to its end.  A key in it begins a mapping of a single
    entry. -/
def flowItems (first : Bool) : Nat → Assembler (List Node)
  | 0 => fail
  | fuel + 1 => do
    if ← atAny [.flowSequenceEnd] then
      advance
      return []
    else
      unless first do expect .flowEntry
      match ← head with
      | some .key =>
        advance
        let start ← position
        let k ← if ← atAny [.value, .flowEntry, .flowSequenceEnd] then pure Node.empty
          else node false false fuel
        let v ← if ← atAny [.value] then do
            advance
            if ← atAny [.flowEntry, .flowSequenceEnd] then pure Node.empty else node false false fuel
          else pure Node.empty
        return .mapping .mapping start [(k, v)] :: (← flowItems false fuel)
      | some .flowSequenceEnd =>
        advance
        return []
      | _ =>
        let item ← node false false fuel
        return item :: (← flowItems false fuel)

/-- The entries of a flow mapping up to its end; keys and values may be missing. -/
def flowEntries (first : Bool) : Nat → Assembler (List (Node × Node))
  | 0 => fail
  | fuel + 1 => do
    if ← atAny [.flowMappingEnd] then
      advance
      return []
    else
      unless first do expect .flowEntry
      match ← head with
      | some .key =>
        advance
        let k ← if ← atAny [.value, .flowEntry, .flowMappingEnd] then pure Node.empty
          else node false false fuel
        let v ← if ← atAny [.value] then do
            advance
            if ← atAny [.flowEntry, .flowMappingEnd] then pure Node.empty else node false false fuel
          else pure Node.empty
        return (k, v) :: (← flowEntries false fuel)
      | some .flowMappingEnd =>
        advance
        return []
      | _ =>
        let k ← node false false fuel
        return (k, Node.empty) :: (← flowEntries false fuel)

end

/-! ## Documents -/

/-- The handles that need no directive. -/
def ownHandles : List (Text × Text) := [("!", "!"), ("!!", coreLead)]

/-- The directives in front of a document. -/
def directives (seenVersion : Bool) : Nat → Assembler Unit
  | 0 => fail
  | fuel + 1 => do
    match ← head with
    | some (.directive d) =>
      advance
      match d with
      | .version major =>
        if seenVersion || major != 1 then fail
        directives true fuel
      | .handle name lead =>
        if ((← get).handles.lookup name).isSome then fail
        modify fun s => { s with handles := (name, lead) :: s.handles }
        directives seenVersion fuel
      | .other => directives seenVersion fuel
    | _ => return ()

/-- The only document of a text; none if the text holds nothing. -/
def document (fuel : Nat) : Assembler (Option Node) := do
  if (← head).isNone then return none
  let root ← match ← head with
    | some (.directive _) | some .documentStart => do
      directives false fuel
      expect .documentStart
      modify fun s => { s with handles := s.handles ++ ownHandles }
      match ← head with
      | none | some (.directive _) | some .documentStart | some .documentEnd => pure Node.empty
      | _ => node true false fuel
    | _ => do
      modify fun s => { s with handles := ownHandles }
      node true false fuel
  modify fun s => { s with rest := s.rest.dropWhile (· == .documentEnd) }
  if (← head).isSome then fail
  return some root

end Assembler

/-- The tree of a text; none if the text holds nothing. -/
def Node.ofText (t : Text) : Except Failure (Option Node) := do
  let tokens ← Token.ofText t
  (Assembler.document (2 * tokens.length + 2)).run' { rest := tokens }

end NoteAccess.Yaml
