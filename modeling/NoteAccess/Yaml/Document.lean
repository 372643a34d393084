/-
  NoteAccess.Yaml.Document

  The value of a YAML document.

  Entries of a merge key come before the entries written in the mapping itself,
  so that the latter replace them.  Of several scalars without a value the one
  that is nested least deeply counts, and of those the first.

  A mapping with an alias is one mapping that stands at several places.

  This is the loader that the program is run with (`Loader.own`).  Its values are trees: it
  does not read documents in which a collection has itself inside.
-/

import NoteAccess.Text.Encoding
import NoteAccess.Yaml.Node

namespace NoteAccess.Yaml

/-! ## Mappings -/

mutual

/-- The entries of a mapping with those of its merge keys put in front. -/
def mergedEntries : Nat → List (Node × Node) → Except Failure (List (Node × Node))
  | 0, _ => .error .malformed
  | fuel + 1, entries => do
    let merged ← entries.filterMapM fun (k, v) =>
      if k.meaning = .merge then return some (← mergeSource fuel v) else return none
    let own := (entries.filter fun (k, _) => k.meaning ≠ .merge).map fun (k, v) =>
      match k with
      | .scalar .content t => (Node.scalar .text t, v)
      | k => (k, v)
    return merged.flatten ++ own

/-- The entries that the value of a merge key gives; of several mappings the first one
    comes last. -/
def mergeSource : Nat → Node → Except Failure (List (Node × Node))
  | 0, _ => .error .malformed
  | fuel + 1, n =>
    match n with
    | .mapping _ _ entries => mergedEntries fuel entries
    | .sequence _ items => do
      let sources ← items.mapM fun item =>
        match item with
        | .mapping _ _ entries => mergedEntries fuel entries
        | _ => .error .malformed
      return sources.reverse.flatten
    | .scalar .. => .error .malformed

end

/-- The text of a node: of a scalar, or of the value that stands for a mapping. -/
def scalarText : Nat → Node → Except Failure Text
  | 0, _ => .error .malformed
  | fuel + 1, n =>
    match n with
    | .scalar _ t => .ok t
    | .mapping _ _ entries =>
      match entries.find? fun (k, _) => k.meaning = .content with
      | some (_, v) => scalarText fuel v
      | none => .error .malformed
    | .sequence .. => .error .malformed

/-! ## Values -/

/-- A failure with the depth at which it is met. -/
abbrev Deep := Except (Nat × Failure)

/-- Both results; of two failures the one that is nested less deeply, or the first. -/
def both {α β : Type} : Deep α → Deep β → Deep (α × β)
  | .ok a, .ok b => .ok (a, b)
  | .error e, .ok _ => .error e
  | .ok _, .error f => .error f
  | .error e, .error f => .error (if e.1 ≤ f.1 then e else f)

/-- The results of all. -/
def every {α : Type} : List (Deep α) → Deep (List α)
  | [] => .ok []
  | a :: rest => (both a (every rest)).map fun (a, rest) => a :: rest

/-- A result at a depth. -/
def atDepth {α : Type} (depth : Nat) (r : Except Failure α) : Deep α := r.mapError (depth, ·)

/-- Whether a node stands for a collection, which is no key. -/
def isCollection (n : Node) : Bool :=
  match n.meaning with
  | .sequence | .mapping | .set | .pairs => true
  | _ => false

mutual

/-- The value of a node at a depth. -/
def valueAt (depth : Nat) : Nat → Node → Deep Value
  | 0, _ => .error (depth, .malformed)
  | fuel + 1, n =>
    let scalar (f : Text → Except Failure Value) : Deep Value :=
      atDepth depth (do f (← scalarText (fuel + 1) n))
    match n.meaning with
    | .null => scalar fun _ => .ok .null
    | .bool => scalar boolValue
    | .int => scalar intValue
    | .float => scalar floatValue
    | .text => scalar fun t => .ok (.text t)
    | .bytes => scalar bytesValue
    | .time => scalar fun t =>
      match n with
      | .scalar .. => timeValue t
      | _ => .error (.fault .wrongKind "expected string or bytes-like object")
    | .merge | .content | .unknown => .error (depth, .malformed)
    | .sequence =>
      match n with
      | .sequence _ items => (every (items.map fun item => valueAt (depth + 1) fuel item)).map .list
      | _ => .error (depth + 1, .malformed)
    | .mapping => (entriesAt depth fuel n).map .dict
    | .set => (entriesAt depth fuel n).map fun entries => .set (entries.map (·.1))
    | .pairs =>
      match n with
      | .sequence _ items => (every (items.map fun item => pairAt depth fuel item)).map .list
      | _ => .error (depth + 1, .malformed)

/-- The entries of a mapping, a later entry of a key replacing an earlier one. -/
def entriesAt (depth : Nat) : Nat → Node → Deep (List (Value × Value))
  | 0, _ => .error (depth, .malformed)
  | fuel + 1, n =>
    match n with
    | .mapping _ _ entries => do
      let entries ← atDepth (depth + 1) (mergedEntries fuel entries)
      let values ← every (entries.map fun (k, v) =>
        both
          (if isCollection k then .error (depth + 1, .malformed) else valueAt (depth + 1) fuel k)
          (valueAt (depth + 1) fuel v))
      return Value.ofEntries values
    | _ => .error (depth + 1, .malformed)

/-- The pair that a mapping of one entry stands for. -/
def pairAt (depth : Nat) : Nat → Node → Deep Value
  | 0, _ => .error (depth, .malformed)
  | fuel + 1, n =>
    match n with
    | .mapping _ _ [(k, v)] =>
      (both (valueAt (depth + 1) fuel k) (valueAt (depth + 1) fuel v)).map fun (k, v) => .tuple [k, v]
    | _ => .error (depth + 1, .malformed)

end

/-- The value of a text; null if it holds nothing. -/
def load (t : Text) : Except Failure Value := do
  match ← Node.ofText t with
  | none => return .null
  | some root => (valueAt 0 (4 * t.length + 8) root).mapError (·.2)

/-! ## Shared mappings -/

/-- The values of keys, without the entries that later ones with the same key replace. -/
def lastEntries : List (Value × Node) → List (Value × Node)
  | [] => []
  | (k, n) :: rest => if rest.any (k.sameKey ·.1) then lastEntries rest else (k, n) :: lastEntries rest

/-- The mappings in the value of a node, each by its position, with the trails to them. -/
def mappingsIn : Nat → Node → List (Nat × Value.Trail)
  | 0, _ => []
  | fuel + 1, n =>
    let inside (step : Value.Step) (n : Node) :=
      (mappingsIn fuel n).map fun (position, trail) => (position, step :: trail)
    match n.meaning, n with
    | .mapping, .mapping _ position entries =>
      let entries := ((mergedEntries fuel entries).toOption.getD []).filterMap fun (k, v) =>
        (valueAt 0 fuel k).toOption.map (·, v)
      (position, []) :: (lastEntries entries).flatMap fun (k, v) => inside (.key k) v
    | .sequence, .sequence _ items => items.zipIdx.flatMap fun (item, i) => inside (.item i) item
    | .pairs, .sequence _ items =>
      items.zipIdx.flatMap fun (item, i) =>
        match item with
        | .mapping _ _ [(_, v)] => (inside (.item 1) v).map fun (position, trail) => (position, .item i :: trail)
        | _ => []
    | _, _ => []

/-- Where the mappings stand that have more than one place in the value of a text. -/
def sharing (t : Text) : Value.Sharing :=
  match Node.ofText t with
  | .ok (some root) =>
    let found := mappingsIn (4 * t.length + 8) root
    ((found.map Prod.fst).eraseDups.map fun position => (found.filter (·.1 == position)).map Prod.snd).filter
      (·.length > 1)
  | _ => []

/-! ## The loader -/

/-- The value of bytes, with where its shared mappings stand. -/
def loadBytes (bytes : List UInt8) : Except Failure Document := do
  let text ← (Encoding.utf8.readText bytes).mapError (.fault .undecodable)
  return { value := ← load text, shared := sharing text }

/-- The loader of the program. -/
@[reducible] def Loader.own : Loader where
  Datum := Value
  note := load
  file := loadBytes

end NoteAccess.Yaml
