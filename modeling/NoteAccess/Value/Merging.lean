/-
  NoteAccess.Value.Merging

  Values put over each other: of two mappings the entries are merged, anything else is
  replaced.  What is merged is copied, and both call themselves for what is inside; how deeply
  calls nest then is known beforehand.
-/

import NoteAccess.Stack
import NoteAccess.Value.Trail

namespace NoteAccess.Value

/-! ## Merging -/

mutual

/-- A value put over another one: of two mappings the entries are merged. -/
def mergeOver (base : Option Value) : Value → Value
  | .dict entries =>
    match base with
    | some (.dict old) => .dict (mergeEntries old entries)
    | _ => .dict entries
  | v => v

/-- The entries of a mapping put over those of another one. -/
def mergeEntries (base : Mapping) : Mapping → Mapping
  | [] => base
  | (k, v) :: rest => mergeEntries (insert k (mergeOver (lookup? k base) v) base) rest

end

/-! ## How deeply calls nest -/

mutual

/-- How deeply calls nest while a value is copied. -/
def copyDepth : Value → Nat
  | list items => 2 + copyDepthAll items
  | tuple items => 3 + copyDepthAll items
  | dict entries => 2 + copyDepthEntries entries
  | set items => 5 + copyDepthAll items
  | date .. => 5
  | moment m => if m.offset.isSome then 11 else 5
  | _ => 2

/-- How deeply calls nest while values are copied. -/
def copyDepthAll : List Value → Nat
  | [] => 0
  | v :: rest => max (copyDepth v) (copyDepthAll rest)

/-- How deeply calls nest while entries are copied. -/
def copyDepthEntries : List (Value × Value) → Nat
  | [] => 0
  | (k, v) :: rest => max (max (copyDepth k) (copyDepth v)) (copyDepthEntries rest)

end

mutual

/-- How deeply calls nest while a value is put over another one. -/
def mergeDepth (base : Option Value) : Value → Nat
  | .dict entries =>
    match base with
    | some (.dict old) => 1 + max (copyDepth (.dict old)) (mergeDepthEntries old entries)
    | _ => copyDepth (.dict entries)
  | v => copyDepth v

/-- How deeply calls nest while the entries of a mapping are put over those of another one. -/
def mergeDepthEntries (base : Mapping) : Mapping → Nat
  | [] => 0
  | (k, v) :: rest => max (mergeDepth (lookup? k base) v) (mergeDepthEntries base rest)

end

/-- The entries of a mapping put over those of another one, if there is room for it. -/
def mergeWithin [Stack] (base entries : Mapping) : Except Fault Mapping :=
  if mergeDepth (some (.dict base)) (.dict entries) ≤ Stack.room then .ok (mergeEntries base entries)
  else .error .tooDeep

end NoteAccess.Value
