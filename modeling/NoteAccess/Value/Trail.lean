/-
  NoteAccess.Value.Trail

  Places inside values.  A trail leads through mappings and lists to a place; a
  mapping that stands at several places is one mapping, and what is put into it is
  found at all of them.
-/

import NoteAccess.Value

namespace NoteAccess.Value

/-- The entries of a mapping. -/
abbrev Mapping := List (Value × Value)

/-- A step into a value. -/
inductive Step where
  /-- To the value of a key. -/
  | key (k : Value)
  /-- To an item of a list or a tuple. -/
  | item (i : Nat)

/-- Steps to a place inside a value. -/
abbrev Trail := List Step

/-- For each mapping that stands at several places, the trails to them. -/
abbrev Sharing := List (List Trail)

/-- Whether two steps are the same. -/
def Step.same : Step → Step → Bool
  | .key k, .key k' => k.sameKey k'
  | .item i, .item i' => i == i'
  | _, _ => false

namespace Trail

/-- The trail along names. -/
def ofNames (path : List Text) : Trail := path.map fun name => .key (.text name)

/-- Whether the place at the end of a trail is or has in it that of another one. -/
def leadsTo : Trail → Trail → Bool
  | [], _ => true
  | _ :: _, [] => false
  | step :: trail, step' :: trail' => step.same step' && leadsTo trail trail'

/-- Whether neither of two places is inside the other. -/
def isApart (trail trail' : Trail) : Bool := !trail.leadsTo trail' && !trail'.leadsTo trail

/-- What is left of a trail behind another one that it begins with. -/
def after? : Trail → Trail → Option Trail
  | [], trail => some trail
  | step :: trail, step' :: trail' => if step.same step' then after? trail trail' else none
  | _ :: _, [] => none

/-- The names that are left of a path behind a trail that it begins with. -/
def behind? : Trail → List Text → Option (List Text)
  | [], path => some path
  | .key k :: trail, name :: path => if k.sameKey (.text name) then behind? trail path else none
  | _, _ => none

end Trail

/-- The value with the mapping at the end of a trail changed, if there is one. -/
def modifyAt (f : Mapping → Mapping) : Trail → Value → Value
  | [], .dict entries => .dict (f entries)
  | .key k :: trail, .dict entries =>
    match lookup? k entries with
    | some v => .dict (insert k (modifyAt f trail v) entries)
    | none => .dict entries
  | .item i :: trail, .list items => .list (items.modify i (modifyAt f trail))
  | .item i :: trail, .tuple items => .tuple (items.modify i (modifyAt f trail))
  | _, v => v

/-- The entries with the mapping at the end of a trail changed, if there is one. -/
def modifyIn (f : Mapping → Mapping) (trail : Trail) (entries : Mapping) : Mapping :=
  match modifyAt f trail (.dict entries) with
  | .dict entries => entries
  | _ => entries

end NoteAccess.Value
