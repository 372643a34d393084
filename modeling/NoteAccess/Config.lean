/-
  NoteAccess.Config

  The configuration: values at several levels, of which the higher ones hold.

  A key is a path of names with full stops between them.  `Config.get` looks for
  it at one level after the other, `Config.merged` is all levels in one mapping,
  in which mappings are merged and anything else is replaced.  Those who ask for all
  levels at once get a copy (`Config.getAll`), for which there may be no room.

  Levels are written in place.  A mapping may stand at several places: of a level, as one
  with an alias does, or of several levels, if what is put at a key stands in the
  configuration already.  It is written at all of them.  No mapping is put inside itself.
-/

import NoteAccess.FileTree
import NoteAccess.Log.Line
import NoteAccess.Setting
import NoteAccess.Value.Merging

namespace NoteAccess

/-! ## Mappings -/

namespace Value

/-- The value that a path of names leads to. -/
def atPath? : List Text → Value → Option Value
  | [], v => some v
  | name :: rest, v =>
    match v with
    | .dict entries => (field? name entries).bind (atPath? rest)
    | _ => none

/-- The entries once a value has been put at the end of a path of names, and whether that
    has worked; missing mappings on the way are made first.  Anything else on the way is a
    failure: where the path ends it takes no entries, before that it has none. -/
def write (entries : Mapping) : List Text → Value → Mapping × Except Fault Unit
  | [], _ => (entries, .ok ())
  | [name], v => (insert (.text name) v entries, .ok ())
  | name :: next :: rest, v =>
    match (field? name entries).getD (.dict []) with
    | .dict inner =>
      let (inner, result) := write inner (next :: rest) v
      (insert (.text name) (.dict inner) entries, result)
    | _ => (entries, .error (if rest.isEmpty then .wrongKind else .lacksOperation))

/-- The entries once a value has been put at the end of paths in mappings inside them, which
    trails lead to. -/
def spread (v : Value) (places : List (Trail × List Text)) (entries : Mapping) : Mapping :=
  places.foldl (fun entries (trail, path) => modifyIn (fun inner => (write inner path v).1) trail entries) entries

end Value

/-! ## Levels -/

/-- The levels of a configuration, the lowest one first. -/
inductive Tier where
  | defaults
  | system
  | user
  | environment
  | arguments
  | runtime
  deriving DecidableEq, Repr

/-- All levels, the lowest one first. -/
def Tier.all : List Tier := [defaults, system, user, environment, arguments, runtime]

/-- A place in a configuration: a level and a trail in it. -/
abbrev Spot := Tier × Value.Trail

namespace Spot

/-- Whether the place at the end is or has in it that of another one. -/
def leadsTo (a b : Spot) : Bool := a.1 == b.1 && a.2.leadsTo b.2

/-- Whether neither of two places is inside the other. -/
def isApart (a b : Spot) : Bool := a.1 != b.1 || a.2.isApart b.2

end Spot

/-- A configuration; `κ` are those to be told of changes. -/
structure Config (κ : Type) where
  /-- The entries of the levels that have been set. -/
  contents : Tier → Option Value.Mapping
  /-- Where the mappings of levels stand that had more than one place when they were loaded. -/
  shared : Tier → Value.Sharing := fun _ => []
  /-- Where the mappings stand that have been put at further places. -/
  across : List (List Spot) := []
  /-- The files that levels come from, in the order in which they were first loaded. -/
  files : List (Place × Tier) := []
  /-- The times of files that are known. -/
  times : List (Place × Int) := []
  /-- Who is told of changed settings. -/
  watchers : List κ := []
  /-- The files that are looked after, with who is told of their changes; where nobody is,
      the file is loaded. -/
  watched : List (Place × Option κ) := []

/-- What somebody is told. -/
inductive Notice (κ : Type) where
  /-- A file has changed. -/
  | file (hook : κ) (p : Place)
  /-- The configuration has changed. -/
  | settings (hook : κ) (merged : Value.Mapping)
  /-- A line is to be logged. -/
  | line (l : LogLine)

namespace Config

variable {κ : Type}

/-- The configuration with default values only. -/
def initial : Config κ where
  contents
    | .defaults => some [(.text Setting.rootKey, .dict Setting.defaults)]
    | _ => none

/-- The configuration with other places of the mappings of a level. -/
def share (c : Config κ) (t : Tier) (s : Value.Sharing) : Config κ :=
  { c with shared := fun u => if u = t then s else c.shared u }

/-- The configuration with the entries of a level replaced by new ones. -/
def setLevel (c : Config κ) (t : Tier) (entries : Option Value.Mapping) : Config κ :=
  { c with
    contents := fun u => if u = t then entries else c.contents u
    across := c.across.map fun group : List Spot => group.filter (·.1 != t) }.share t []

/-- The configuration with other entries at a level, whose mappings stand where they stood. -/
def withEntries (c : Config κ) (t : Tier) (entries : Value.Mapping) : Config κ :=
  { c with contents := fun u => if u = t then some entries else c.contents u }

/-! ## Reading -/

/-- The names that a key is made of. -/
def namesOf (key : Text) : List Text := key.pieces CodePoint.dot

/-- The value at a key of a level. -/
def getAt? (c : Config κ) (t : Tier) (key : Text) : Option Value :=
  (c.contents t).bind fun entries => Value.atPath? (namesOf key) (.dict entries)

/-- The value at a key: that of the highest level where it is not null. -/
def get (c : Config κ) (key : Text) : Option Value :=
  Tier.all.reverse.findSome? fun t => (c.getAt? t key).filter (! ·.isNull)

/-- The value at a key, or another one where no level has a value that is not null. -/
def getOr (c : Config κ) (key : Text) (default : Value) : Value := (c.get key).getD default

/-- All levels in one mapping. -/
def merged (c : Config κ) : Value.Mapping :=
  (Tier.all.filterMap c.contents).foldl Value.mergeEntries []

/-- A copy of all levels in one mapping, if there is room for making it. -/
def getAll [Stack] (c : Config κ) : Except Fault Value.Mapping :=
  (Tier.all.filterMap c.contents).foldlM Value.mergeWithin []

/-- The settings of a merged configuration. -/
def settingsOf (merged : Value.Mapping) : Value := (Value.field? Setting.rootKey merged).getD (.dict [])

/-- The settings. -/
def settings [Stack] (c : Config κ) : Except Fault Value := c.getAll.map settingsOf

/-! ## Changing -/

/-- The entries with a section for all settings around them, unless there is one. -/
def wrap (entries : Value.Mapping) : Value.Mapping :=
  if (Value.field? Setting.rootKey entries).isSome then entries
  else [(.text Setting.rootKey, .dict entries)]

/-- Where mappings stand once their entries have a section around them. -/
def wrapSharing (entries : Value.Mapping) (s : Value.Sharing) : Value.Sharing :=
  if (Value.field? Setting.rootKey entries).isSome then s
  else s.map (·.map fun trail => .key (.text Setting.rootKey) :: trail)

/-- The configuration with the entries of a level read anew; `s` is where mappings in them stand
    that have more than one place. -/
def loadEntries (c : Config κ) (entries : Value.Mapping) (t : Tier) (s : Value.Sharing := []) : Config κ :=
  (c.setLevel t (some (wrap entries))).share t (wrapSharing entries s)

/-- The configuration with a copy of entries at a level, if there is room for making it. -/
def loadCopy [Stack] (c : Config κ) (entries : Value.Mapping) (t : Tier) (s : Value.Sharing := []) :
    Except Fault (Config κ) :=
  if (Value.dict (wrap entries)).copyDepth ≤ Stack.room then .ok (c.loadEntries entries t s) else .error .tooDeep

/-- The configuration without a level, or without any; the default values stay. -/
def clear (c : Config κ) (t : Option Tier) : Config κ :=
  match t with
  | some t => if t = .defaults then c else c.setLevel t none
  | none =>
    { c with
      contents := fun t => if t = .defaults then c.contents t else none
      shared := fun t => if t = .defaults then c.shared t else []
      across := c.across.map fun group => group.filter (·.1 == .defaults) }

/-! ## Telling -/

/-- What is told of a merged configuration. -/
def noticesOf (c : Config κ) (merged : Value.Mapping) : List (Notice κ) := c.watchers.map (.settings · merged)

/-- What is told when the configuration has changed, if all levels can be merged. -/
def notices [Stack] (c : Config κ) : Except Fault (List (Notice κ)) := c.getAll.map c.noticesOf

/-! ## Mappings with several places -/

/-- Where the mappings stand that have more than one place. -/
def groups (c : Config κ) : List (List Spot) :=
  (Tier.all.flatMap fun t => (c.shared t).map (·.map (t, ·))) ++ c.across

/-- What a path of names at a level goes through that stands elsewhere too: where that is, and
    the rest of the path from there. -/
def elsewhere (c : Config κ) (t : Tier) (path : List Text) : List (Spot × List Text) :=
  c.groups.flatMap fun group => group.flatMap fun spot =>
    if spot.1 = t then
      match spot.2.behind? path with
      | some (name :: rest) => (group.filter spot.isApart).map fun other => (other, name :: rest)
      | _ => []
    else []

/-- All places where something stands at the end of a path of names. -/
def placesOf (c : Config κ) (t : Tier) (path : List Text) : List Spot :=
  (t, Value.Trail.ofNames path) ::
    (c.elsewhere t path).map fun (spot, rest) => (spot.1, spot.2 ++ Value.Trail.ofNames rest)

/-- All places of the mapping at a place. -/
def standsAt (c : Config κ) (s : Spot) : List Spot :=
  s :: c.groups.flatMap fun group => group.flatMap fun spot =>
    if spot.1 = s.1 then
      match spot.2.after? s.2 with
      | some rest => (group.filter spot.isApart).map fun other => (other.1, other.2 ++ rest)
      | none => []
    else []

/-- The configuration without what was at these places. -/
def forget (c : Config κ) (places : List Spot) : Config κ :=
  { c with
    shared := fun u => (c.shared u).map (·.filter fun trail => !places.any (·.leadsTo (u, trail)))
    across := c.across.map fun group => group.filter fun spot => !places.any (·.leadsTo spot) }

/-! ## Writing -/

/-- A mapping in a value that is put at a key. -/
structure Part where
  /-- The trails to it in the value. -/
  inside : List Value.Trail
  /-- Where it stands in the configuration already. -/
  already : List Spot := []

/-- All places of a part of what is put at these places. -/
def spotsOf (c : Config κ) (places : List Spot) (part : Part) : List Spot :=
  (places.flatMap fun spot => part.inside.map fun trail => (spot.1, spot.2 ++ trail)) ++
    (part.already.flatMap c.standsAt).filter fun spot => !places.any (·.leadsTo spot)

/-- What stands at a level in mappings that a path goes through. -/
def placesAt (c : Config κ) (t : Tier) (path : List Text) (u : Tier) : List (Value.Trail × List Text) :=
  (c.elsewhere t path).filterMap fun (spot, rest) => if spot.1 = u then some (spot.2, rest) else none

/-- The configuration with new entries at a level, once a value has been put at a path of them,
    which is written wherever it stands. -/
def written (c : Config κ) (t : Tier) (path : List Text) (entries : Value.Mapping) (v : Value)
    (parts : List Part := []) : Config κ :=
  let places := c.placesOf t path
  let changed : Config κ :=
    { c with contents := fun u => ((c.withEntries t entries).contents u).map (Value.spread v (c.placesAt t path u)) }
  let forgotten := changed.forget places
  { forgotten with across := forgotten.across ++ parts.map (c.spotsOf places) }

/-- Put a value at a key of a level, wherever it stands there; `parts` are the mappings in it
    that have other places.  If that works, it is told. -/
def write [Stack] (c : Config κ) (key : Text) (v : Value) (t : Tier) (parts : List Part := []) :
    Config κ × List (Notice κ) × Except Fault Unit :=
  let path := namesOf key
  match Value.write ((c.contents t).getD []) path v with
  | (entries, .error f) => (c.withEntries t entries, [], .error f)
  | (entries, .ok ()) =>
    let c := c.written t path entries v parts
    match c.notices with
    | .ok told => (c, told, .ok ())
    | .error f => (c, [], .error f)

/-! ## Watchers -/

/-- The configuration with one more to be told of changes. -/
def addWatcher (c : Config κ) (w : κ) : Config κ := { c with watchers := c.watchers ++ [w] }

/-- The configuration with the first like `w` no longer told of changes. -/
def removeWatcher [BEq κ] (c : Config κ) (w : κ) : Config κ := { c with watchers := c.watchers.erase w }

end Config

namespace Notice

variable {κ σ : Type}

/-- The line to be logged when telling somebody fails. -/
def failureLine (i : Incident) : Notice κ → LogLine
  | .file _ p => .ofIncident "Failed to apply change to watched file" [("file", Place.text p)] i
  | .settings .. => .ofIncident "Config watcher failed" [] i
  | .line l => l

/-- Tell one after the other, with the lines to be logged; where somebody fails, the others
    are told still. -/
def tellAll (hear : Notice κ → σ → σ × Option Incident) : List (Notice κ) → σ → σ × List LogLine
  | [], s => (s, [])
  | .line l :: rest, s =>
    let (s, lines) := tellAll hear rest s
    (s, l :: lines)
  | n :: rest, s =>
    let (s, failure) := hear n s
    let (s, lines) := tellAll hear rest s
    (s, (failure.map n.failureLine).toList ++ lines)

end Notice

end NoteAccess
