/-
  NoteAccess.Proofs.Config.Levels

  What happens to a level of a configuration has no effect where a higher level has
  a value, unless something of the higher level stands at the lower one as well.

  An operation on a level writes this level and no other one, and what it writes has
  no key twice (`Writes`).  Putting a value at a key is the exception: it is written at
  all places of what is on the way to it, whatever their levels are, and it spares what
  is apart from them (`spares_written`).

  So a run of operations up to a level spares the levels above it at a key that is apart
  from what they share with the levels that are written (`Runs.keeps`): all values of these
  levels at the key, and what they decide in the merged configuration, stay as they are
  (`decided_of_runs`).  It is not so where they share a mapping, nor where there is no room
  for merging what a lower level has been given (`changed_from_below`).

  Loading all files again and a pass over the files that are looked after are such
  runs (`runs_reload`, `runs_poll`).
-/

import Mathlib.Data.List.Basic
import Mathlib.Logic.Relation
import NoteAccess.Config.Environment
import NoteAccess.Config.File
import NoteAccess.Proofs.Config.Depth
import NoteAccess.Proofs.Config.Writing
import NoteAccess.Proofs.FileTree
import NoteAccess.Proofs.Text
import NoteAccess.Proofs.Yaml.Document

namespace NoteAccess

/-! ## The order of levels -/

namespace Tier

/-- How high a level is. -/
def rank : Tier → Nat
  | defaults => 1
  | system => 2
  | user => 3
  | environment => 4
  | arguments => 5
  | runtime => 6

/-- The levels above one, the lowest one first. -/
def above (t : Tier) : List Tier := all.filter fun u => t.rank < u.rank

theorem mem_above {t u : Tier} : u ∈ t.above ↔ t.rank < u.rank := by
  have hall : u ∈ all := by cases u <;> decide
  rw [above, List.mem_filter, decide_eq_true_eq, and_iff_right hall]

/-- The levels above one come behind the others. -/
theorem exists_append_above (t : Tier) : ∃ others, all = others ++ t.above := by
  refine ⟨all.filter fun u => u.rank ≤ t.rank, ?_⟩
  cases t <;> rfl

end Tier

namespace Config

open Value

variable {κ : Type} {c c' : Config κ} {t u : Tier} {key key' : Text} {v x : Value}

/-! ## Levels above one -/

/-- The levels above one have the same at the end of a key. -/
def Keeps (t : Tier) (key : Text) (c c' : Config κ) : Prop :=
  ∀ u, t.rank < u.rank → Spares (namesOf key) ((c.contents u).map .dict) ((c'.contents u).map .dict)

theorem Keeps.trans {c'' : Config κ} (h : Keeps t key c c') (h' : Keeps t key c' c'') : Keeps t key c c'' :=
  fun u hu => (h u hu).trans (h' u hu)

theorem getAt?_eq_of_spares (h : Spares (namesOf key) ((c.contents u).map .dict) ((c'.contents u).map .dict)) :
    c'.getAt? u key = c.getAt? u key := by
  have hat := atPath?_of_spares h
  rwa [Option.bind_map, Option.bind_map] at hat

/-- The entries of the levels above one, the lowest level first. -/
def entriesAbove (t : Tier) (c : Config κ) : List Mapping := t.above.filterMap c.contents

/-- The levels above one are put over what the others give. -/
theorem merged_eq_foldl_entriesAbove (t : Tier) (c : Config κ) :
    ∃ below, c.merged = (entriesAbove t c).foldl mergeEntries below := by
  obtain ⟨others, hall⟩ := t.exists_append_above
  rw [merged, hall, List.filterMap_append, List.foldl_append]
  exact ⟨_, rfl⟩

/-- The value at a key of the highest level above one where it is not null. -/
def getAbove? (t : Tier) (c : Config κ) (key : Text) : Option Value :=
  t.above.reverse.findSome? fun u => (c.getAt? u key).filter (! ·.isNull)

theorem Keeps.getAbove?_eq (h : Keeps t key c c') : getAbove? t c' key = getAbove? t c key := by
  rw [getAbove?, getAbove?, ← List.head?_filterMap, ← List.head?_filterMap]
  refine congrArg List.head? (List.filterMap_congr fun u hu => ?_)
  rw [getAt?_eq_of_spares (h u (Tier.mem_above.mp (List.mem_reverse.mp hu)))]

theorem isSome_getAbove? (hu : t.rank < u.rank) (hx : c.getAt? u key = some x) (hnull : x.isNull = false) :
    (getAbove? t c key).isSome = true := by
  rw [getAbove?, List.findSome?_isSome_iff]
  refine ⟨u, List.mem_reverse.mpr (Tier.mem_above.mpr hu), ?_⟩
  rw [hx, Option.filter_some, hnull]
  rfl

/-- What the levels above one have is what is found. -/
theorem get_of_getAbove? (h : getAbove? t c key = some x) : c.get key = some x := by
  obtain ⟨others, hall⟩ := t.exists_append_above
  rw [get, hall, List.reverse_append, List.findSome?_append, ← getAbove?, h]
  rfl

/-- If a level above has a value that is not null, the same is found. -/
theorem Keeps.get_eq (h : Keeps t key c c') (hu : t.rank < u.rank) (hx : c.getAt? u key = some x)
    (hnull : x.isNull = false) : c'.get key = c.get key := by
  obtain ⟨y, hy⟩ := Option.isSome_iff_exists.mp (isSome_getAbove? hu hx hnull)
  rw [get_of_getAbove? hy, get_of_getAbove? (h.getAbove?_eq.trans hy)]

/-! ## Proper configurations -/

/-- No mapping of a level has a key twice. -/
def Proper (c : Config κ) : Prop := ∀ t entries, c.contents t = some entries → areProper entries = true

theorem Proper.isProper_of_mem (hc : c.Proper) : ∀ v ∈ (c.contents u).map Value.dict, v.isProper = true := by
  intro v hv
  obtain ⟨entries, hentries, rfl⟩ := Option.map_eq_some_iff.mp hv
  rw [isProper]
  exact hc u entries hentries

/-- Levels with the same at the end of a key, put over what has the same there, have the same there. -/
theorem atPath?_foldl_of_spares (hc : c.Proper) (hc' : c'.Proper) {levels : List Tier}
    (h : ∀ u ∈ levels, Spares (namesOf key) ((c.contents u).map .dict) ((c'.contents u).map .dict)) {a b : Mapping}
    (hab : atPath? (namesOf key) (.dict b) = atPath? (namesOf key) (.dict a)) :
    atPath? (namesOf key) (.dict ((levels.filterMap c'.contents).foldl mergeEntries b)) =
      atPath? (namesOf key) (.dict ((levels.filterMap c.contents).foldl mergeEntries a)) := by
  have hfold : ∀ (d : Config κ) (u : Tier) (rest : List Tier) (e : Mapping), ∃ e',
      ((u :: rest).filterMap d.contents).foldl mergeEntries e = (rest.filterMap d.contents).foldl mergeEntries e' ∧
        some (.dict e') = putOver (some (.dict e)) ((d.contents u).map .dict) := by
    intro d u rest e
    cases hcontents : d.contents u with
    | none => exact ⟨e, by rw [List.filterMap_cons_none hcontents], rfl⟩
    | some entries =>
      refine ⟨mergeEntries e entries, by rw [List.filterMap_cons_some hcontents]; rfl, ?_⟩
      rw [Option.map_some, putOver, mergeOver]
  induction levels generalizing a b with
  | nil => exact hab
  | cons u levels ih =>
    obtain ⟨hu, hlevels⟩ := List.forall_mem_cons.mp h
    obtain ⟨a', ha', hover⟩ := hfold c u levels a
    obtain ⟨b', hb', hover'⟩ := hfold c' u levels b
    rw [ha', hb']
    refine ih hlevels ?_
    have hbase := atPath?_putOver_congr (b := some (.dict b)) (c := some (.dict a)) hab (hc'.isProper_of_mem (u := u))
    have hsame := atPath?_putOver_of_spares hu hc.isProper_of_mem hc'.isProper_of_mem (some (.dict a))
    rw [← hover'] at hbase
    exact hbase.trans (hsame.trans (congrArg (·.bind (atPath? (namesOf key))) hover.symm))

/-- If a level above has a value that is no mapping, the levels above decide what the merged
    configuration has. -/
theorem Keeps.atPath?_merged_eq (h : Keeps t key c c') (hc : c.Proper) (hc' : c'.Proper) (hu : t.rank < u.rank)
    (hx : c.getAt? u key = some x) (hend : x.isMapping = false) :
    atPath? (namesOf key) (.dict c'.merged) = atPath? (namesOf key) (.dict c.merged) := by
  obtain ⟨below, hmerged⟩ := merged_eq_foldl_entriesAbove t c
  obtain ⟨below', hmerged'⟩ := merged_eq_foldl_entriesAbove t c'
  -- The value is there still, so that what is below it makes no difference.
  rw [← getAt?_eq_of_spares (h u hu)] at hx
  obtain ⟨entries, hentries, hat⟩ := Option.bind_eq_some_iff.mp hx
  have hmem : entries ∈ entriesAbove t c' := List.mem_filterMap.mpr ⟨u, Tier.mem_above.mpr hu, hentries⟩
  rw [hmerged, hmerged', atPath?_foldl_merge hmem (hc' u entries hentries) hat hend below' below]
  exact atPath?_foldl_of_spares hc hc' (fun u hu => h u (Tier.mem_above.mp hu)) rfl

theorem proper_initial : (initial : Config κ).Proper := by
  intro t entries h
  cases t with
  | defaults =>
    cases h
    cbv
  | _ => cases h

theorem areProper_single {name : Text} {v : Value} (hv : v.isProper = true) : areProper [(.text name, v)] = true :=
  areProper_cons.mpr ⟨nofun, hv, rfl⟩

theorem areProper_wrap {entries : Mapping} (h : areProper entries = true) : areProper (wrap entries) = true := by
  unfold wrap
  split
  · exact h
  · exact areProper_single (by rwa [isProper])

/-- The settings that variables hold have no key twice. -/
theorem areProper_environment (env : List (Text × Text)) :
    areProper (Environment.settings env) = true := by
  have hvalue : ∀ text, (Environment.valueOf text).isProper = true := by
    intro text
    unfold Environment.valueOf
    dsimp only
    split
    · rfl
    split
    · rfl
    split
    · rfl
    split <;> rfl
  have hadd : ∀ (entry : Text × Text) {entries : Mapping}, areProper entries = true →
      areProper (Environment.add entries entry) = true := by
    intro entry entries h
    unfold Environment.add
    split
    · exact h
    · exact areProper_write _ (hvalue entry.2) h
  exact List.foldlRecOn (motive := fun entries => areProper entries = true) env Environment.add rfl
    fun _ hbase entry _ => hadd entry hbase

/-! ## Writing a level -/

/-- A level has other entries, without a key twice, and the other levels have the same. -/
def Writes (t : Tier) (c c' : Config κ) : Prop :=
  ∃ entries : Option Mapping, (∀ e, entries = some e → areProper e = true) ∧
    c'.contents = (c.setLevel t entries).contents

theorem Writes.proper (h : Writes t c c') (hc : c.Proper) : c'.Proper := by
  obtain ⟨entries, hproper, hcontents⟩ := h
  intro u e he
  rw [hcontents, setLevel, share] at he
  dsimp only at he
  split at he
  · exact hproper e he
  · exact hc u e he

theorem Writes.contents_eq (h : Writes t c c') (hu : u ≠ t) : c'.contents u = c.contents u := by
  obtain ⟨entries, -, hcontents⟩ := h
  rw [hcontents]
  exact if_neg hu

theorem Writes.keeps {s : Tier} (h : Writes s c c') (hs : s.rank ≤ t.rank) : Keeps t key c c' := by
  intro u hu
  have hne : u ≠ s := by
    rintro rfl
    exact absurd hs (Nat.not_le.mpr hu)
  rw [h.contents_eq hne]
  exact spares_refl _ _

/-- What leaves all levels as they are writes any of them. -/
theorem writes_of_contents_eq (hc : c.Proper) (t : Tier) (h : c'.contents = c.contents) : Writes t c c' := by
  refine ⟨c.contents t, hc t, h.trans (funext fun u => ?_)⟩
  by_cases hu : u = t
  · rw [hu]
    exact (if_pos rfl).symm
  · exact (if_neg hu).symm

theorem writes_loadEntries {entries : Mapping} (h : areProper entries = true) (t : Tier) (s : Sharing := []) :
    Writes t c (c.loadEntries entries t s) :=
  ⟨_, fun _ he => Option.some.inj he ▸ areProper_wrap h, rfl⟩

theorem writes_loadEnvironment (hc : c.Proper) (env : List (Text × Text)) :
    Writes .environment c (c.loadEnvironment env) := by
  unfold loadEnvironment
  dsimp only
  split
  · exact writes_of_contents_eq hc .environment rfl
  · have hdict : (Value.dict (Environment.settings env)).isProper = true := by
      rw [isProper]
      exact areProper_environment env
    exact ⟨_, fun _ he => Option.some.inj he ▸ areProper_single hdict, rfl⟩

section Files

variable [Yaml.Loader] [Yaml.Loader.Lawful]

theorem gives_readEntries (tree : FileTree) (p : Place) (shown : Text) :
    Gives (fun e => areProper e = true) (readEntries tree p shown) := by
  unfold readEntries
  refine gives_bind fun there => ?_
  split
  · exact gives_error _
  refine gives_bind fun content => ?_
  unfold entriesOf
  cases hload : Yaml.Loader.file content.toBytes with
  | error e => cases e <;> exact gives_error _
  | ok d =>
    have hv := Yaml.Loader.Lawful.isProper_of_file hload
    dsimp only [Except.map]
    cases hvalue : d.value with
    | null => exact gives_ok rfl
    | dict entries => exact gives_ok (by rwa [hvalue, isProper] at hv)
    | _ => exact gives_error _

/-- A file that is loaded writes its level and is then known to belong to it. -/
theorem gives_loadPlace (c : Config κ) (tree : FileTree) (p : Place) (shown : Text) (t : Tier) :
    Gives (fun c' => Writes t c c' ∧ c'.files = assign p t c.files) (c.loadPlace tree p shown t) := by
  unfold loadPlace
  refine (gives_readEntries tree p shown).bind fun entries hentries => gives_bind fun time => gives_ok ?_
  exact ⟨writes_loadEntries hentries t (readSharing tree p), rfl⟩

theorem gives_loadFile (c : Config κ) (tree : FileTree) (s : Surroundings) (path : Text) (t : Tier) :
    Gives (Writes t c) (c.loadFile tree s path t) :=
  gives_bind fun p c' h => (gives_loadPlace c tree p path t c' h).1

theorem gives_reloadPlace (c : Config κ) (tree : FileTree) (p : Place) (t : Tier) :
    Gives (fun c' => Writes t c c' ∧ ∃ q, c'.files = assign q t c.files) (c.reloadPlace tree p t) := by
  refine gives_bind fun q c' h => ?_
  obtain ⟨hwrites, hfiles⟩ := gives_loadPlace c tree q (Place.text p) t c' h
  exact ⟨hwrites, q, hfiles⟩

end Files

/-! ## Putting a value at a key -/

theorem namesOf_ne_nil (key : Text) : namesOf key ≠ [] := Text.pieces_ne_nil _ _

theorem withEntries_self {entries : Mapping} (h : c.contents t = some entries) : c.withEntries t entries = c := by
  have hcontents : (fun u => if u = t then some entries else c.contents u) = c.contents := by
    funext u
    split
    · next hu => rw [hu, h]
    · rfl
  unfold withEntries
  rw [hcontents]

theorem mem_placesAt {path : List Text} {place : Trail × List Text} :
    place ∈ c.placesAt t path u ↔ ((u, place.1), place.2) ∈ c.elsewhere t path := by
  unfold placesAt
  rw [List.mem_filterMap]
  constructor
  · rintro ⟨⟨⟨u', trail⟩, rest⟩, hmem, hplace⟩
    dsimp only at hplace
    split at hplace
    · next hu =>
      subst hu
      cases hplace
      exact hmem
    · cases hplace
  · exact fun hmem => ⟨_, hmem, if_pos rfl⟩

/-- What stands elsewhere at the level of a path is apart from it. -/
theorem isApart_of_mem_elsewhere {path : List Text} {place : Spot × List Text} (h : place ∈ c.elsewhere t path)
    (ht : place.1.1 = t) : (Trail.ofNames path).isApart (place.1.2 ++ Trail.ofNames place.2) = true := by
  obtain ⟨group, -, h⟩ := List.mem_flatMap.mp h
  obtain ⟨spot, -, h⟩ := List.mem_flatMap.mp h
  split at h
  · next hspot =>
    split at h
    · next name rest hbehind =>
      obtain ⟨other, hother, rfl⟩ := List.mem_map.mp h
      obtain ⟨front, hfront, rfl⟩ := Trail.behind?_eq_some hbehind
      have hapart := (List.mem_filter.mp hother).2
      rw [Spot.isApart, hspot, ht, bne_self_eq_false, Bool.false_or, hfront] at hapart
      rw [Trail.ofNames, List.map_append]
      exact Trail.isApart_append hapart _ _
    · cases h
  · cases h

theorem contents_written (c : Config κ) (t : Tier) (path : List Text) (entries : Mapping) (v : Value)
    (parts : List Part) (u : Tier) : (c.written t path entries v parts).contents u =
      ((c.withEntries t entries).contents u).map (spread v (c.placesAt t path u)) := rfl

theorem contents_withEntries_self (c : Config κ) (t : Tier) (entries : Mapping) :
    (c.withEntries t entries).contents t = some entries := if_pos rfl

theorem contents_withEntries_of_ne {entries : Mapping} (hu : u ≠ t) : (c.withEntries t entries).contents u = c.contents u :=
  if_neg hu

section Written

variable {entries : Mapping} {parts : List Part}

theorem proper_written (hc : c.Proper) (hv : v.isProper = true) {path : List Text}
    (h : Value.write ((c.contents t).getD []) path v = (entries, .ok ())) : (c.written t path entries v parts).Proper := by
  have hold : areProper ((c.contents t).getD []) = true := by
    cases hcontents : c.contents t with
    | none => rfl
    | some old => exact hc t old hcontents
  have hentries := areProper_write path hv hold
  rw [h] at hentries
  intro u e he
  rw [contents_written] at he
  obtain ⟨e₀, he₀, rfl⟩ := Option.map_eq_some_iff.mp he
  refine areProper_spread _ hv ?_
  by_cases hu : u = t
  · subst hu
    rw [contents_withEntries_self] at he₀
    cases he₀
    exact hentries
  · rw [contents_withEntries_of_ne hu] at he₀
    exact hc u e₀ he₀

/-- A value that is put at a key spares another key at a level, if this is apart from all places where
    the value is put there. -/
theorem spares_written (h : Value.write ((c.contents t).getD []) (namesOf key) v = (entries, .ok ()))
    (hkey : u = t → ¬ namesOf key' <+: namesOf key ∧ ¬ namesOf key <+: namesOf key')
    (hplaces : ∀ place ∈ c.elsewhere t (namesOf key), place.1.1 = u →
      (Trail.ofNames (namesOf key')).isApart (place.1.2 ++ Trail.ofNames place.2) = true) :
    Spares (namesOf key') ((c.contents u).map .dict)
      (((c.written t (namesOf key) entries v parts).contents u).map .dict) := by
  have hspread : ∀ e : Mapping, Spares (namesOf key') (some (.dict e))
      (some (.dict (spread v (c.placesAt t (namesOf key) u) e))) :=
    fun e => spares_spread (fun place hplace => hplaces _ (mem_placesAt.mp hplace) rfl) e v
  rw [contents_written]
  by_cases hu : u = t
  · subst hu
    obtain ⟨hbegin, hbehind⟩ := hkey rfl
    have hwrite := spares_write hbegin hbehind ((c.contents u).getD []) v
    rw [h] at hwrite
    have hall := hwrite.trans (hspread entries)
    rw [contents_withEntries_self]
    cases hcontents : c.contents u with
    | none =>
      rw [hcontents] at hall
      exact hall.of_empty (namesOf_ne_nil key')
    | some old =>
      rw [hcontents] at hall
      exact hall
  · rw [contents_withEntries_of_ne hu]
    cases c.contents u with
    | none => exact spares_refl _ _
    | some old => exact hspread old

/-- Putting the value at the other places as well leaves it where it was asked for. -/
theorem getAt?_written (h : Value.write ((c.contents t).getD []) (namesOf key) v = (entries, .ok ()))
    (parts : List Part) : (c.written t (namesOf key) entries v parts).getAt? t key = some v := by
  have hvalue := atPath?_write_append (congrArg Prod.snd h) (namesOf_ne_nil key) []
  rw [List.append_nil, h] at hvalue
  have hspares : Spares (namesOf key) (some (.dict entries))
      (some (.dict (spread v (c.placesAt t (namesOf key) t) entries))) :=
    spares_spread (fun place hplace => isApart_of_mem_elsewhere (mem_placesAt.mp hplace) rfl) entries v
  rw [getAt?, contents_written, contents_withEntries_self, Option.map_some]
  exact (atPath?_of_spares hspares).trans hvalue

/-- Where nothing is in the way, the value is put whether or not all levels can be merged after it, and
    it is told if they can. -/
theorem write_of_put [Stack] (h : Value.write ((c.contents t).getD []) (namesOf key) v = (entries, .ok ())) :
    let c' := c.written t (namesOf key) entries v parts
    c.write key v t parts = (c', c'.notices.toOption.getD [], c'.notices.map fun _ => ()) := by
  unfold write
  dsimp only
  rw [h]
  dsimp only
  cases (c.written t (namesOf key) entries v parts).notices <;> rfl

end Written

/-- Where something that is no mapping is on the way to a key, writing fails and leaves the configuration
    as it is.  Otherwise the level has the value at the key, and everybody is told, if all levels can be
    merged. -/
theorem write_cases [Stack] (c : Config κ) (key : Text) (v : Value) (t : Tier) (parts : List Part) :
    (Blocked ((c.contents t).getD []) (namesOf key) ∧ ∃ f, c.write key v t parts = (c, [], .error f)) ∨
      (¬ Blocked ((c.contents t).getD []) (namesOf key) ∧
        ∃ entries, Value.write ((c.contents t).getD []) (namesOf key) v = (entries, .ok ()) ∧
          let c' := c.written t (namesOf key) entries v parts
          (c'.getAll = .ok c'.merged ∧ c.write key v t parts = (c', c.watchers.map (.settings · c'.merged), .ok ()) ∨
            c'.getAll = .error .tooDeep ∧ c.write key v t parts = (c', [], .error .tooDeep))) := by
  rcases Value.write_cases ((c.contents t).getD []) (namesOf key) v with ⟨hok, hfree⟩ | ⟨⟨f, hfails⟩, hblocked⟩
  · refine .inr ⟨hfree, (Value.write ((c.contents t).getD []) (namesOf key) v).1, Prod.ext rfl hok, ?_⟩
    generalize hentries : (Value.write ((c.contents t).getD []) (namesOf key) v).1 = entries
    have hput : Value.write ((c.contents t).getD []) (namesOf key) v = (entries, .ok ()) := Prod.ext hentries hok
    rcases (c.written t (namesOf key) entries v parts).getAll_cases with hmerged | hdeep
    · refine .inl ⟨hmerged, ?_⟩
      rw [write_of_put hput, notices, hmerged]
      rfl
    · refine .inr ⟨hdeep, ?_⟩
      rw [write_of_put hput, notices, hdeep]
      rfl
  · -- A level that was not there has nothing that is in the way.
    refine .inl ⟨hblocked, f, ?_⟩
    cases hcontents : c.contents t with
    | none =>
      rw [hcontents] at hblocked
      exact absurd hblocked not_blocked_nil
    | some old =>
      rw [hcontents, Option.getD_some] at hfails
      unfold write
      dsimp only
      rw [hcontents, Option.getD_some, hfails]
      dsimp only
      rw [withEntries_self hcontents]

/-- If nothing is in the way, a value that is put at such a key is there, but nobody is told of it, and
    there is no room for merging from then on. -/
theorem write_long_key [Stack] (c : Config κ) (v : Value) (t : Tier) (parts : List Part)
    (hlong : Stack.room < (namesOf key).length) (hfree : ¬ Blocked ((c.contents t).getD []) (namesOf key)) :
    ∃ c', c.write key v t parts = (c', [], .error .tooDeep) ∧ c'.getAt? t key = some v ∧
      c'.getAll = .error .tooDeep := by
  rcases write_cases c key v t parts with ⟨hblocked, -⟩ | ⟨-, entries, hentries, hwritten⟩
  · exact absurd hblocked hfree
  have hdeep := getAll_eq_tooDeep (getAt?_written hentries parts) hlong
  rcases hwritten with ⟨hok, -⟩ | ⟨-, hwrite⟩
  · rw [hdeep] at hok
    cases hok
  · exact ⟨_, hwrite, getAt?_written hentries parts, hdeep⟩

/-! ## Operations -/

/-- A key is apart from what is on the way to another one at a level and stands above a level as well. -/
def IsAside (c : Config κ) (t : Tier) (key : Text) (s : Tier) (key' : Text) : Prop :=
  ∀ place ∈ c.elsewhere s (namesOf key'), t.rank < place.1.1.rank →
    (Trail.ofNames (namesOf key)).isApart (place.1.2 ++ Trail.ofNames place.2) = true

section Operations

variable [Yaml.Loader] [Stack]

/-- An operation on a level `s`.  Where it puts a value into something that stands above the level `t`
    as well, the key is apart from that. -/
inductive Rewrites (t : Tier) (key : Text) (s : Tier) : Config κ → Config κ → Prop where
  /-- A mapping is loaded. -/
  | load {c c' : Config κ} (entries : Mapping) (hproper : areProper entries = true) (shared : Sharing)
      (h : c.loadCopy entries s shared = .ok c') : Rewrites t key s c c'
  /-- A file is loaded. -/
  | loadFile {c c' : Config κ} (tree : FileTree) (world : Surroundings) (path : Text)
      (h : c.loadFile tree world path s = .ok c') : Rewrites t key s c c'
  /-- A file that is known is loaded again. -/
  | reload {c c' : Config κ} (tree : FileTree) (p : Place) (h : c.reloadPlace tree p s = .ok c') :
      Rewrites t key s c c'
  /-- The variables of the environment are read. -/
  | environment (c : Config κ) (env : List (Text × Text)) (h : s = .environment) :
      Rewrites t key s c (c.loadEnvironment env)
  /-- A value is set, or it is not. -/
  | set (c : Config κ) (key' : Text) (v : Value) (hproper : v.isProper = true) (parts : List Part)
      (haside : c.IsAside t key s key') : Rewrites t key s c (c.write key' v s parts).1
  /-- The level is cleared. -/
  | clear (c : Config κ) : Rewrites t key s c (c.clear (some s))
  /-- A file that is looked after has changed: somebody is told, or it is loaded into its
      level. -/
  | change (c : Config κ) (tree : FileTree) (p : Place) (time : Int) (hook : Option κ)
      (h : hook = none → (c.files.lookup p).getD .user = s) :
      Rewrites t key s c ((c.noteTime p time).apply tree p hook).1

variable {s : Tier}

/-- The file that has changed is loaded, or all levels have what they had. -/
theorem writes_apply [Yaml.Loader.Lawful] (hc : c.Proper) {tree : FileTree} {p : Place} {time : Int} {hook : Option κ}
    (h : hook = none → (c.files.lookup p).getD .user = s) : Writes s c ((c.noteTime p time).apply tree p hook).1 := by
  cases hook with
  | some k => exact writes_of_contents_eq hc s rfl
  | none =>
    unfold apply
    dsimp only
    rw [show (c.noteTime p time).files = c.files from rfl, h rfl]
    split
    · exact writes_of_contents_eq hc s rfl
    · next c' hreload =>
      have hwrites := (gives_reloadPlace (c.noteTime p time) tree p s c' hreload).1
      split
      · exact hwrites
      · exact hwrites

/-- An operation on a level spares the levels above. -/
theorem Rewrites.keeps [Yaml.Loader.Lawful] (h : Rewrites t key s c c') (hs : s.rank ≤ t.rank) (hc : c.Proper) :
    Keeps t key c c' ∧ c'.Proper := by
  have hwrites : Writes s c c' → Keeps t key c c' ∧ c'.Proper := fun h => ⟨h.keeps hs, h.proper hc⟩
  cases h with
  | load entries hproper shared h =>
    unfold loadCopy at h
    split at h
    · cases h
      exact hwrites (writes_loadEntries hproper s shared)
    · cases h
  | loadFile tree world path h => exact hwrites (gives_loadFile c tree world path s c' h)
  | reload tree p h => exact hwrites (gives_reloadPlace c tree p s c' h).1
  | environment env h =>
    refine hwrites ?_
    rw [h]
    exact writes_loadEnvironment hc env
  | set key' v hproper parts haside =>
    rcases write_cases c key' v s parts with ⟨-, f, hfails⟩ | ⟨-, entries, hentries, hwritten⟩
    · rw [hfails]
      exact ⟨fun u _ => spares_refl _ _, hc⟩
    · have hresult : (c.write key' v s parts).1 = c.written s (namesOf key') entries v parts := by
        rcases hwritten with ⟨-, h⟩ | ⟨-, h⟩
        · rw [h]
        · rw [h]
      rw [hresult]
      refine ⟨fun u hu => spares_written hentries ?_ ?_, proper_written hc hproper hentries⟩
      · rintro rfl
        exact absurd hs (Nat.not_le.mpr hu)
      · rintro place hplace rfl
        exact haside place hplace hu
  | clear =>
    refine hwrites ?_
    unfold Config.clear
    dsimp only
    split
    · exact writes_of_contents_eq hc s rfl
    · exact ⟨none, nofun, rfl⟩
  | change tree p time hook h => exact hwrites (writes_apply hc h)

/-! ## Runs -/

/-- Operations on levels up to one, one after the other. -/
def Runs (t : Tier) (key : Text) : Config κ → Config κ → Prop :=
  Relation.ReflTransGen fun c c' => ∃ s : Tier, s.rank ≤ t.rank ∧ Rewrites t key s c c'

/-- A run up to a level spares the levels above it, and leaves mappings without a key twice. -/
theorem Runs.keeps [Yaml.Loader.Lawful] (h : Runs t key c c') (hc : c.Proper) : Keeps t key c c' ∧ c'.Proper := by
  -- What was reached is proper, which is what the last operation needs to spare the levels above.
  induction h with
  | refl => exact ⟨fun _ _ => spares_refl _ _, hc⟩
  | tail _ hstep ih =>
    obtain ⟨s, hs, hstep⟩ := hstep
    obtain ⟨hkeeps, hproper⟩ := ih
    obtain ⟨hkeeps', hproper'⟩ := hstep.keeps hs hproper
    exact ⟨hkeeps.trans hkeeps', hproper'⟩

/-- Loading all files again is a run up to a level, if none belongs to a higher one. -/
theorem runs_reloadFrom {files : List (Place × Tier)} (h : ∀ e ∈ files, e.2.rank ≤ t.rank) (tree : FileTree)
    (c : Config κ) (lines : List (Notice κ)) : Runs t key c (c.reloadFrom tree lines files).1 := by
  induction files generalizing c lines with
  | nil =>
    rw [reloadFrom, announce]
    split <;> exact .refl
  | cons entry files ih =>
    obtain ⟨p, tier⟩ := entry
    obtain ⟨htier, hfiles⟩ := List.forall_mem_cons.mp h
    rw [reloadFrom]
    split
    · next hreload => exact .head ⟨tier, htier, .reload tree p hreload⟩ (ih hfiles _ _)
    · exact ih hfiles _ _
    · exact .refl

theorem runs_reload (h : ∀ e ∈ c.files, e.2.rank ≤ t.rank) (tree : FileTree) : Runs t key c (c.reload tree).1 :=
  runs_reloadFrom h tree c []

end Operations

/-! ## Files that are looked after -/

theorem lookup_assign {β : Type} (p q : Place) (b : β) (l : List (Place × β)) :
    (assign p b l).lookup q = if q = p then some b else l.lookup q := by
  unfold assign
  cases hp : l.lookup p with
  | some old =>
    rw [if_pos (by rfl), FileTree.lookup_map_put, hp]
    rfl
  | none =>
    simp only [Option.isSome_none, Bool.false_eq_true, if_false]
    rw [FileTree.lookup_concat]
    by_cases hq : q = p
    · rw [if_pos hq, if_pos hq, hq, hp]
      rfl
    · rw [if_neg hq, if_neg hq, Option.or_none]

/-- The files that are loaded when they change belong to levels up to one. -/
def Confined (t : Tier) (c : Config κ) (watched : List (Place × Option κ)) : Prop :=
  ∀ p, (p, none) ∈ watched → ((c.files.lookup p).getD .user).rank ≤ t.rank

section Changes

variable [Yaml.Loader] [Yaml.Loader.Lawful] [Stack]

/-- A change of a file leaves it and all others at levels up to one. -/
theorem Confined.apply {watched : List (Place × Option κ)} {p : Place} {hook : Option κ} (h : Confined t c watched)
    (hp : (p, hook) ∈ watched) (tree : FileTree) (time : Int) :
    Confined t ((c.noteTime p time).apply tree p hook).1 watched := by
  cases hook with
  | some k => exact h
  | none =>
    unfold Config.apply
    dsimp only
    split
    · exact h
    · next c' hreload =>
      obtain ⟨-, q, hfiles⟩ := gives_reloadPlace (c.noteTime p time) tree p _ c' hreload
      have hconfined : Confined t c' watched := by
        intro r hr
        rw [hfiles, lookup_assign]
        split
        · exact h p hp
        · exact h r hr
      split
      · exact hconfined
      · exact hconfined

/-- A pass over files is a run of operations on their levels. -/
theorem runs_pollFrom (tree : FileTree) (pass : Pass κ) {watched rest : List (Place × Option κ)}
    (h : Confined t pass.config watched) (hrest : ∀ e ∈ rest, e ∈ watched) :
    Runs t key pass.config (pollFrom tree pass rest).config := by
  -- A change is one operation, and after it the files that are left belong to levels up to `t`
  -- still, though the one that was loaded may be known at another place by then.
  induction rest generalizing pass with
  | nil => exact .refl
  | cons entry rest ih =>
    obtain ⟨p, hook⟩ := entry
    obtain ⟨hp, hrest⟩ := List.forall_mem_cons.mp hrest
    rw [pollFrom]
    split
    · exact .refl
    · exact ih pass h hrest
    · next time _ =>
      have hstep : ∃ s : Tier, s.rank ≤ t.rank ∧
          Rewrites t key s pass.config ((pass.config.noteTime p time).apply tree p hook).1 := by
        cases hook with
        | some k => exact ⟨t, Nat.le_refl _, .change pass.config tree p time (some k) nofun⟩
        | none => exact ⟨_, h p hp, .change pass.config tree p time none fun _ => rfl⟩
      have hconfined := h.apply hp tree time
      cases happly : (pass.config.noteTime p time).apply tree p hook with
      | mk next notices =>
        rw [happly] at hstep hconfined
        dsimp only at hstep hconfined ⊢
        exact .head hstep (ih { config := next, changed := _, notices := _ } hconfined hrest)

theorem runs_poll (h : Confined t c c.watched) (tree : FileTree) : Runs t key c (c.poll tree).config :=
  runs_pollFrom tree { config := c } h fun _ he => he

end Changes

/-! ## What higher levels decide -/

/-- Where a level has a value that is no mapping, no run of operations on lower levels has an
    effect on what all levels have when they are merged, unless there is no room for merging any
    more; and where it has a value that is not null, none on what `get` finds.  Values that are set
    on the way are put at places from which the key is apart. -/
theorem decided_of_runs [Yaml.Loader] [Yaml.Loader.Lawful] [Stack] (hc : c.Proper) (h : Runs t key c c')
    (hu : t.rank < u.rank) (hx : c.getAt? u key = some x) :
    (x.isMapping = false → ∀ m, c.getAll = .ok m →
        (∃ m', c'.getAll = .ok m' ∧ atPath? (namesOf key) (.dict m') = atPath? (namesOf key) (.dict m)) ∨
          c'.getAll = .error .tooDeep) ∧
      (x.isNull = false → c'.get key = c.get key) := by
  obtain ⟨hkeeps, hc'⟩ := h.keeps hc
  refine ⟨fun hend m hm => c'.getAll_cases.imp_left fun hm' => ⟨c'.merged, hm', ?_⟩, hkeeps.get_eq hu hx⟩
  rw [eq_merged_of_getAll hm]
  exact hkeeps.atPath?_merged_eq hc hc' hu hx hend

attribute [local instance] Stack.usual Yaml.Loader.own

/-- A number in the place of all settings of the user has no effect on a policy that is set
    at the highest level. -/
theorem decided_of_runs_number :
    ∃ c c' : Config Unit, ∃ m m', c.Proper ∧ Runs .user "vaultgate.default_policy" c c' ∧
      Tier.user.rank < Tier.runtime.rank ∧
      c.getAt? .runtime "vaultgate.default_policy" = some (.text "allow") ∧
      c.getAll = .ok m ∧ c'.getAll = .ok m' ∧
      atPath? (namesOf "vaultgate.default_policy") (.dict m') = atPath? (namesOf "vaultgate.default_policy") (.dict m) ∧
      c'.get "vaultgate.default_policy" = c.get "vaultgate.default_policy" := by
  have hentries : areProper [(.text "vaultgate", .dict [(.text "default_policy", .text "allow")])] = true := by cbv
  obtain ⟨c, hload⟩ : ∃ c : Config Unit,
      c = initial.loadEntries [(.text "vaultgate", .dict [(.text "default_policy", .text "allow")])] .runtime :=
    ⟨_, rfl⟩
  have hc : c.Proper := by
    rw [hload]
    exact (writes_loadEntries hentries .runtime).proper proper_initial
  have hat : c.getAt? .runtime "vaultgate.default_policy" = some (.text "allow") := by
    rw [hload]
    cbv
  obtain ⟨c', hc', hnumber⟩ : ∃ c', c' = c.loadEntries [(.text "vaultgate", .int 7)] .user ∧
      c.loadCopy [(.text "vaultgate", .int 7)] .user = .ok c' := ⟨_, rfl, by rw [loadCopy, if_pos (by decide +kernel)]⟩
  have hruns : Runs .user "vaultgate.default_policy" c c' :=
    .single ⟨.user, Nat.le_refl _, .load _ (by cbv) [] hnumber⟩
  have hm : c.getAll.toOption.isSome = true := by
    rw [hload]
    decide +kernel
  have hroom : c'.getAll.toOption.isSome = true := by
    rw [hc', hload]
    decide +kernel
  obtain ⟨hmerged, hget⟩ := decided_of_runs hc hruns (by decide : Tier.user.rank < Tier.runtime.rank) hat
  rcases hmerged rfl c.merged (getAll_of_isSome hm) with ⟨m', hm', hsame⟩ | hdeep
  · exact ⟨c, c', c.merged, m', hc, hruns, by decide, hat, getAll_of_isSome hm, hm', hsame, hget rfl⟩
  · rw [hdeep] at hroom
    cases hroom

/-- The settings of the log, as a mapping to be put at a key. -/
def logging : Value := .dict [(.text "level", .text "INFO")]

/-- One mapping that has been put at the level of the user and at the highest one. -/
def sharedLogging : Config Unit :=
  let c := (initial.write "vaultgate.logging" logging .user).1
  (c.write "vaultgate.logging" logging .runtime
    [{ inside := [[]], already := [(.user, Trail.ofNames (namesOf "vaultgate.logging"))] }]).1

/-- The text, if it is one. -/
def textOf? : Option Value → Option Text
  | some (.text t) => some t
  | _ => none

theorem eq_text_of_textOf? {x : Option Value} {t : Text} (h : textOf? x = some t) : x = some (.text t) := by
  unfold textOf? at h
  split at h
  · cases h
    rfl
  · cases h

/-- Something is put into it at the level of the user. -/
def changedLogging : Config Unit := (sharedLogging.write "vaultgate.logging.level" (.text "DEBUG") .user).1

/-- The text that all levels have at a key when they are merged, if it is one. -/
def textIn? (c : Config Unit) (key : Text) : Option Text :=
  c.getAll.toOption.bind fun m => textOf? (atPath? (namesOf key) (.dict m))

/-- A policy that is set at the highest level. -/
def allowingRuntime : Config Unit := (initial.write "vaultgate.default_policy" (.text "allow") .runtime).1

/-- A key with as many names. -/
def longKey (n : Nat) : Text := Text.join [CodePoint.dot] (List.replicate (n + 1) ("x" : Text))

theorem namesOf_longKey (n : Nat) : namesOf (longKey n) = List.replicate (n + 1) ("x" : Text) := by
  refine Text.pieces_join (fun name hname => ?_) (by simp)
  rw [List.eq_of_mem_replicate hname]
  decide

/-- What is put into the mapping at the level of the user is found at the highest level, in the place of
    what it has.  And once a value has been put at a long key of the level of the user, there is no
    merging all levels, nor finding the policy of the highest one among them. -/
theorem changed_from_below :
    Tier.user.rank < Tier.runtime.rank ∧
      sharedLogging.getAt? .runtime "vaultgate.logging.level" = some (.text "INFO") ∧
      sharedLogging.get "vaultgate.logging.level" = some (.text "INFO") ∧
      changedLogging.get "vaultgate.logging.level" = some (.text "DEBUG") ∧
      sharedLogging.textIn? "vaultgate.logging.level" = some "INFO" ∧
      changedLogging.textIn? "vaultgate.logging.level" = some "DEBUG" ∧
      allowingRuntime.getAt? .runtime "vaultgate.default_policy" = some (.text "allow") ∧
      allowingRuntime.textIn? "vaultgate.default_policy" = some "allow" ∧
      ∃ c', allowingRuntime.write (longKey 1999) (.int 1) .user = (c', [], .error .tooDeep) ∧
        c'.getAll = .error .tooDeep := by
  have hlong : Stack.room < (namesOf (longKey 1999)).length := by
    rw [namesOf_longKey, List.length_replicate]
    decide
  have hnone : (allowingRuntime.contents .user).isNone = true := by decide +kernel
  have hfree : ¬ Blocked ((allowingRuntime.contents .user).getD []) (namesOf (longKey 1999)) := by
    rw [Option.isNone_iff_eq_none.mp hnone]
    exact not_blocked_nil
  obtain ⟨c', hwrite, -, hdeep⟩ := write_long_key allowingRuntime (.int 1) .user [] hlong hfree
  refine ⟨by decide, eq_text_of_textOf? ?_, eq_text_of_textOf? ?_, eq_text_of_textOf? ?_, ?_, ?_,
    eq_text_of_textOf? ?_, ?_, c', hwrite, hdeep⟩ <;> decide +kernel

end Config

end NoteAccess
