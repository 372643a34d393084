/-
  NoteAccess.Proofs.Config.Reading

  Two ways to read a configuration: `Config.get` asks one level after the other and
  takes the first value that is not null, the merged configuration holds all levels
  at once.

  A value that is put over another one has, at the end of a path, what it had there
  itself, or else what the other one had (`atPath?_mergeOver`); only mappings are
  mixed.  So what the merged configuration has at a key, unless it is null or a
  mapping, is what the highest of the levels has that have anything there
  (`getOr_of_merged`).
-/

import Mathlib.Data.List.Induction
import NoteAccess.Proofs.Config.Levels

namespace NoteAccess

namespace Value

/-- A mapping put over anything is a mapping. -/
theorem isMapping_of_mergeOver {base : Option Value} {v : Value} (h : (mergeOver base v).isMapping = false) :
    v.isMapping = false := by
  cases v with
  | dict entries =>
    rcases mapping_or_not base with ⟨old, rfl⟩ | hbase
    · rw [mergeOver] at h
      cases h
    · rwa [mergeOver_of_base hbase] at h
  | _ => rfl

/-- A value put over another one has at the end of a path what it had there itself, or else what
    was there before, unless that is a mapping. -/
theorem atPath?_mergeOver {path : List Text} {base : Option Value} {v x : Value} (hv : v.isProper = true)
    (hx : atPath? path (mergeOver base v) = some x) (hend : x.isMapping = false) :
    (atPath? path v).or (base.bind (atPath? path)) = some x := by
  -- By induction on the path: where two mappings meet, the next name of the upper one leads to a
  -- value that is put over the lower one's, or the upper one has no such name.
  induction path generalizing base v with
  | nil =>
    obtain rfl : mergeOver base v = x := Option.some.inj hx
    rw [mergeOver_of_not_mapping (isMapping_of_mergeOver hend)]
    rfl
  | cons name rest ih =>
    rcases mapping_or_not base with ⟨old, rfl⟩ | hbase
    · cases v with
      | dict entries =>
        have hproper : areProper entries = true := by rwa [isProper] at hv
        rw [mergeOver] at hx
        change (field? name (mergeEntries old entries)).bind (atPath? rest) = some x at hx
        change ((field? name entries).bind (atPath? rest)).or ((field? name old).bind (atPath? rest)) = some x
        rw [field?_mergeEntries name hproper] at hx
        cases hfield : field? name entries with
        | none =>
          rw [hfield] at hx
          exact hx
        | some w =>
          rw [hfield] at hx
          exact ih (isProper_of_field? hproper hfield) hx
      | _ => rw [mergeOver_of_not_mapping rfl] at hx; cases hx
    · rw [mergeOver_of_base hbase] at hx
      rw [hx]
      rfl

/-- The first value that is not null at a path of mappings, of which the last one comes first. -/
def topmost? (path : List Text) (mappings : List Mapping) : Option Value :=
  mappings.reverse.findSome? fun m => (atPath? path (.dict m)).filter (! ·.isNull)

theorem topmost?_concat (path : List Text) (mappings : List Mapping) (m : Mapping) :
    topmost? path (mappings ++ [m]) =
      ((atPath? path (.dict m)).filter (! ·.isNull)).or (topmost? path mappings) := by
  rw [topmost?, List.reverse_append, List.findSome?_append, List.reverse_singleton, List.findSome?_singleton]
  rfl

/-- What mappings one over the other have at a path is what the topmost of them has there, unless it
    is null or a mapping. -/
theorem topmost?_of_foldl {path : List Text} {mappings : List Mapping} {x : Value}
    (hproper : ∀ m ∈ mappings, areProper m = true)
    (hx : atPath? path (.dict (mappings.foldl mergeEntries [])) = some x)
    (hnull : x.isNull = false) (hend : x.isMapping = false) : topmost? path mappings = some x := by
  induction mappings using List.reverseRecOn with
  | nil =>
    -- The empty mapping has no value but itself.
    cases path with
    | nil =>
      cases hx
      cases hend
    | cons name rest => cases hx
  | append_singleton mappings m ih =>
    obtain ⟨hlower, hm⟩ := List.forall_mem_append.mp hproper
    rw [List.foldl_concat, ← mergeOver] at hx
    have hm : (Value.dict m).isProper = true := by
      rw [isProper]
      exact hm m (List.mem_singleton_self m)
    have hmerged := atPath?_mergeOver hm hx hend
    rw [topmost?_concat]
    cases hat : atPath? path (.dict m) with
    | some y =>
      rw [hat] at hmerged
      cases hmerged
      rw [Option.filter_some, hnull]
      rfl
    | none =>
      rw [hat] at hmerged
      exact ih hlower hmerged

end Value

namespace Config

open Value

variable {κ : Type} {c : Config κ} {key : Text} {x : Value}

theorem get_eq_topmost? (c : Config κ) (key : Text) :
    c.get key = topmost? (namesOf key) (Tier.all.filterMap c.contents) := by
  rw [get, topmost?, ← List.filterMap_reverse, ← List.head?_filterMap, ← List.head?_filterMap,
    List.filterMap_filterMap]
  refine congrArg List.head? (List.filterMap_congr fun t _ => ?_)
  rw [getAt?]
  cases c.contents t <;> rfl

/-- Where the merged configuration has a value that is neither null nor a mapping, asking the levels
    for it gives this value, whatever is to be given where there is none. -/
theorem getOr_of_merged (hc : c.Proper) (hx : atPath? (namesOf key) (.dict c.merged) = some x)
    (hnull : x.isNull = false) (hend : x.isMapping = false) (default : Value) : c.getOr key default = x := by
  have hproper : ∀ m ∈ Tier.all.filterMap c.contents, areProper m = true := by
    intro m hm
    obtain ⟨t, -, ht⟩ := List.mem_filterMap.mp hm
    exact hc t m ht
  rw [getOr, get_eq_topmost?, topmost?_of_foldl hproper hx hnull hend]
  rfl

/-- A level between one with another part of its section and one with a number in the place of the
    section. -/
theorem getOr_of_merged_section :
    ∃ c : Config Unit, c.Proper ∧
      c.getAt? .user "vaultgate.logging" = some (.int 5) ∧
      c.getAt? .runtime "vaultgate.logging" = some (.dict [(.text "file", .text "log")]) ∧
      atPath? (namesOf "vaultgate.logging.level") (.dict c.merged) = some (.text "DEBUG") ∧
      c.getOr "vaultgate.logging.level" .null = .text "DEBUG" := by
  obtain ⟨number, hnumber⟩ : ∃ e : Mapping, e = [(.text "vaultgate", .dict [(.text "logging", .int 5)])] := ⟨_, rfl⟩
  obtain ⟨level, hlevel⟩ : ∃ e : Mapping, e =
    [(.text "vaultgate", .dict [(.text "logging", .dict [(.text "level", .text "DEBUG")])])] := ⟨_, rfl⟩
  obtain ⟨file, hfile⟩ : ∃ e : Mapping, e =
    [(.text "vaultgate", .dict [(.text "logging", .dict [(.text "file", .text "log")])])] := ⟨_, rfl⟩
  obtain ⟨c, hc⟩ : ∃ c : Config Unit, c =
    ((initial.loadEntries number .user).loadEntries level .arguments).loadEntries file .runtime := ⟨_, rfl⟩
  have hproper : c.Proper := by
    rw [hc]
    refine (writes_loadEntries (by rw [hfile]; cbv) .runtime).proper ?_
    refine (writes_loadEntries (by rw [hlevel]; cbv) .arguments).proper ?_
    exact (writes_loadEntries (by rw [hnumber]; cbv) .user).proper proper_initial
  have hmerged : atPath? (namesOf "vaultgate.logging.level") (.dict c.merged) = some (.text "DEBUG") := by
    rw [hc, hnumber, hlevel, hfile]
    cbv
  refine ⟨c, hproper, ?_, ?_, hmerged, getOr_of_merged hproper hmerged rfl rfl .null⟩
  · rw [hc, hnumber, hlevel, hfile]
    cbv
  · rw [hc, hnumber, hlevel, hfile]
    cbv

end Config

end NoteAccess
