/-
  NoteAccess.Proofs.Config.Depth

  How deeply calls nest where levels are merged: at least as deeply as mappings at the end of
  a path are inside each other (`length_le_mergeDepth`).  So a value at a key with more names
  than there is room for makes merging fail, at whatever level it is (`getAll_eq_tooDeep`).
-/

import NoteAccess.Proofs.Config.Merging
import NoteAccess.Proofs.Outcome

namespace NoteAccess

namespace Value

variable {entries base : Mapping} {path : List Text} {name : Text} {v x : Value}

/-! ## Copying -/

theorem copyDepth_le_of_field? (h : field? name entries = some v) : v.copyDepth ≤ copyDepthEntries entries := by
  induction entries with
  | nil => cases h
  | cons entry entries ih =>
    obtain ⟨k, w⟩ := entry
    rw [field?_cons] at h
    rw [copyDepthEntries]
    split at h
    · cases h
      omega
    · have hrest := ih h
      omega

/-- Each mapping on the way along a path adds to the calls. -/
theorem length_le_copyDepth (h : atPath? path v = some x) : path.length ≤ v.copyDepth := by
  induction path generalizing v with
  | nil => exact Nat.zero_le _
  | cons name rest ih =>
    cases v with
    | dict entries =>
      obtain ⟨w, hw, hrest⟩ := Option.bind_eq_some_iff.mp h
      have hinside := ih hrest
      have hentry := copyDepth_le_of_field? hw
      rw [copyDepth, List.length_cons]
      omega
    | _ => cases h

/-! ## Merging -/

theorem mergeDepth_le_of_field? (h : field? name entries = some v) (base : Mapping) :
    mergeDepth (field? name base) v ≤ mergeDepthEntries base entries := by
  induction entries with
  | nil => cases h
  | cons entry entries ih =>
    obtain ⟨k, w⟩ := entry
    rw [field?_cons] at h
    rw [mergeDepthEntries]
    split at h
    · next hk =>
      cases h
      rw [sameKey_text_iff.mp hk]
      exact Nat.le_max_left _ _
    · exact Nat.le_trans (ih h) (Nat.le_max_right _ _)

/-- Whatever a value is put over. -/
theorem length_le_mergeDepth (h : atPath? path v = some x) (base : Option Value) :
    path.length ≤ mergeDepth base v := by
  induction path generalizing v base with
  | nil => exact Nat.zero_le _
  | cons name rest ih =>
    cases v with
    | dict entries =>
      rcases mapping_or_not base with ⟨old, rfl⟩ | hbase
      · obtain ⟨w, hw, hrest⟩ := Option.bind_eq_some_iff.mp h
        have hinside := ih hrest (field? name old)
        have hentry := mergeDepth_le_of_field? hw old
        rw [mergeDepth, List.length_cons]
        omega
      · rw [mergeDepth]
        · exact length_le_copyDepth h
        · rintro old rfl
          cases hbase
    | _ => cases h

/-- All that has been merged was not nested more deeply than there is room for. -/
theorem length_le_of_foldlM [Stack] {mappings : List Mapping} {m merged : Mapping}
    (hok : mappings.foldlM mergeWithin base = .ok merged) (hm : m ∈ mappings) (h : atPath? path (.dict m) = some x) :
    path.length ≤ Stack.room := by
  induction mappings generalizing base with
  | nil => cases hm
  | cons e mappings ih =>
    rw [List.foldlM_cons] at hok
    obtain ⟨next, hnext, hrest⟩ := bind_eq_ok_iff.mp hok
    rcases List.mem_cons.mp hm with rfl | hm
    · rw [mergeWithin] at hnext
      split at hnext
      · next hroom => exact Nat.le_trans (length_le_mergeDepth h _) hroom
      · cases hnext
    · exact ih hrest hm

end Value

namespace Config

open Value

variable {κ : Type} [Stack] {c : Config κ} {t : Tier} {key : Text} {v x : Value}

/-- If some level has a value at a key with too many names, there is no room for merging. -/
theorem getAll_eq_tooDeep (h : c.getAt? t key = some x) (hlong : Stack.room < (namesOf key).length) :
    c.getAll = .error .tooDeep := by
  rcases c.getAll_cases with hok | hdeep
  · obtain ⟨entries, hentries, hat⟩ := Option.bind_eq_some_iff.mp h
    have hmem : entries ∈ Tier.all.filterMap c.contents :=
      List.mem_filterMap.mpr ⟨t, by cases t <;> decide, hentries⟩
    exact absurd (length_le_of_foldlM hok hmem hat) (Nat.not_le.mpr hlong)
  · exact hdeep

end Config

end NoteAccess
