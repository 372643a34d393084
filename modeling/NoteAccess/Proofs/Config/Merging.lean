/-
  NoteAccess.Proofs.Config.Merging

  Putting values over other ones.  Two values agree along a path of names if they
  are mappings at the same places of it and the same value at its end (`Agree`).

  What is put over both of them keeps the agreement (`agree_mergeOver`), and what
  has a value at the end of the path that is no mapping makes it, whatever it is put
  over (`agree_of_atPath?`).  So what is below such a value has no effect at the path
  (`atPath?_foldl_merge`).
-/

import NoteAccess.Config
import NoteAccess.Proofs.Value

namespace NoteAccess.Value

/-- The value is a mapping. -/
def isMapping : Value → Bool
  | .dict _ => true
  | _ => false

theorem mapping_or_not (a : Option Value) : (∃ entries, a = some (.dict entries)) ∨ a.any isMapping = false := by
  cases a with
  | none => exact .inr rfl
  | some v =>
    cases v with
    | dict entries => exact .inl ⟨entries, rfl⟩
    | _ => exact .inr rfl

/-- The values are mappings at the same places of the path, and the same at its end. -/
def Agree : List Text → Option Value → Option Value → Prop
  | [], a, b => a = b
  | name :: rest, a, b =>
    (∃ e e', a = some (.dict e) ∧ b = some (.dict e') ∧ Agree rest (field? name e) (field? name e')) ∨
      (a.any isMapping = false ∧ b.any isMapping = false)

theorem agree_refl (path : List Text) (a : Option Value) : Agree path a a := by
  induction path generalizing a with
  | nil => rfl
  | cons name rest ih =>
    rcases mapping_or_not a with ⟨entries, rfl⟩ | hnot
    · exact .inl ⟨entries, entries, rfl, rfl, ih _⟩
    · exact .inr ⟨hnot, hnot⟩

theorem atPath?_eq_none {a : Option Value} (h : a.any isMapping = false) (name : Text) (rest : List Text) :
    a.bind (atPath? (name :: rest)) = none := by
  cases a with
  | none => rfl
  | some v =>
    cases v with
    | dict entries => cases h
    | _ => rfl

/-- Where values agree along a path, it leads to the same value. -/
theorem atPath?_of_agree {path : List Text} {a b : Option Value} (h : Agree path a b) :
    a.bind (atPath? path) = b.bind (atPath? path) := by
  induction path generalizing a b with
  | nil => rw [show a = b from h]
  | cons name rest ih =>
    rcases h with ⟨e, e', rfl, rfl, h⟩ | ⟨ha, hb⟩
    · exact ih h
    · rw [atPath?_eq_none ha, atPath?_eq_none hb]

/-! ## Putting a value over another one -/

theorem mergeOver_of_not_mapping {v : Value} (h : v.isMapping = false) (base : Option Value) :
    mergeOver base v = v := by
  cases v with
  | dict entries => cases h
  | _ => rw [mergeOver]; rintro _ ⟨⟩

theorem mergeOver_of_base {base : Option Value} (h : base.any isMapping = false) (v : Value) :
    mergeOver base v = v := by
  cases v with
  | dict entries =>
    rw [mergeOver]
    rintro old rfl
    cases h
  | _ => exact mergeOver_of_not_mapping rfl base

/-- What is put over both keeps the agreement. -/
theorem agree_mergeOver {path : List Text} {a b : Option Value} (h : Agree path a b) (v : Value) :
    Agree path (some (mergeOver a v)) (some (mergeOver b v)) := by
  -- By induction on the path: what is put over the mappings at its beginning changes what is
  -- behind its first name only by values that are put over it.
  induction path generalizing a b v with
  | nil => rw [show a = b from h]; exact agree_refl _ _
  | cons name rest ih =>
    have hentries : ∀ (entries : Mapping) (e e' : Mapping), Agree rest (field? name e) (field? name e') →
        Agree rest (field? name (mergeEntries e entries)) (field? name (mergeEntries e' entries)) := by
      intro entries
      induction entries with
      | nil => exact fun e e' he => he
      | cons entry entries ihEntries =>
        obtain ⟨k, w⟩ := entry
        intro e e' he
        rw [mergeEntries, mergeEntries]
        refine ihEntries _ _ ?_
        rw [field?_insert, field?_insert]
        split
        · next hk =>
          rw [sameKey_text_iff.mp hk]
          exact ih he w
        · exact he
    rcases h with ⟨e, e', rfl, rfl, h⟩ | ⟨ha, hb⟩
    · cases v with
      | dict entries => exact .inl ⟨_, _, rfl, rfl, hentries entries e e' h⟩
      | _ => exact agree_refl _ _
    · rw [mergeOver_of_base ha, mergeOver_of_base hb]
      exact agree_refl _ _

/-- Each name of a mapping that is put over another one has its value put over the other's. -/
theorem field?_mergeEntries (name : Text) {entries : Mapping} (h : areProper entries = true) (base : Mapping) :
    field? name (mergeEntries base entries) =
      match field? name entries with
      | some w => some (mergeOver (field? name base) w)
      | none => field? name base := by
  induction entries generalizing base with
  | nil => rfl
  | cons entry entries ih =>
    obtain ⟨k, v⟩ := entry
    obtain ⟨-, -, hrest⟩ := areProper_cons.mp h
    rw [mergeEntries, ih hrest, field?_insert, field?_cons]
    by_cases hk : k.sameKey (.text name) = true
    · rw [if_pos hk, if_pos hk]
      obtain rfl := sameKey_text_iff.mp hk
      rw [field?_eq_none_of_areProper h]
      rfl
    · rw [if_neg hk, if_neg hk]

theorem exists_field?_mergeOver {name : Text} {entries : Mapping} {w : Value} (h : areProper entries = true)
    (hw : field? name entries = some w) (base : Option Value) :
    ∃ e below, mergeOver base (.dict entries) = .dict e ∧ field? name e = some (mergeOver below w) := by
  rcases mapping_or_not base with ⟨old, rfl⟩ | hbase
  · refine ⟨mergeEntries old entries, field? name old, by rw [mergeOver], ?_⟩
    rw [field?_mergeEntries name h, hw]
  · refine ⟨entries, none, mergeOver_of_base hbase _, ?_⟩
    rw [mergeOver_of_base rfl, hw]

/-- A value at the end of the path that is no mapping makes values agree, whatever it is put
    over. -/
theorem agree_of_atPath? {path : List Text} {v x : Value} (hv : v.isProper = true) (hx : atPath? path v = some x)
    (hend : x.isMapping = false) (a b : Option Value) :
    Agree path (some (mergeOver a v)) (some (mergeOver b v)) := by
  -- At the end of the path the value replaces what was there; before it, both results are
  -- mappings, for `v` is one, and hold the next value of `v` put over something.
  induction path generalizing v a b with
  | nil =>
    obtain rfl : v = x := Option.some.inj hx
    rw [mergeOver_of_not_mapping hend, mergeOver_of_not_mapping hend]
    exact agree_refl _ _
  | cons name rest ih =>
    cases v with
    | dict entries =>
      obtain ⟨w, hw, hrest⟩ := Option.bind_eq_some_iff.mp hx
      have hproper : areProper entries = true := by rwa [isProper] at hv
      obtain ⟨e, below, he, hfield⟩ := exists_field?_mergeOver hproper hw a
      obtain ⟨e', below', he', hfield'⟩ := exists_field?_mergeOver hproper hw b
      refine .inl ⟨e, e', congrArg some he, congrArg some he', ?_⟩
      rw [hfield, hfield']
      exact ih (isProper_of_field? hproper hw) hrest below below'
    | _ => cases hx

/-! ## Putting mappings over each other -/

theorem agree_foldl {path : List Text} {a b : Mapping} (h : Agree path (some (.dict a)) (some (.dict b)))
    (mappings : List Mapping) :
    Agree path (some (.dict (mappings.foldl mergeEntries a))) (some (.dict (mappings.foldl mergeEntries b))) := by
  induction mappings generalizing a b with
  | nil => exact h
  | cons m mappings ih =>
    have hstep := agree_mergeOver h (.dict m)
    rw [mergeOver, mergeOver] at hstep
    exact ih hstep

/-- Mappings one over the other have the same value at a path, whatever is below them, if one of
    them has a value there that is no mapping. -/
theorem atPath?_foldl_merge {path : List Text} {mappings : List Mapping} {m : Mapping} {x : Value}
    (hm : m ∈ mappings) (hproper : areProper m = true) (hx : atPath? path (.dict m) = some x)
    (hend : x.isMapping = false) (a b : Mapping) :
    atPath? path (.dict (mappings.foldl mergeEntries a)) = atPath? path (.dict (mappings.foldl mergeEntries b)) := by
  obtain ⟨lower, upper, rfl⟩ := List.append_of_mem hm
  rw [List.foldl_append, List.foldl_append, List.foldl_cons, List.foldl_cons]
  have hmade := agree_of_atPath? (v := .dict m) (by rwa [isProper]) hx hend
    (some (.dict (lower.foldl mergeEntries a))) (some (.dict (lower.foldl mergeEntries b)))
  exact atPath?_of_agree (agree_foldl hmade upper)

/-! ## Room for merging -/

/-- Mappings are put over each other, or there is no room for it. -/
theorem foldlM_mergeWithin_cases [Stack] (mappings : List Mapping) (base : Mapping) :
    mappings.foldlM mergeWithin base = .ok (mappings.foldl mergeEntries base) ∨
      mappings.foldlM mergeWithin base = .error .tooDeep := by
  induction mappings generalizing base with
  | nil => exact .inl rfl
  | cons m mappings ih =>
    rw [List.foldlM_cons, mergeWithin]
    split
    · exact ih _
    · exact .inr rfl

end NoteAccess.Value

namespace NoteAccess.Config

variable {κ : Type} [Stack] {c : Config κ} {m : Value.Mapping}

/-- A copy of all levels is what they are when merged, or there is no room for making it. -/
theorem getAll_cases (c : Config κ) : c.getAll = .ok c.merged ∨ c.getAll = .error .tooDeep :=
  Value.foldlM_mergeWithin_cases _ []

theorem eq_merged_of_getAll (h : c.getAll = .ok m) : m = c.merged := by
  rcases c.getAll_cases with hok | herror
  · rw [hok] at h
    exact (Except.ok.inj h).symm
  · rw [herror] at h
    cases h

theorem getAll_of_isSome (h : c.getAll.toOption.isSome = true) : c.getAll = .ok c.merged := by
  rcases c.getAll_cases with hok | herror
  · exact hok
  · rw [herror] at h
    cases h

end NoteAccess.Config
