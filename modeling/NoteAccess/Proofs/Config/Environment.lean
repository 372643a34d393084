/-
  NoteAccess.Proofs.Config.Environment

  The settings in the variables of the environment do not depend on the order of the
  variables.

  A variable prevails if no other one's path is a proper beginning of its own.  Those
  that prevail among the variables that have been read hold at each moment (`Holds`):
  one more either finds a value on its way and is passed over, or replaces all that is
  behind the end of its path (`Holds.write`).  So the settings are the values of the
  variables that prevail, and nothing else (`settings_of_distinct`).

  Mappings are the same when they have the same keys with the same values, in whatever
  order (`Same`).
-/

import Mathlib.Data.List.Induction
import NoteAccess.Config.Environment
import NoteAccess.Proofs.Config.Writing
import NoteAccess.Proofs.Text

namespace NoteAccess

open Value

/-! ## Mappings in any order -/

namespace Value

/-- The values are equal but for the order of entries. -/
inductive Same : Value → Value → Prop
  | plain {v : Value} (h : v.isMapping = false) : Same v v
  | mapping {e e' : Mapping} (hkeys : ∀ k, (lookup? k e).isSome = (lookup? k e').isSome)
      (h : ∀ k v v', lookup? k e = some v → lookup? k e' = some v' → Same v v') : Same (.dict e) (.dict e')

/-- All keys of the mapping and of the mappings in it are names. -/
inductive Named : Value → Prop
  | plain {v : Value} (h : v.isMapping = false) : Named v
  | mapping {e : Mapping} (hkeys : ∀ entry ∈ e, ∃ name, entry.1 = .text name) (h : ∀ entry ∈ e, Named entry.2) :
      Named (.dict e)

variable {v w : Value} {entries : Mapping} {name : Text}

theorem named_nil : Named (.dict []) := .mapping nofun nofun

theorem Named.of_lookup? {k : Value} (h : Named (.dict entries)) (hv : lookup? k entries = some v) :
    (∃ name, k = .text name) ∧ Named v := by
  obtain ⟨k', hmem, hk⟩ := exists_mem_of_lookup? hv
  cases h with
  | plain h => cases h
  | mapping hkeys h =>
    obtain ⟨name, rfl⟩ := hkeys _ hmem
    exact ⟨⟨name, text_sameKey_iff.mp hk⟩, h _ hmem⟩

theorem Named.insert (h : Named (.dict entries)) (hv : Named v) : Named (.dict (insert (.text name) v entries)) := by
  cases h with
  | plain h => cases h
  | mapping hkeys h =>
    refine .mapping (fun entry hentry => ?_) fun entry hentry => ?_
    · rcases mem_insert hentry with hk | ⟨old, hold, hk⟩
      · exact ⟨name, hk⟩
      · rw [← hk]
        exact hkeys old hold
    · rcases snd_of_mem_insert hentry with hw | hold
      · rwa [hw]
      · exact h entry hold

theorem Named.write (h : Named (.dict entries)) (hv : Named v) (path : List Text) :
    Named (.dict (write entries path v).1) := by
  induction path generalizing entries with
  | nil => exact h
  | cons name path ih =>
    obtain rfl | hrest := eq_or_ne path []
    · exact h.insert hv
    · rcases mapping_or_blocked name entries with ⟨inner, hinner⟩ | ⟨x, hfield, hx⟩
      · rw [write_of_mapping hinner hrest]
        refine h.insert (ih ?_)
        rcases there_or_new hinner with hthere | ⟨-, rfl⟩
        · exact (h.of_lookup? hthere).2
        · exact named_nil
      · obtain ⟨f, hfails⟩ := write_of_not_mapping hfield hx hrest v
        rwa [hfails]

/-- Both are the same value, or both are mappings. -/
structure Alike (a b : Option Value) : Prop where
  value : ∀ x, x.isMapping = false → (a = some x ↔ b = some x)
  mapping : (∃ e, a = some (.dict e)) ↔ ∃ e, b = some (.dict e)

theorem Alike.symm {a b : Option Value} (h : Alike a b) : Alike b a :=
  ⟨fun x hx => (h.value x hx).symm, h.mapping.symm⟩

theorem Alike.isSome {a b : Option Value} (h : Alike a b) (ha : a.isSome = true) : b.isSome = true := by
  obtain ⟨x, rfl⟩ := Option.isSome_iff_exists.mp ha
  rcases mapping_or_not (some x) with ⟨e, he⟩ | hx
  · obtain ⟨e', rfl⟩ := h.mapping.mp ⟨e, he⟩
    rfl
  · rw [(h.value x hx).mp rfl]
    rfl

/-- Values with names for keys are the same if they are alike at the end of every path. -/
theorem same_of_alike (hv : Named v) (hw : Named w) (h : ∀ path, Alike (atPath? path v) (atPath? path w)) :
    Same v w := by
  -- By induction on the first of the two: what is at a name of both is alike at every path again.
  induction hv generalizing w with
  | plain hplain =>
    cases ((h []).value _ hplain).mp rfl
    exact .plain hplain
  | @mapping e hkeys hnamed ih =>
    obtain ⟨e', he'⟩ := (h []).mapping.mp ⟨e, rfl⟩
    obtain rfl : w = .dict e' := Option.some.inj he'
    have hv : Named (.dict e) := .mapping hkeys hnamed
    have hname : ∀ name, Alike (field? name e) (field? name e') := by
      intro name
      have hsingle := h [name]
      rwa [atPath?_single, atPath?_single] at hsingle
    refine .mapping (fun k => Bool.eq_iff_iff.mpr ⟨fun hk => ?_, fun hk => ?_⟩) fun k x x' hx hx' => ?_
    · obtain ⟨x, hx⟩ := Option.isSome_iff_exists.mp hk
      obtain ⟨⟨name, rfl⟩, -⟩ := hv.of_lookup? hx
      exact (hname name).isSome hk
    · obtain ⟨x, hx⟩ := Option.isSome_iff_exists.mp hk
      obtain ⟨⟨name, rfl⟩, -⟩ := hw.of_lookup? hx
      exact (hname name).symm.isSome hk
    · obtain ⟨⟨name, rfl⟩, -⟩ := hv.of_lookup? hx
      obtain ⟨k', hmem, -⟩ := exists_mem_of_lookup? hx
      refine ih (k', x) hmem (hw.of_lookup? hx').2 fun path => ?_
      have hpath := h (name :: path)
      rw [atPath?, atPath?, show field? name e = some x from hx, show field? name e' = some x' from hx'] at hpath
      exact hpath

theorem Same.eq_nil_iff {e e' : Mapping} (h : Same (.dict e) (.dict e')) (he : Named (.dict e))
    (he' : Named (.dict e')) : e = [] ↔ e' = [] := by
  have hempty : ∀ {e : Mapping}, Named (.dict e) → (e = [] ↔ ∀ k, (lookup? k e).isSome = false) := by
    intro e hnamed
    constructor
    · rintro rfl k
      rfl
    · intro hnone
      cases hnamed with
      | plain h => cases h
      | mapping hkeys h =>
        cases e with
        | nil => rfl
        | cons entry e =>
          obtain ⟨name, hname⟩ := hkeys entry (List.mem_cons_self ..)
          have hhead := hnone (.text name)
          rw [lookup?, if_pos (sameKey_text_iff.mpr hname)] at hhead
          cases hhead
  cases h with
  | plain h => cases h
  | mapping hkeys h => rw [hempty he, hempty he', forall_congr' fun k => by rw [hkeys k]]

/-- A section is the same as another one if what is in them is. -/
theorem Same.single (h : Same v w) (name : Text) : Same (.dict [(.text name, v)]) (.dict [(.text name, w)]) := by
  refine .mapping (fun k => ?_) fun k x x' hx hx' => ?_
  · simp only [lookup?]
    split <;> rfl
  · rw [lookup?] at hx hx'
    split at hx
    · next hk =>
      rw [if_pos hk] at hx'
      cases hx
      cases hx'
      exact h
    · cases hx

end Value

namespace Environment

variable {environment : List (Text × Text)} {vars : List (List Text × Value)} {path p q r : List Text} {v x y : Value}

/-! ## Variables that prevail -/

/-- The variables that are read, each with its path of names and its value. -/
def readable (environment : List (Text × Text)) : List (List Text × Value) :=
  environment.filterMap fun entry => (pathOf? entry.1).map fun path => (path, valueOf entry.2)

/-- What the names of variables have behind the mark, in small letters, is different for any two of
    them. -/
def Distinct (environment : List (Text × Text)) : Prop :=
  (environment.filterMap fun entry => (Text.dropLead? mark entry.1).map Text.lower).Nodup

/-- A variable has this path and this value, and no other one's path is a proper beginning of its
    path. -/
def Prevails (vars : List (List Text × Value)) (path : List Text) (x : Value) : Prop :=
  (path, x) ∈ vars ∧ ∀ e ∈ vars, e.1 <+: path → e.1 = path

/-- One of the variables with paths that a path begins with prevails. -/
theorem exists_prevails {e : List Text × Value} (he : e ∈ vars) :
    ∃ q y, Prevails vars q y ∧ q <+: e.1 := by
  -- By induction on the length of the path: either the variable prevails itself, or there is one
  -- with a shorter path.
  induction hlength : e.1.length using Nat.strongRecOn generalizing e with
  | ind n ih =>
    by_cases hall : ∀ f ∈ vars, f.1 <+: e.1 → f.1 = e.1
    · exact ⟨e.1, e.2, ⟨he, hall⟩, List.prefix_refl _⟩
    · simp only [not_forall] at hall
      obtain ⟨f, hf, hbegins, hne⟩ := hall
      have hshorter : f.1.length < n := by
        rw [← hlength]
        exact Nat.lt_of_le_of_ne hbegins.length_le fun h => hne (hbegins.eq_of_length h)
      obtain ⟨q, y, hq, hqf⟩ := ih f.1.length hshorter hf rfl
      exact ⟨q, y, hq, hqf.trans hbegins⟩

theorem prevails_concat_iff :
    Prevails (vars ++ [(p, v)]) path x ↔
      ((path, x) ∈ vars ∨ path = p ∧ x = v) ∧ (∀ e ∈ vars, e.1 <+: path → e.1 = path) ∧ (p <+: path → p = path) := by
  rw [Prevails, List.forall_mem_append, List.forall_mem_singleton, List.mem_append, List.mem_singleton, Prod.mk.injEq]

/-- A variable with a path behind the end of another one's has no effect on which prevail. -/
theorem prevails_concat_of_behind (hq : Prevails vars q y) (hr : r ≠ []) :
    Prevails (vars ++ [(q ++ r, v)]) path x ↔ Prevails vars path x := by
  rw [prevails_concat_iff]
  constructor
  · rintro ⟨hmem | ⟨rfl, -⟩, hall, -⟩
    · exact ⟨hmem, hall⟩
    · have hself := hall (q, y) hq.1 (List.prefix_append q r)
      exact absurd (List.append_right_eq_self.mp hself.symm) hr
  · rintro ⟨hmem, hall⟩
    refine ⟨.inl hmem, hall, fun hbegins => ?_⟩
    -- Such a path begins with that of the other variable as well, which prevails.
    obtain rfl : q = path := hall (q, y) hq.1 ((List.prefix_append q r).trans hbegins)
    exact ((List.prefix_append q r).eq_of_length_le hbegins.length_le).symm

/-- A variable whose path begins with no other one's prevails, and the paths of the others that
    prevail are those that do not begin with its own. -/
theorem prevails_concat_of_free (hfree : ∀ e ∈ vars, ¬ e.1 <+: p) :
    Prevails (vars ++ [(p, v)]) path x ↔ path = p ∧ x = v ∨ ¬ p <+: path ∧ Prevails vars path x := by
  rw [prevails_concat_iff]
  constructor
  · rintro ⟨hmem | ⟨rfl, rfl⟩, hall, hself⟩
    · refine .inr ⟨fun hbegins => ?_, hmem, hall⟩
      obtain rfl := hself hbegins
      exact hfree _ hmem (List.prefix_refl _)
    · exact .inl ⟨rfl, rfl⟩
  · rintro (⟨rfl, rfl⟩ | ⟨hbegins, hmem, hall⟩)
    · exact ⟨.inr ⟨rfl, rfl⟩, fun e he hbefore => absurd hbefore (hfree e he), fun _ => rfl⟩
    · exact ⟨.inl hmem, hall, fun hbehind => absurd hbehind hbegins⟩

/-! ## What the settings hold -/

/-- The entries have the values of the variables that prevail at the ends of their paths, mappings on
    the way to them, and nothing else. -/
structure Holds (entries : Mapping) (vars : List (List Text × Value)) : Prop where
  value : ∀ path x, x.isMapping = false → (atPath? path (.dict entries) = some x ↔ Prevails vars path x)
  mapping : ∀ path, path ≠ [] →
    ((∃ e, atPath? path (.dict entries) = some (.dict e)) ↔ ∃ more x, more ≠ [] ∧ Prevails vars (path ++ more) x)

theorem holds_nil : Holds [] [] where
  value path x hx := by
    refine iff_of_false (fun hat => ?_) fun h => absurd h.1 List.not_mem_nil
    cases path with
    | nil =>
      cases hat
      cases hx
    | cons name rest => cases hat
  mapping path hpath := by
    refine iff_of_false ?_ ?_
    · rintro ⟨e, hat⟩
      cases path with
      | nil => exact hpath rfl
      | cons name rest => cases hat
    · rintro ⟨more, x, -, h⟩
      exact absurd h.1 List.not_mem_nil

/-- A path that begins with another one, goes before it or parts from it. -/
theorem path_cases (path p : List Text) :
    (∃ r, path = p ++ r) ∨ (∃ r, r ≠ [] ∧ p = path ++ r) ∨ ¬ path <+: p ∧ ¬ p <+: path := by
  by_cases hbehind : p <+: path
  · obtain ⟨r, rfl⟩ := hbehind
    exact .inl ⟨r, rfl⟩
  · by_cases hbefore : path <+: p
    · obtain ⟨r, rfl⟩ := hbefore
      refine .inr (.inl ⟨r, ?_, rfl⟩)
      rintro rfl
      rw [List.append_nil] at hbehind
      exact hbehind (List.prefix_refl _)
    · exact .inr (.inr ⟨hbefore, hbehind⟩)

theorem atPath?_plain (hv : v.isMapping = false) (path : List Text) :
    atPath? path v = if path = [] then some v else none := by
  cases path with
  | nil => rfl
  | cons name rest => exact atPath?_eq_none (a := some v) hv name rest

/-- A value whose path begins with no other one's replaces what is behind the end of its path. -/
theorem Holds.write_free {entries : Mapping} (h : Holds entries vars) (hfree : ∀ e ∈ vars, ¬ e.1 <+: p)
    (hok : (Value.write entries p v).2 = .ok ()) (hp : p ≠ []) (hv : v.isMapping = false) :
    Holds (Value.write entries p v).1 (vars ++ [(p, v)]) where
  value path x hx := by
    rw [prevails_concat_of_free hfree]
    rcases path_cases path p with ⟨r, rfl⟩ | ⟨r, hr, rfl⟩ | ⟨hbefore, hbehind⟩
    · rw [atPath?_write_append hok hp, atPath?_plain hv, List.append_right_eq_self]
      simp only [List.prefix_append, not_true, false_and, or_false]
      split
      · next hr => simp only [hr, true_and, Option.some.injEq, eq_comm]
      · next hr => simp only [hr, false_and, reduceCtorEq]
    · obtain ⟨e, he⟩ := exists_atPath?_write hok hr
      rw [he]
      refine iff_of_false ?_ ?_
      · rintro hx'
        cases hx'
        cases hx
      · rintro (⟨hself, -⟩ | ⟨-, hmem, -⟩)
        · exact hr (List.append_right_eq_self.mp hself.symm)
        · exact hfree _ hmem (List.prefix_append _ _)
    · rw [atPath?_write_apart hbefore hbehind, h.value path x hx]
      have hne : path ≠ p := by
        rintro rfl
        exact hbefore (List.prefix_refl _)
      simp only [hne, false_and, false_or, hbehind, not_false_eq_true, true_and]
  mapping path hpath := by
    simp only [prevails_concat_of_free hfree]
    rcases path_cases path p with ⟨r, rfl⟩ | ⟨r, hr, rfl⟩ | ⟨hbefore, hbehind⟩
    · rw [atPath?_write_append hok hp, atPath?_plain hv]
      refine iff_of_false ?_ ?_
      · rintro ⟨e, he⟩
        split at he
        · cases he
          cases hv
        · cases he
      · rintro ⟨more, x, hmore, ⟨hself, -⟩ | ⟨hbehind, -⟩⟩
        · rw [List.append_assoc] at hself
          exact hmore (List.append_eq_nil_iff.mp (List.append_right_eq_self.mp hself)).2
        · exact hbehind ((List.prefix_append p r).trans (List.prefix_append _ more))
    · exact iff_of_true (exists_atPath?_write hok hr) ⟨r, v, hr, .inl ⟨rfl, rfl⟩⟩
    · rw [atPath?_write_apart hbefore hbehind, h.mapping path hpath]
      refine exists_congr fun more => exists_congr fun x => and_congr_right fun hmore => ?_
      have hapart : ¬ p <+: path ++ more := fun hbegins =>
        (List.prefix_or_prefix_of_prefix hbegins (List.prefix_append path more)).elim hbehind hbefore
      have hne : path ++ more ≠ p := by
        rintro rfl
        exact hbefore (List.prefix_append _ _)
      simp only [hne, false_and, false_or, hapart, not_false_eq_true, true_and]

/-- Reading one more variable keeps what the entries hold. -/
theorem Holds.write {entries : Mapping} (h : Holds entries vars) (hplain : ∀ e ∈ vars, e.2.isMapping = false)
    (hpaths : ∀ e ∈ vars, e.1 ≠ []) (hnew : ∀ e ∈ vars, e.1 ≠ p) (hp : p ≠ []) (hv : v.isMapping = false) :
    Holds (Value.write entries p v).1 (vars ++ [(p, v)]) := by
  rcases write_cases entries p v with ⟨hok, hfree⟩ | ⟨⟨f, hfails⟩, q, r, y, rfl, -, hr, hat, hy⟩
  · -- No other path is a beginning of the new one: one of them would belong to a variable that
    -- prevails, and its value would be in the way.
    have hfree : ∀ e ∈ vars, ¬ e.1 <+: p := by
      intro e he hbegins
      obtain ⟨q, y, hq, hqe⟩ := exists_prevails he
      obtain ⟨r, rfl⟩ := hqe.trans hbegins
      have hr : r ≠ [] := by
        rintro rfl
        exact hnew _ hq.1 (List.append_nil q).symm
      exact hfree ⟨q, r, y, rfl, hpaths _ hq.1, hr, (h.value q y (hplain _ hq.1)).mpr hq, hplain _ hq.1⟩
    exact h.write_free hfree hok hp hv
  · rw [hfails]
    have hq := (h.value q y hy).mp hat
    exact ⟨fun path x hx => (h.value path x hx).trans (prevails_concat_of_behind hq hr).symm,
      fun path hpath => (h.mapping path hpath).trans
        (exists_congr fun _ => exists_congr fun _ => and_congr_right fun _ => (prevails_concat_of_behind hq hr).symm)⟩

/-! ## Reading all variables -/

theorem isMapping_valueOf (t : Text) : (valueOf t).isMapping = false := by
  unfold valueOf
  dsimp only
  split
  · rfl
  split
  · rfl
  split
  · rfl
  split <;> rfl

/-- The path of a name is not empty, and tells what the name has behind the mark in small letters. -/
theorem pathOf?_eq_some {name : Text} (h : pathOf? name = some path) :
    path ≠ [] ∧ (Text.dropLead? mark name).map Text.lower = some (Text.join separator path) := by
  unfold pathOf? at h
  cases hrest : Text.dropLead? mark name with
  | none =>
    rw [hrest] at h
    cases h
  | some rest =>
    rw [hrest] at h
    dsimp only [Option.bind_eq_bind, Option.bind_some] at h
    split at h
    · cases h
    · cases h
      rw [Text.join_splitOnText]
      exact ⟨Text.splitOnText_ne_nil _ _, rfl⟩

theorem mem_readable {e : List Text × Value} (h : e ∈ readable environment) :
    ∃ entry ∈ environment, pathOf? entry.1 = some e.1 ∧ e.2 = valueOf entry.2 := by
  obtain ⟨entry, hmem, he⟩ := List.mem_filterMap.mp h
  obtain ⟨path, hpath, rfl⟩ := Option.map_eq_some_iff.mp he
  exact ⟨entry, hmem, hpath, rfl⟩

theorem settings_concat (environment : List (Text × Text)) (entry : Text × Text) :
    settings (environment ++ [entry]) = add (settings environment) entry := by
  rw [settings, settings, List.foldl_append]
  rfl

/-- The settings hold the variables that are read, if their names are different. -/
theorem holds_settings (h : Distinct environment) : Holds (settings environment) (readable environment) := by
  induction environment using List.reverseRecOn with
  | nil => exact holds_nil
  | append_singleton environment entry ih =>
    rw [Distinct, List.filterMap_append, List.nodup_append] at h
    obtain ⟨hbefore, -, hnew⟩ := h
    rw [settings_concat, add, readable, List.filterMap_append, ← readable]
    cases hpath : pathOf? entry.1 with
    | none =>
      rw [List.filterMap_cons_none (by rw [hpath]; rfl), List.filterMap_nil, List.append_nil]
      exact ih hbefore
    | some path =>
      obtain ⟨hne, hname⟩ := pathOf?_eq_some hpath
      rw [List.filterMap_cons_some (by rw [hpath]; rfl), List.filterMap_nil]
      refine (ih hbefore).write (fun e he => ?_) (fun e he => ?_) (fun e he => ?_) hne (isMapping_valueOf _)
      · obtain ⟨old, -, -, hvalue⟩ := mem_readable he
        rw [hvalue]
        exact isMapping_valueOf _
      · obtain ⟨old, -, hold, -⟩ := mem_readable he
        exact (pathOf?_eq_some hold).1
      · rintro rfl
        -- Two names with one path would have the same behind the mark.
        obtain ⟨old, hmem, hold, -⟩ := mem_readable he
        exact hnew _ (List.mem_filterMap.mpr ⟨old, hmem, (pathOf?_eq_some hold).2⟩) _
          (List.mem_filterMap.mpr ⟨entry, List.mem_singleton_self _, hname⟩) rfl

theorem named_settings (environment : List (Text × Text)) : Named (.dict (settings environment)) := by
  refine List.foldlRecOn (motive := fun entries => Named (.dict entries)) environment add named_nil
    fun entries h entry _ => ?_
  unfold add
  split
  · exact h
  · exact h.write (.plain (isMapping_valueOf _)) _

/-- The settings that hold the same variables are the same. -/
theorem same_of_holds {entries entries' : Mapping} {vars' : List (List Text × Value)} (h : Holds entries vars)
    (h' : Holds entries' vars') (hvars : ∀ e, e ∈ vars ↔ e ∈ vars') (hnamed : Named (.dict entries))
    (hnamed' : Named (.dict entries')) : Same (.dict entries) (.dict entries') := by
  have hprevails : ∀ path x, Prevails vars path x ↔ Prevails vars' path x := by
    intro path x
    simp only [Prevails, hvars]
  refine same_of_alike hnamed hnamed' fun path => ⟨fun x hx => ?_, ?_⟩
  · rw [h.value path x hx, h'.value path x hx, hprevails]
  · obtain rfl | hpath := eq_or_ne path []
    · exact iff_of_true ⟨_, rfl⟩ ⟨_, rfl⟩
    · rw [h.mapping path hpath, h'.mapping path hpath]
      simp only [hprevails]

/-- The settings that the variables of the environment hold, if their names are different: a variable's
    value is at the end of its path if no other one's path is a proper beginning of it, on the way to it
    there are mappings whose keys are names, and there is nothing else.  In any other order of the
    variables the settings are the same, and so is the level that is read from them. -/
theorem settings_of_distinct (h : Distinct environment) :
    (∀ path x, x.isMapping = false →
      (atPath? path (.dict (settings environment)) = some x ↔ Prevails (readable environment) path x)) ∧
    (∀ path, path ≠ [] → ((∃ e, atPath? path (.dict (settings environment)) = some (.dict e)) ↔
      ∃ more x, more ≠ [] ∧ Prevails (readable environment) (path ++ more) x)) ∧
    Named (.dict (settings environment)) ∧
    ∀ environment', environment.Perm environment' →
      Same (.dict (settings environment)) (.dict (settings environment')) ∧
      ∀ {κ : Type} (c : Config κ),
        c.loadEnvironment environment = c ∧ c.loadEnvironment environment' = c ∨
        ∃ e e', Same (.dict e) (.dict e') ∧ c.loadEnvironment environment = c.setLevel .environment (some e) ∧
          c.loadEnvironment environment' = c.setLevel .environment (some e') := by
  have hholds := holds_settings h
  refine ⟨hholds.value, hholds.mapping, named_settings environment, fun environment' hperm => ?_⟩
  have hdistinct : Distinct environment' := (hperm.filterMap _).nodup_iff.mp h
  have hsame : Same (.dict (settings environment)) (.dict (settings environment')) :=
    same_of_holds hholds (holds_settings hdistinct) (fun e => (hperm.filterMap _).mem_iff) (named_settings _)
      (named_settings _)
  refine ⟨hsame, fun c => ?_⟩
  have hempty := hsame.eq_nil_iff (named_settings _) (named_settings _)
  unfold Config.loadEnvironment
  dsimp only
  by_cases hnil : settings environment = []
  · rw [hnil, hempty.mp hnil]
    exact .inl ⟨rfl, rfl⟩
  · rw [if_neg (by rwa [List.isEmpty_iff]), if_neg (by rwa [List.isEmpty_iff, ← hempty])]
    exact .inr ⟨_, _, hsame.single Setting.rootKey, rfl, rfl⟩

/-- A section and a value in its place, in both orders. -/
def overlapping : List (Text × Text) :=
  [("VAULTGATE_A__B", "1"), ("HOME", "/"), ("VAULTGATE_a", "yes"), ("VAULTGATE_C__D", "2")]

/-- The value counts, whether the section comes before it or behind it. -/
theorem settings_of_distinct_overlapping :
    Distinct overlapping ∧
      atPath? ["a"] (.dict (settings overlapping)) = some (.bool true) ∧
      (∃ e, atPath? ["c"] (.dict (settings overlapping)) = some (.dict e)) ∧
      Same (.dict (settings overlapping)) (.dict (settings overlapping.reverse)) := by
  have hdistinct : Distinct overlapping := by
    unfold Distinct
    decide +kernel
  obtain ⟨hvalue, hmapping, -, hperm⟩ := settings_of_distinct hdistinct
  have hreadable : readable overlapping =
      ([(["a", "b"], .int 1), (["a"], .bool true), (["c", "d"], .int 2)] : List (List Text × Value)) := by
    rfl
  refine ⟨hdistinct, (hvalue ["a"] (.bool true) rfl).mpr ?_,
    (hmapping ["c"] (by decide)).mpr ⟨["d"], .int 2, by decide, ?_⟩, (hperm _ (List.reverse_perm _).symm).1⟩
  · rw [hreadable]
    exact ⟨List.mem_cons_of_mem _ (List.mem_cons_self ..), by simp only [List.forall_mem_cons]; decide⟩
  · rw [hreadable]
    exact ⟨List.mem_cons_of_mem _ (List.mem_cons_of_mem _ (List.mem_cons_self ..)), by
      simp only [List.forall_mem_cons]; decide⟩

end Environment

end NoteAccess
