/-
  NoteAccess.Proofs.Config.Assignment

  Putting a value at a key of the highest level.  The value is what is found at its key
  from then on.  It has no effect at keys that are neither a beginning of its own nor
  begin with it, unless they lead to one of the other places of a mapping that stands at
  several (`write_runtime`): such a mapping is written wherever it stands
  (`write_alias`).

  Those who are told are told in the order in which they were added, and each one of
  them, whether others fail or not (`state_tellAll`).
-/

import NoteAccess.Proofs.Config.Levels
import NoteAccess.Proofs.Text

namespace NoteAccess

/-! ## Telling -/

/-- Who fails does not keep the others from being told: in the end each of them has been told once, in
    their order. -/
theorem Notice.state_tellAll {κ σ : Type} (hear : Notice κ → σ → σ × Option Incident) (watchers : List κ)
    (merged : Value.Mapping) (s : σ) :
    (tellAll hear (watchers.map fun w => .settings w merged) s).1 =
      watchers.foldl (fun s w => (hear (.settings w merged) s).1) s := by
  induction watchers generalizing s with
  | nil => rfl
  | cons w watchers ih => exact ih _

namespace Config

open Value

variable {κ : Type} {c c' : Config κ} {t : Tier} {key key' : Text} {v : Value}

/-! ## The highest level -/

/-- What the highest level has, unless it is null, is what is found. -/
theorem get_of_runtime (h : c.getAt? .runtime key = some v) (hnull : v.isNull = false) : c.get key = some v := by
  refine get_of_getAbove? (t := .arguments) ?_
  show [Tier.runtime].findSome? _ = _
  rw [List.findSome?_singleton, h, Option.filter_some, hnull]
  rfl

/-- What the highest level has, unless it is a mapping, is what the merged configuration has. -/
theorem atPath?_merged_of_runtime (hc : c.Proper) (h : c.getAt? .runtime key = some v) (hend : v.isMapping = false) :
    atPath? (namesOf key) (.dict c.merged) = some v := by
  obtain ⟨entries, hentries, hat⟩ := Option.bind_eq_some_iff.mp h
  have hproper : (Value.dict entries).isProper = true := by
    rw [isProper]
    exact hc _ entries hentries
  obtain ⟨below, hmerged⟩ := merged_eq_foldl_entriesAbove .arguments c
  have habove : entriesAbove .arguments c = [entries] := by
    show [Tier.runtime].filterMap c.contents = _
    rw [List.filterMap_cons_some hentries]
    rfl
  have hover : some (.dict c.merged) = some (mergeOver (some (.dict below)) (.dict entries)) := by
    rw [hmerged, habove, mergeOver]
    rfl
  have hagree := atPath?_of_agree (agree_of_atPath? hproper hat hend (some (.dict below)) none)
  rw [← hover, mergeOver_of_base rfl] at hagree
  exact hagree.trans hat

/-- Where all levels have the same at the end of a key, all that is found at it is the same. -/
theorem reads_eq_of_spares (hc : c.Proper) (hc' : c'.Proper)
    (h : ∀ u, Spares (namesOf key) ((c.contents u).map .dict) ((c'.contents u).map .dict)) :
    c'.get key = c.get key ∧
      atPath? (namesOf key) (.dict c'.merged) = atPath? (namesOf key) (.dict c.merged) := by
  constructor
  · rw [get, get, funext fun u => congrArg (Option.filter (! ·.isNull)) (getAt?_eq_of_spares (h u))]
  · exact atPath?_foldl_of_spares hc hc' (fun u _ => h u) rfl

/-- Where something is in the way, writing fails and leaves the configuration as it is, at any level; nobody is
    told.  It fails as well where all levels cannot be merged any more: nobody is told then either, but the
    level has the value.

    A value that is put at the highest level, and is neither null nor a mapping, is found at its key from
    then on.  What is found at keys that neither begin with its key nor are a beginning of it is the
    same, if they are apart from all other places of what is on the way to the value as well, at whatever
    levels these are.  All that are to be told are told of it once, in their order, whether they fail or not. -/
theorem write_runtime [Stack] (hc : c.Proper) (key : Text) (v : Value) (parts : List Part) :
    (∀ t c' told f, c.write key v t parts = (c', told, .error f) → told = [] ∧
      ((Blocked ((c.contents t).getD []) (namesOf key) ∧ c' = c) ∨
        (¬ Blocked ((c.contents t).getD []) (namesOf key) ∧ c'.getAt? t key = some v ∧
          c'.getAll = .error .tooDeep ∧ f = .tooDeep))) ∧
    ∀ c' told, c.write key v .runtime parts = (c', told, .ok ()) → v.isNull = false → v.isMapping = false →
      ∃ m, c'.getAll = .ok m ∧ c'.get key = some v ∧ atPath? (namesOf key) (.dict m) = some v ∧
      (∀ key', ¬ namesOf key' <+: namesOf key → ¬ namesOf key <+: namesOf key' →
        (∀ place ∈ c.elsewhere .runtime (namesOf key),
          (Trail.ofNames (namesOf key')).isApart (place.1.2 ++ Trail.ofNames place.2) = true) →
        c'.get key' = c.get key' ∧
          ∀ m₀, c.getAll = .ok m₀ → atPath? (namesOf key') (.dict m) = atPath? (namesOf key') (.dict m₀)) ∧
      told = c.watchers.map (.settings · m) ∧
      ∀ {σ : Type} (hear : Notice κ → σ → σ × Option Incident) (s : σ),
        (Notice.tellAll hear told s).1 = c.watchers.foldl (fun s w => (hear (.settings w m) s).1) s := by
  constructor
  · intro t c' told f h
    rcases write_cases c key v t parts with ⟨hblocked, f', hfails⟩ | ⟨hfree, entries, hentries, ⟨-, hwrite⟩ | ⟨hdeep, hwrite⟩⟩
    · obtain ⟨rfl, rfl, -⟩ := h.symm.trans hfails
      exact ⟨rfl, .inl ⟨hblocked, rfl⟩⟩
    · cases h.symm.trans hwrite
    · obtain ⟨rfl, rfl, -⟩ := h.symm.trans hwrite
      exact ⟨rfl, .inr ⟨hfree, getAt?_written hentries parts, hdeep, rfl⟩⟩
  intro c' told h hnull hend
  rcases write_cases c key v .runtime parts with ⟨-, f, hfails⟩ | ⟨-, entries, hentries, ⟨hmerged, hwrite⟩ | ⟨-, hwrite⟩⟩
  · cases h.symm.trans hfails
  · obtain ⟨rfl, rfl, -⟩ := h.symm.trans hwrite
    have hv : v.isProper = true := by
      cases v with
      | dict e => cases hend
      | _ => rfl
    have hc' : (c.written .runtime (namesOf key) entries v parts).Proper := proper_written hc hv hentries
    have hat := getAt?_written hentries parts
    refine ⟨_, hmerged, get_of_runtime hat hnull, atPath?_merged_of_runtime hc' hat hend,
      fun key' hbegin hbehind hplaces => ?_, rfl, fun hear s => Notice.state_tellAll hear _ _ s⟩
    have hspares : ∀ u, Spares (namesOf key') ((c.contents u).map .dict)
        (((c.written .runtime (namesOf key) entries v parts).contents u).map .dict) :=
      fun u => spares_written hentries (fun _ => ⟨hbegin, hbehind⟩) fun place hplace _ => hplaces place hplace
    obtain ⟨hget, hreads⟩ := reads_eq_of_spares hc hc' hspares
    refine ⟨hget, fun m₀ hm₀ => ?_⟩
    rw [eq_merged_of_getAll hm₀]
    exact hreads
  · cases h.symm.trans hwrite

attribute [local instance] Stack.usual Yaml.Loader.own

/-- A number stands in the way of one key, and is not changed by a value at another one; two are told. -/
theorem write_runtime_number :
    ∃ c c' : Config Nat, ∃ told f m, c.Proper ∧
      c.write "vaultgate.a.b" (.int 2) .runtime = (c, [], .error f) ∧
      c.write "vaultgate.b.c" (.int 2) .runtime = (c', told, .ok ()) ∧ c'.getAll = .ok m ∧
      c'.get "vaultgate.b.c" = some (.int 2) ∧
      atPath? (namesOf "vaultgate.b.c") (.dict m) = some (.int 2) ∧
      c'.get "vaultgate.a" = c.get "vaultgate.a" ∧
      told = [.settings 0 m, .settings 1 m] := by
  obtain ⟨entries, hentries⟩ : ∃ e : Mapping, e = [(.text "vaultgate", .dict [(.text "a", .int 1)])] := ⟨_, rfl⟩
  obtain ⟨c, hc⟩ : ∃ c : Config Nat, c = ((initial.loadEntries entries .runtime).addWatcher 0).addWatcher 1 := ⟨_, rfl⟩
  have hproper : c.Proper := by
    rw [hc]
    exact (writes_loadEntries (by rw [hentries]; rfl) .runtime).proper proper_initial
  have hblocked : (c.write "vaultgate.a.b" (.int 2) .runtime).2.2.toOption.isSome = false ∧
      (c.write "vaultgate.a.b" (.int 2) .runtime).1.getAll.toOption.isSome = true := by
    rw [hc, hentries]
    decide +kernel
  have hfree : (c.write "vaultgate.b.c" (.int 2) .runtime).2.2.toOption.isSome = true := by
    rw [hc, hentries]
    decide +kernel
  rcases hfails : c.write "vaultgate.a.b" (.int 2) .runtime with ⟨c₁, told₁, f | _⟩
  swap
  · rw [hfails] at hblocked
    cases hblocked.1
  rcases hworks : c.write "vaultgate.b.c" (.int 2) .runtime with ⟨c', told, _ | _⟩
  · rw [hworks] at hfree
    cases hfree
  obtain ⟨rfl, ⟨-, rfl⟩ | ⟨-, -, hdeep, -⟩⟩ :=
    (write_runtime hproper "vaultgate.a.b" (.int 2) []).1 .runtime c₁ told₁ f hfails
  swap
  · rw [hfails, hdeep] at hblocked
    cases hblocked.2
  obtain ⟨m, hm, hget, hmerged, hother, htold, -⟩ :=
    (write_runtime hproper "vaultgate.b.c" (.int 2) []).2 c' told hworks rfl rfl
  have hunshared : c₁.elsewhere .runtime (namesOf "vaultgate.b.c") = [] := by
    rw [hc, hentries]
    rfl
  obtain ⟨hsame, -⟩ := hother "vaultgate.a" (by decide) (by decide) (by rw [hunshared]; nofun)
  have hwatchers : c₁.watchers = [0, 1] := by
    rw [hc]
    rfl
  rw [hwatchers] at htold
  exact ⟨c₁, c', told, f, m, hproper, hfails, hworks, hm, hget, hmerged, hsame, htold⟩

/-- A file in which a mapping has an alias. -/
def aliasFile : FileTree where
  items := [(["a.yaml"], .file (.bytes (("vaultgate:\n  a: &s \x7bk: 1\x7d\n  b: *s\n" : Text).map UInt8.ofNat)) 0)]

/-- The number that is found at a key, if it is one. -/
def numberAt? (c : Config Unit) (key : Text) : Option Int :=
  match c.get key with
  | some (.int i) => some i
  | _ => none

/-- A value that is put into a mapping with an alias is found at the alias as well, whose key neither
    begins with its own nor is a beginning of it. -/
theorem write_alias :
    ∃ c c' : Config Unit, ∃ told,
      initial.loadPlace aliasFile ["a.yaml"] "a.yaml" .runtime = .ok c ∧
      c.write "vaultgate.a.k" (.int 2) .runtime = (c', told, .ok ()) ∧
      ¬ namesOf "vaultgate.b.k" <+: namesOf "vaultgate.a.k" ∧ ¬ namesOf "vaultgate.a.k" <+: namesOf "vaultgate.b.k" ∧
      c.numberAt? "vaultgate.b.k" = some 1 ∧ c'.numberAt? "vaultgate.b.k" = some 2 := by
  have hrun : (initial.loadPlace aliasFile ["a.yaml"] "a.yaml" .runtime).toOption.map (fun c : Config Unit =>
      let after := c.write "vaultgate.a.k" (.int 2) .runtime
      (after.2.2.toOption.isSome, c.numberAt? "vaultgate.b.k", after.1.numberAt? "vaultgate.b.k")) =
        some (true, some 1, some 2) := by
    decide +kernel
  cases hload : (initial : Config Unit).loadPlace aliasFile ["a.yaml"] "a.yaml" .runtime with
  | error e =>
    rw [hload] at hrun
    cases hrun
  | ok c =>
    rw [hload] at hrun
    obtain ⟨hok, hnumbers⟩ := Prod.mk.inj (Option.some.inj hrun)
    obtain ⟨hbefore, hafter⟩ := Prod.mk.inj hnumbers
    rcases hwrite : c.write "vaultgate.a.k" (.int 2) .runtime with ⟨c', told, _ | _⟩
    · rw [hwrite] at hok
      cases hok
    · rw [hwrite] at hafter
      exact ⟨c, c', told, rfl, hwrite, by decide, by decide, hbefore, hafter⟩

end Config

end NoteAccess
