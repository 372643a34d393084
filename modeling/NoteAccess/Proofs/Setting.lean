/-
  NoteAccess.Proofs.Setting

  What accepted settings are good for.  `Setting.check` looks at one key after the
  other; if it accepts them all, the ones that make up a policy have values that a
  policy can be made of (`accepted_of_check`), so an engine takes the settings over
  (`updateSettings_of_check`).
-/

import NoteAccess.Policy.Engine
import NoteAccess.Proofs.Outcome

namespace NoteAccess

namespace Setting

/-- What the engine reads of settings can be used, where it is given. -/
structure Accepted [Stack] (entries : List (Value × Value)) : Prop where
  policy : ∀ v, Value.field? defaultPolicyKey entries = some v → ∃ m, defaultPolicy v = .ok m
  allowTag : checkTagAt entries allowTagKey = .ok ()
  denyTag : checkTagAt entries denyTagKey = .ok ()
  bound : ∀ v, Value.field? concurrencyKey entries = some v → ∃ n, concurrency v = .ok n

/-- A value that is refused is not accepted, whether or not it can be written. -/
theorem refuse_ne_ok [Stack] {α : Type} {v : Value} {r : Text → Refusal} {a : α} : refuse v r ≠ .ok a := by
  unfold refuse
  split
  · nofun
  · nofun

/-- Only a whole number is accepted as a bound on the number of evaluations. -/
theorem exists_int_of_concurrency [Stack] {v : Value} {n : Nat} (h : concurrency v = .ok n) : ∃ i, v = .int i := by
  unfold concurrency at h
  split at h
  · exact ⟨_, rfl⟩
  · exact absurd h refuse_ne_ok

/-- A check of a value that need not be given, before the rest. -/
theorem given_eq_ok {ε α : Type} {o : Option Value} {f : Value → Except ε α} {rest : Unit → Except ε Unit}
    (h : (match o with
      | none => rest ()
      | some v => do
        let r ← discard (f v)
        rest r) = .ok ()) :
    (∀ v, o = some v → ∃ a, f v = .ok a) ∧ rest () = .ok () := by
  cases o with
  | none => exact ⟨nofun, h⟩
  | some v =>
    obtain ⟨_, hv, hrest⟩ := bind_eq_ok_iff.mp h
    refine ⟨fun w hw => ?_, hrest⟩
    cases hw
    cases hfv : f v with
    | error r => rw [hfv] at hv; cases hv
    | ok a => exact ⟨a, rfl⟩

theorem accepted_of_check [Stack] {settings : Value} (h : check settings = .ok ()) :
    ∃ entries, settings = .dict entries ∧ Accepted entries := by
  cases settings with
  | dict entries =>
    unfold check at h
    obtain ⟨_, -, h⟩ := bind_eq_ok_iff.mp h
    obtain ⟨_, -, h⟩ := bind_eq_ok_iff.mp h
    extract_lets afterBound afterPolicy at h
    obtain ⟨hpolicy, h⟩ := given_eq_ok h
    obtain ⟨_, hallow, h⟩ := bind_eq_ok_iff.mp h
    obtain ⟨_, hdeny, h⟩ := bind_eq_ok_iff.mp h
    obtain ⟨_, -, h⟩ := bind_eq_ok_iff.mp h
    obtain ⟨_, -, h⟩ := bind_eq_ok_iff.mp h
    obtain ⟨hbound, -⟩ := given_eq_ok h
    refine ⟨entries, rfl, fun v hv => ?_, mapError_eq_ok_iff.mp hallow, mapError_eq_ok_iff.mp hdeny, hbound⟩
    obtain ⟨m, hm⟩ := hpolicy v hv
    exact ⟨m, mapError_eq_ok_iff.mp hm⟩
  | _ => cases h

end Setting

/-! ## Policies of accepted settings -/

namespace Snapshot

/-- A tag that is accepted has a normal form. -/
theorem exists_globalTag {entries : List (Value × Value)} {key : Text}
    (h : Setting.checkTagAt entries key = .ok ()) : ∃ tag, globalTag (Value.field? key entries) = .ok tag := by
  unfold Setting.checkTagAt at h
  unfold globalTag
  cases hv : Value.field? key entries with
  | none => exact ⟨_, rfl⟩
  | some v =>
    rw [hv] at h
    dsimp only at h ⊢
    by_cases htruthy : v.isTruthy = true
    · rw [if_pos htruthy] at h
      rw [htruthy]
      -- Only a text passes for a tag.
      cases v with
      | text t => exact ⟨_, rfl⟩
      | _ => cases h
    · rw [Bool.not_eq_true] at htruthy
      rw [htruthy]
      exact ⟨_, rfl⟩

theorem exists_ofSettings [Stack] {entries : List (Value × Value)} (h : Setting.Accepted entries) :
    ∃ s, ofSettings (.dict entries) = .ok s := by
  obtain ⟨allowTag, hallow⟩ := exists_globalTag h.allowTag
  obtain ⟨denyTag, hdeny⟩ := exists_globalTag h.denyTag
  have hpolicy : ∃ m, Setting.defaultPolicy
      ((Value.field? Setting.defaultPolicyKey entries).getD (.text Mode.deny.word)) = .ok m := by
    cases hv : Value.field? Setting.defaultPolicyKey entries with
    | none => exact ⟨.deny, by cbv⟩
    | some v => exact h.policy v hv
  obtain ⟨m, hm⟩ := hpolicy
  unfold ofSettings
  dsimp only
  rw [hm, hallow, hdeny]
  exact ⟨_, rfl⟩

end Snapshot

namespace Engine

/-- Settings that are accepted are taken over. -/
theorem updateSettings_of_check [Stack] {settings : Value} (h : Setting.check settings = .ok ()) (e : Engine) :
    ∃ e', e.updateSettings settings = .ok e' := by
  obtain ⟨entries, rfl, haccepted⟩ := Setting.accepted_of_check h
  obtain ⟨s, hs⟩ := Snapshot.exists_ofSettings haccepted
  unfold updateSettings
  rw [hs]
  dsimp only
  cases hv : Value.field? Setting.concurrencyKey entries with
  | none => exact ⟨_, rfl⟩
  | some v =>
    obtain ⟨n, hn⟩ := haccepted.bound v hv
    obtain ⟨i, rfl⟩ := Setting.exists_int_of_concurrency hn
    dsimp only
    rw [hn]
    exact ⟨_, rfl⟩

end Engine

end NoteAccess
