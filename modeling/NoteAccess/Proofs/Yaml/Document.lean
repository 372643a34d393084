/-
  NoteAccess.Proofs.Yaml.Document

  The mappings of a document have no key twice: each is built by putting its entries
  one after the other, and so are the mappings inside it (`isProper_of_load`).

  Scalars give no mappings, whatever their text is.  Of another loader this is asked by
  `Loader.Lawful`.
-/

import NoteAccess.Proofs.Outcome
import NoteAccess.Proofs.Value
import NoteAccess.Yaml.Document

namespace NoteAccess

namespace Yaml

/-- The value is proper. -/
abbrev Proper (v : Value) : Prop := v.isProper = true

/-! ## Scalars -/

theorem gives_intValue (t : Text) : Gives Proper (intValue t) := by
  -- However the digits are read, what is given at the end is a number.
  unfold intValue
  dsimp only
  repeat' first
    | exact gives_ok rfl
    | refine gives_bind fun _ => ?_
    | split

theorem gives_floatValue (t : Text) : Gives Proper (floatValue t) := by
  unfold floatValue
  dsimp only
  repeat' first
    | exact gives_ok rfl
    | refine gives_bind fun _ => ?_
    | split

theorem gives_boolValue (t : Text) : Gives Proper (boolValue t) := by
  unfold boolValue
  dsimp only
  split
  · exact gives_ok rfl
  split
  · exact gives_ok rfl
  · exact gives_error _

theorem gives_bytesValue (t : Text) : Gives Proper (bytesValue t) := by
  unfold bytesValue
  split
  · cases decodeSixBits? 0 0 0 t with
    | none => exact gives_error _
    | some b => exact gives_ok rfl
  · exact gives_error _

theorem gives_writtenTime (w : WrittenTime) : Gives Proper w.value := by
  unfold WrittenTime.value
  repeat' first
    | exact gives_ok rfl
    | exact gives_error _
    | refine gives_bind fun _ => ?_
    | split

theorem gives_timeValue (t : Text) : Gives Proper (timeValue t) := by
  unfold timeValue
  cases readTime? (dropFinalNewline t) with
  | none => exact gives_error _
  | some w => exact (gives_writtenTime w).mapError

/-! ## Collections -/

theorem both_eq_ok {α β : Type} {x : Deep α} {y : Deep β} {a : α} {b : β} (h : both x y = .ok (a, b)) :
    x = .ok a ∧ y = .ok b := by
  cases x <;> cases y <;> cases h
  exact ⟨rfl, rfl⟩

/-- All results are results of what has been asked for. -/
theorem gives_every {α : Type} {p : α → Prop} {xs : List (Deep α)} (h : ∀ x ∈ xs, Gives p x) :
    Gives (fun as => ∀ a ∈ as, p a) (every xs) := by
  induction xs with
  | nil => exact gives_ok fun _ ha => absurd ha List.not_mem_nil
  | cons x xs ih =>
    obtain ⟨hx, hxs⟩ := List.forall_mem_cons.mp h
    have hboth : Gives (fun found => p found.1 ∧ ∀ a ∈ found.2, p a) (both x (every xs)) := by
      rintro ⟨a, as⟩ hfound
      obtain ⟨ha, has⟩ := both_eq_ok hfound
      exact ⟨hx a ha, ih hxs as has⟩
    exact hboth.map fun found hfound => List.forall_mem_cons.mpr hfound

/-- The values of nodes and the entries of mappings are proper. -/
theorem gives_valueAt (fuel : Nat) :
    (∀ depth n, Gives Proper (valueAt depth fuel n)) ∧
      ∀ depth n, Gives (fun entries => Value.areProper entries = true) (entriesAt depth fuel n) := by
  -- Values and entries together, by induction on the fuel; a list is proper whatever is in it,
  -- so the items of sequences and pairs are not looked at.
  induction fuel with
  | zero => exact ⟨fun _ _ => gives_error _, fun _ _ => gives_error _⟩
  | succ fuel ih =>
    obtain ⟨ihValue, ihEntries⟩ := ih
    constructor
    · intro depth n
      have hscalar : ∀ f : Text → Except Failure Value, (∀ t, Gives Proper (f t)) →
          Gives Proper (atDepth depth (do f (← scalarText (fuel + 1) n))) :=
        fun f hf => (gives_bind hf).mapError
      have hlist : ∀ x : Deep (List Value), Gives Proper (x.map .list) := by
        intro x
        cases x with
        | error e => exact gives_error e
        | ok items => exact gives_ok rfl
      rw [valueAt.eq_def]
      dsimp only
      cases n.meaning with
      | null => exact hscalar _ fun _ => gives_ok rfl
      | bool => exact hscalar _ gives_boolValue
      | int => exact hscalar _ gives_intValue
      | float => exact hscalar _ gives_floatValue
      | text => exact hscalar _ fun _ => gives_ok rfl
      | bytes => exact hscalar _ gives_bytesValue
      | time =>
        refine hscalar _ fun t => ?_
        cases n with
        | scalar tag text => exact gives_timeValue t
        | _ => exact gives_error _
      | merge => exact gives_error _
      | content => exact gives_error _
      | unknown => exact gives_error _
      | sequence =>
        cases n with
        | sequence tag items => exact hlist _
        | _ => exact gives_error _
      | mapping => exact (ihEntries depth n).map fun entries h => by rwa [Proper, Value.isProper]
      | set => exact (ihEntries depth n).map fun _ _ => rfl
      | pairs =>
        cases n with
        | sequence tag items => exact hlist _
        | _ => exact gives_error _
    · intro depth n
      rw [entriesAt.eq_def]
      dsimp only
      split
      · refine gives_bind fun entries => ?_
        refine Gives.bind (gives_every (p := fun e => Proper e.2) ?_) fun values hvalues => gives_ok ?_
        · intro x hx
          obtain ⟨⟨k, v⟩, -, rfl⟩ := List.mem_map.mp hx
          rintro ⟨a, b⟩ hfound
          exact ihValue _ _ b (both_eq_ok hfound).2
        · exact Value.areProper_ofEntries hvalues
      · exact gives_error _

/-- What is loaded has no mapping with a key twice. -/
theorem isProper_of_load {t : Text} {v : Value} (h : load t = .ok v) : v.isProper = true := by
  unfold load at h
  cases hroot : Node.ofText t with
  | error e => rw [hroot] at h; cases h
  | ok root? =>
    rw [hroot] at h
    cases root? with
    | none =>
      cases h
      rfl
    | some root => exact ((gives_valueAt _).1 0 root).mapError v h

/-! ## Loaders -/

/-- A loader whose mappings have no key twice. -/
class Loader.Lawful [Loader] : Prop where
  isProper_of_file {bytes : List UInt8} {d : Document} (h : Loader.file bytes = .ok d) : d.value.isProper = true

theorem isProper_of_loadBytes {bytes : List UInt8} {d : Document} (h : loadBytes bytes = .ok d) :
    d.value.isProper = true := by
  obtain ⟨text, -, h⟩ := bind_eq_ok_iff.mp h
  obtain ⟨v, hload, h⟩ := bind_eq_ok_iff.mp h
  cases h
  exact isProper_of_load hload

instance : @Loader.Lawful Loader.own :=
  letI := Loader.own
  ⟨isProper_of_loadBytes⟩

end Yaml

end NoteAccess
