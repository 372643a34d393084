/-
  NoteAccess.Proofs.Value.Writing

  What can go wrong where a value is written: a number in it has too many digits, or
  collections in it are nested more deeply than calls can be (`failsAs_written`).
-/

import NoteAccess.Proofs.Outcome
import NoteAccess.Value.Writing

namespace NoteAccess

/-- A failure of writing a value. -/
def Fault.IsOfWriting (f : Fault) : Prop := f = .badValue ∨ f = .tooDeep

namespace Layered

variable {ν : Type} [Layered ν]

theorem failsAs_writeInt (i : Int) : FailsAs Fault.IsOfWriting (Decimal.writeInt i) := by
  unfold Decimal.writeInt
  split
  · exact failsAs_error_iff.mpr (.inl rfl)
  · exact failsAs_ok _

/-- Inside a collection the room shrinks with every layer. -/
theorem failsAs_nested (room : Nat) (around : List ν) (v : ν) : FailsAs Fault.IsOfWriting (nested room around v) := by
  induction room generalizing around v with
  | zero => exact failsAs_error_iff.mpr (.inr rfl)
  | succ room ih =>
    have hinside : ∀ (items : List ν) (f : List Text → Text),
        FailsAs Fault.IsOfWriting ((items.mapM (nested room (v :: around))).map f) :=
      fun items f => failsAs_map_iff.mpr (failsAs_mapM fun item _ => ih _ item)
    rw [nested.eq_2]
    dsimp only
    cases layer v with
    | null | bool | float | text | date | moment | bytes => exact failsAs_ok _
    | int i => exact failsAs_writeInt i
    | list items | tuple items | set items =>
      dsimp only
      split
      · exact failsAs_ok _
      · exact hinside items _
    | dict entries =>
      dsimp only
      split
      · exact failsAs_ok _
      · refine failsAs_map_iff.mpr (failsAs_mapM fun entry _ => ?_)
        exact failsAs_bind_iff.mpr ⟨ih _ _, fun _ _ => failsAs_bind_iff.mpr ⟨ih _ _, fun _ _ => failsAs_pure _⟩⟩

theorem failsAs_written [Stack] (v : ν) : FailsAs Fault.IsOfWriting (written v) := by
  unfold written
  split
  · exact failsAs_ok _
  · exact failsAs_ok _
  · exact failsAs_ok _
  · exact failsAs_nested Stack.room [] v

end Layered

end NoteAccess
