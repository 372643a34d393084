/-
  NoteAccess.Proofs.Outcome

  How a computation ends: with a value, of which something is known (`Gives`), or with an
  error of a certain kind (`FailsAs`).  Both are told part by part where computations follow
  each other.
-/

namespace NoteAccess

/-! ## Values -/

section Values

variable {ε ε' α β : Type}

theorem bind_eq_ok_iff {x : Except ε α} {f : α → Except ε β} {b : β} :
    x >>= f = .ok b ↔ ∃ a, x = .ok a ∧ f a = .ok b := by
  cases x with
  | error e =>
    constructor
    · intro h
      cases h
    · rintro ⟨a, h, -⟩
      cases h
  | ok a =>
    constructor
    · exact fun h => ⟨a, rfl, h⟩
    · rintro ⟨_, ha, h⟩
      cases ha
      exact h

theorem mapError_eq_ok_iff {x : Except ε' α} {g : ε' → ε} {a : α} : x.mapError g = .ok a ↔ x = .ok a := by
  constructor
  · intro h
    cases x with
    | error e => cases h
    | ok b => cases h; rfl
  · rintro rfl
    rfl

theorem eq_ok_of_toOption {x : Except ε α} {a : α} (h : x.toOption = some a) : x = .ok a := by
  cases x with
  | error e => cases h
  | ok b =>
    cases h
    rfl

end Values

/-! ## Errors -/

/-- A computation for each of several values fails as the first one that fails. -/
theorem mapM_eq_error_iff {ε α β : Type} {f : α → Except ε β} {items : List α} {e : ε} :
    items.mapM f = .error e ↔
      ∃ before a after, items = before ++ a :: after ∧ (∀ a' ∈ before, ∃ b, f a' = .ok b) ∧ f a = .error e := by
  induction items with
  | nil =>
    refine iff_of_false nofun ?_
    rintro ⟨before, a, after, h, -⟩
    exact absurd h.symm (List.append_ne_nil_of_right_ne_nil before (List.cons_ne_nil a after))
  | cons a rest ih =>
    rw [List.mapM_cons]
    cases ha : f a with
    | error e' =>
      constructor
      · intro h
        cases h
        exact ⟨[], a, rest, rfl, nofun, ha⟩
      · rintro ⟨before, a', after, h, hbefore, ha'⟩
        cases before with
        | nil =>
          cases h
          rw [← ha, ha']
          rfl
        | cons b before =>
          cases h
          obtain ⟨c, hc⟩ := hbefore a List.mem_cons_self
          cases ha.symm.trans hc
    | ok b =>
      have hrest : (do let b ← Except.ok b; let bs ← rest.mapM f; pure (b :: bs) : Except ε (List β)) = .error e ↔
          rest.mapM f = .error e := by
        cases rest.mapM f with
        | error e' => exact Iff.rfl
        | ok bs => exact iff_of_false nofun nofun
      refine hrest.trans (ih.trans ⟨?_, ?_⟩)
      · rintro ⟨before, a', after, rfl, hbefore, ha'⟩
        exact ⟨a :: before, a', after, rfl, List.forall_mem_cons.mpr ⟨⟨b, ha⟩, hbefore⟩, ha'⟩
      · rintro ⟨before, a', after, h, hbefore, ha'⟩
        cases before with
        | nil =>
          cases h
          cases ha.symm.trans ha'
        | cons c before =>
          cases h
          exact ⟨before, a', after, rfl, (List.forall_mem_cons.mp hbefore).2, ha'⟩

/-! ## What a value is like -/

section Gives

variable {ε ε' α β : Type} {p : α → Prop} {q : β → Prop}

/-- A value that the computation ends with has the property. -/
def Gives (p : α → Prop) (x : Except ε α) : Prop := ∀ a, x = .ok a → p a

theorem gives_ok {a : α} (h : p a) : Gives p (.ok a : Except ε α) := by
  intro b hb
  exact Except.ok.inj hb ▸ h

theorem gives_error (e : ε) : Gives p (.error e : Except ε α) := nofun

theorem Gives.bind {x : Except ε α} {f : α → Except ε β} (hx : Gives p x) (hf : ∀ a, p a → Gives q (f a)) :
    Gives q (x >>= f) := by
  cases x with
  | error e => exact gives_error e
  | ok a => exact hf a (hx a rfl)

theorem gives_bind {x : Except ε α} {f : α → Except ε β} (hf : ∀ a, Gives q (f a)) : Gives q (x >>= f) := by
  cases x with
  | error e => exact gives_error e
  | ok a => exact hf a

theorem Gives.map {x : Except ε α} {f : α → β} (hx : Gives p x) (hf : ∀ a, p a → q (f a)) : Gives q (x.map f) := by
  cases x with
  | error e => exact gives_error e
  | ok a => exact gives_ok (hf a (hx a rfl))

theorem Gives.mapError {x : Except ε α} {f : ε → ε'} (hx : Gives p x) : Gives p (x.mapError f) := by
  cases x with
  | error e => exact gives_error (f e)
  | ok a => exact gives_ok (hx a rfl)

end Gives

/-! ## Failures of a kind -/

section FailsAs

variable {ε ε' α β : Type} {p : ε → Prop}

/-- If a computation fails, it fails in a certain way. -/
def FailsAs (p : ε → Prop) (x : Except ε α) : Prop := ∀ e, x = .error e → p e

theorem failsAs_ok (a : α) : FailsAs p (.ok a : Except ε α) := nofun

theorem failsAs_pure (a : α) : FailsAs p (pure a : Except ε α) := failsAs_ok a

theorem failsAs_error_iff {e : ε} : FailsAs p (.error e : Except ε α) ↔ p e := by
  constructor
  · exact fun h => h e rfl
  · intro h e' he
    cases he
    exact h

/-- Of two computations in sequence the second one counts where the first does not fail. -/
theorem failsAs_bind_iff {x : Except ε α} {f : α → Except ε β} :
    FailsAs p (x >>= f) ↔ FailsAs p x ∧ ∀ a, x = .ok a → FailsAs p (f a) := by
  cases x with
  | error e =>
    show FailsAs p (.error e) ↔ _
    rw [failsAs_error_iff, failsAs_error_iff]
    exact ⟨fun h => ⟨h, nofun⟩, And.left⟩
  | ok a =>
    constructor
    · intro h
      refine ⟨failsAs_ok a, fun b hb => ?_⟩
      cases hb
      exact h
    · exact fun h => h.2 a rfl

theorem failsAs_mapError_iff {x : Except ε' α} {g : ε' → ε} :
    FailsAs p (x.mapError g) ↔ FailsAs (fun e => p (g e)) x := by
  cases x with
  | error e => exact failsAs_error_iff.trans (failsAs_error_iff (p := fun e => p (g e))).symm
  | ok a => exact iff_of_true (failsAs_ok a) (failsAs_ok a)

theorem failsAs_map_iff {x : Except ε α} {f : α → β} : FailsAs p (x.map f) ↔ FailsAs p x := by
  cases x with
  | error e => exact failsAs_error_iff.trans failsAs_error_iff.symm
  | ok a => exact iff_of_true (failsAs_ok _) (failsAs_ok a)

/-- Something that is done for a value, if there is one. -/
theorem failsAs_forM_iff {o : Option α} {f : α → Except ε Unit} :
    FailsAs p (o.forM f) ↔ ∀ a, o = some a → FailsAs p (f a) := by
  cases o with
  | none => exact iff_of_true (failsAs_ok ()) nofun
  | some a =>
    constructor
    · intro h b hb
      cases hb
      exact h
    · exact fun h => h a rfl

/-- Something that is done for one value after the other. -/
theorem failsAs_forM {f : α → Except ε PUnit} (h : ∀ a, FailsAs p (f a)) (items : List α) :
    FailsAs p (items.forM f) := by
  induction items with
  | nil => exact failsAs_ok ()
  | cons a rest ih =>
    show FailsAs p (f a >>= fun _ => rest.forM f)
    exact failsAs_bind_iff.mpr ⟨h a, fun _ _ => ih⟩

/-- Something that is found for each of several values. -/
theorem failsAs_mapM {f : α → Except ε β} {items : List α} (h : ∀ a ∈ items, FailsAs p (f a)) :
    FailsAs p (items.mapM f) := by
  intro e he
  obtain ⟨before, a, after, rfl, -, ha⟩ := mapM_eq_error_iff.mp he
  exact h a (List.mem_append_right before List.mem_cons_self) e ha

end FailsAs

/-! ## Values without the errors -/

section ToOption

variable {ε ε' α β : Type}

theorem toOption_mapError (x : Except ε α) (f : ε → ε') : (x.mapError f).toOption = x.toOption := by
  cases x <;> rfl

/-- Computations in sequence end with the same value if each does. -/
theorem toOption_bind_congr {x y : Except ε α} {f g : α → Except ε β} (hxy : x.toOption = y.toOption)
    (hfg : ∀ a, (f a).toOption = (g a).toOption) : (x >>= f).toOption = (y >>= g).toOption := by
  cases x with
  | error e =>
    cases y with
    | error e' => rfl
    | ok b => cases hxy
  | ok a =>
    cases y with
    | error e' => cases hxy
    | ok b =>
      cases hxy
      exact hfg a

end ToOption

end NoteAccess
