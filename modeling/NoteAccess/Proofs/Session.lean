/-
  NoteAccess.Proofs.Session

  Actions of a session taken apart.  `Does` says that an action ends with a value
  and in which session.  A sequence does what its parts do one after the other
  (`bind_does`), and each building block has its own rule; a block that fails does
  nothing in this sense.

  What is logged has no effect on the rest of a session (`unlogged_withEvent`).
-/

import NoteAccess.Session.Command

namespace NoteAccess.Act

variable {ε α β : Type} {s s' : Session}

/-- The action, begun in a session, ends with a value and leaves another session. -/
def Does (x : Act α) (s : Session) (a : α) (s' : Session) : Prop := x.run.run s = (.ok a, s')

/-! ## Sequences -/

theorem run_bind (x : Act α) (f : α → Act β) (s : Session) :
    (x >>= f).run.run s =
      match x.run.run s with
      | (.ok a, t) => (f a).run.run t
      | (.error e, t) => (.error e, t) := by
  show (ExceptT.bindCont f (x.run.run s).1).run (x.run.run s).2 = _
  rcases x.run.run s with ⟨result, t⟩
  cases result <;> rfl

/-- A sequence ends with a value through a value of its first part. -/
theorem bind_does {x : Act α} {f : α → Act β} {b : β} :
    (x >>= f).Does s b s' ↔ ∃ a t, x.Does s a t ∧ (f a).Does t b s' := by
  unfold Does
  rw [run_bind]
  rcases x.run.run s with ⟨result, t⟩
  cases result with
  | ok a =>
    constructor
    · intro h
      exact ⟨a, t, rfl, h⟩
    · rintro ⟨_, _, hx, hf⟩
      cases hx
      exact hf
  | error e =>
    constructor
    · intro h
      cases h
    · rintro ⟨_, _, hx, -⟩
      cases hx

theorem pure_does {a b : α} : (pure a : Act α).Does s b s' ↔ b = a ∧ s' = s := by
  constructor
  · intro h
    cases h
    exact ⟨rfl, rfl⟩
  · rintro ⟨rfl, rfl⟩
    rfl

theorem throw_does {e : Failure} {a : α} : ¬ (throw e : Act α).Does s a s' := by
  intro h
  cases h

/-- What an action has done before a failure is there when the failure is dealt with. -/
theorem run_tryCatch (x : Act α) (f : Failure → Act α) (s : Session) :
    (tryCatch x f).run.run s =
      match x.run.run s with
      | (.ok a, t) => (.ok a, t)
      | (.error e, t) => (f e).run.run t := by
  show (ExceptT.tryCatch x f).run.run s = match StateT.run x s with
      | (.ok a, t) => (.ok a, t)
      | (.error e, t) => (f e).run.run t
  rw [ExceptT.tryCatch, ExceptT.run_mk, StateT.run_bind]
  rcases StateT.run x s with ⟨result, t⟩
  cases result <;> rfl

/-! ## Building blocks -/

theorem get_does {t : Session} : (get : Act Session).Does s t s' ↔ t = s ∧ s' = s := by
  constructor
  · intro h
    cases h
    exact ⟨rfl, rfl⟩
  · rintro ⟨rfl, rfl⟩
    rfl

theorem print_does {line : Text} :
    (print line).Does s () s' ↔ s' = { s with printed := line :: s.printed } := by
  constructor
  · intro h
    cases h
    rfl
  · rintro rfl
    rfl

theorem ofExcept_does {f : ε → Failure} {r : Except ε α} {a : α} :
    (ofExcept f r).Does s a s' ↔ r = .ok a ∧ s' = s := by
  cases r with
  | ok b =>
    constructor
    · intro h
      cases h
      exact ⟨rfl, rfl⟩
    · rintro ⟨h, rfl⟩
      cases h
      rfl
  | error e => exact iff_of_false throw_does (fun h => nomatch h.1)

theorem need_does {c : Option α} {operation : Text} {a : α} :
    (need c operation).Does s a s' ↔ c = some a ∧ s' = s := by
  cases c with
  | some b =>
    constructor
    · intro h
      cases h
      exact ⟨rfl, rfl⟩
    · rintro ⟨h, rfl⟩
      cases h
      rfl
  | none => exact iff_of_false throw_does (fun h => nomatch h.1)

/-- What happens in a run is logged first. -/
theorem absorb_does {f : ε → Failure} {r : Run ε α} {a : α} :
    (absorb f r).Does s a s' ↔ r.result = .ok a ∧ s' = s.withEvents r.events := by
  unfold absorb
  rw [bind_does]
  constructor
  · rintro ⟨_, t, hlog, h⟩
    cases hlog
    exact ofExcept_does.mp h
  · intro h
    exact ⟨(), _, rfl, ofExcept_does.mpr h⟩

theorem onTree_does {f : ε → Failure} {change : FileTree → FileTree × Except ε α} {a : α} :
    (onTree f change).Does s a s' ↔ ∃ tree, change s.tree = (tree, .ok a) ∧ s' = { s with tree } := by
  unfold onTree
  rw [bind_does]
  constructor
  · rintro ⟨t, _, hget, h⟩
    obtain ⟨rfl, rfl⟩ := get_does.mp hget
    obtain ⟨_, _, hset, h⟩ := bind_does.mp h
    cases hset
    obtain ⟨hresult, rfl⟩ := ofExcept_does.mp h
    exact ⟨_, Prod.ext rfl hresult, rfl⟩
  · rintro ⟨tree, hchange, rfl⟩
    refine ⟨s, s, rfl, bind_does.mpr ⟨(), { s with tree := (change s.tree).1 }, rfl, ?_⟩⟩
    rw [ofExcept_does, hchange]
    exact ⟨rfl, rfl⟩

theorem rulesFile_does {file : FilePath} : rulesFile.Does s file s' ↔ s.rulesPath = some file ∧ s' = s := by
  unfold rulesFile
  rw [bind_does]
  constructor
  · rintro ⟨t, _, hget, hneed⟩
    obtain ⟨rfl, rfl⟩ := get_does.mp hget
    exact need_does.mp hneed
  · intro h
    exact ⟨s, s, get_does.mpr ⟨rfl, rfl⟩, need_does.mpr h⟩

end NoteAccess.Act

/-! ## Logging -/

namespace NoteAccess.Session

variable {s : Session}

/-- The session apart from what is logged, and from the files, which log lines may go to. -/
def unlogged (s : Session) : Session :=
  { s with logged := [], tree := {}, journal := { s.journal with reported := [] } }

theorem unlogged_withLines (lines : List LogLine) : (lines.foldl withLine s).unlogged = s.unlogged := by
  induction lines generalizing s with
  | nil => rfl
  | cons l lines ih =>
    have hline : (s.withLine l).unlogged = s.unlogged := rfl
    rw [List.foldl_cons, ih, hline]

/-- What an event leaves in the log has no effect on anything else but the files. -/
theorem unlogged_withEvent (e : Event) : (s.withEvent e).unlogged = s.unlogged := by
  have hjournal : { (s.journal.record e).1 with reported := [] } = { s.journal with reported := [] } := by
    unfold Journal.record
    split
    · rfl
    · split <;> rfl
    · rfl
  unfold withEvent
  dsimp only
  rw [unlogged_withLines, unlogged, hjournal]
  rfl

end NoteAccess.Session
