/-
  NoteAccess.Proofs.Run

  Sequences of runs taken apart: `bind_eq_ok` gives the value between the two
  parts, `mem_events_bind` says which part an event of the whole belongs to.
  `Succeeds` says that a run ends with a value.
  `lookupTags` and `lookupContent` end with the answer of the source
  (`result_lookupTags`, `result_lookupContent`).

  `Event.Answered` is what a lookup that served its purpose leaves in the trace.
-/

import Mathlib.Data.List.Forall2
import NoteAccess.Policy.Evaluation

namespace NoteAccess

namespace Run

variable {ε α β : Type}

/-- A sequence ends with a value only through a value of its first part. -/
theorem bind_eq_ok {x : Run ε α} {f : α → Run ε β} {b : β} :
    (x >>= f).result = .ok b ↔ ∃ a, x.result = .ok a ∧ (f a).result = .ok b := by
  rw [result_bind]
  cases h : x.result with
  | error e => simp [Except.bind]
  | ok a => simp [Except.bind]

/-- An event of a sequence belongs to its first part or to what follows its value. -/
theorem mem_events_bind {x : Run ε α} {f : α → Run ε β} {e : Event} :
    e ∈ (x >>= f).events ↔
      e ∈ x.events ∨ ∃ a, x.result = .ok a ∧ e ∈ (f a).events := by
  simp only [bind]
  cases h : x.result with
  | error e => simp
  | ok a => simp [List.mem_append]

/-- A sequence whose first part has a value goes on with it. -/
theorem result_bind_of_ok {x : Run ε α} {f : α → Run ε β} {a : α} (h : x.result = .ok a) :
    (x >>= f).result = (f a).result := by
  rw [result_bind, h]
  rfl

/-- What is made of a value fails only if there is none. -/
theorem bind_pure_eq_error {x : Run ε α} {f : α → β} {e : ε} :
    (x >>= fun a => pure (f a)).result = .error e ↔ x.result = .error e := by
  rw [result_bind]
  cases x.result with
  | error e' =>
    show Except.error e' = Except.error e ↔ _
    rw [Except.error.injEq, Except.error.injEq]
  | ok a => exact iff_of_false nofun nofun

/-- The run ends with a value. -/
def Succeeds (x : Run ε α) : Prop := ∃ a, x.result = .ok a

theorem Succeeds.bind {x : Run ε α} {f : α → Run ε β} (hx : x.Succeeds) (hf : ∀ a, (f a).Succeeds) :
    (x >>= f).Succeeds := by
  obtain ⟨a, ha⟩ := hx
  obtain ⟨b, hb⟩ := hf a
  exact ⟨b, (result_bind_of_ok ha).trans hb⟩

/-- Runs on items have values side by side with the items exactly if each one has a value. -/
theorem exists_forall₂_iff {f : α → Run ε β} {items : List α} :
    (∃ bs, List.Forall₂ (fun a b => (f a).result = .ok b) items bs) ↔ ∀ a ∈ items, (f a).Succeeds := by
  induction items with
  | nil => exact iff_of_true ⟨[], .nil⟩ fun _ h => absurd h List.not_mem_nil
  | cons a rest ih =>
    rw [List.forall_mem_cons, ← ih]
    simp only [List.forall₂_cons_left_iff]
    constructor
    · rintro ⟨_, b, bs, hb, hbs, -⟩
      exact ⟨⟨b, hb⟩, bs, hbs⟩
    · rintro ⟨⟨b, hb⟩, bs, hbs⟩
      exact ⟨b :: bs, b, bs, hb, hbs, rfl⟩

/-- Another wording of errors changes no value. -/
theorem mapError_eq_ok {ε' : Type} {x : Run ε α} {f : ε → ε'} {a : α} :
    (x.mapError f).result = .ok a ↔ x.result = .ok a := by
  have hresult : (x.mapError f).result = x.result.mapError f := rfl
  rw [hresult]
  cases x.result with
  | error e => exact ⟨nofun, nofun⟩
  | ok b =>
    show (Except.ok b : Except ε' α) = .ok a ↔ _
    rw [Except.ok.injEq, Except.ok.injEq]

/-- That a pattern is malformed makes a difference to the trace only. -/
theorem result_made (p : Pattern) (outcome : Except Fault Pattern.Program) : (made p outcome).result = outcome := by
  unfold made
  rw [result_bind]
  show outcome.bind _ = outcome
  cases outcome with
  | error f => rfl
  | ok program => cases hv : program.isValid <;> simp [Except.bind, hv, result_bind]

theorem result_compile (p : Pattern) : (compile p).result = p.compile := result_made p _

theorem result_compileHere [Stack] (p : Pattern) : (compileHere p).result = p.compileWithin Stack.room :=
  result_made p _

/-- Compiling a pattern leaves no event but that the pattern is malformed. -/
theorem mem_events_made {p : Pattern} {outcome : Except Fault Pattern.Program} {e : Event}
    (h : e ∈ (made p outcome).events) : e = .malformed p := by
  unfold made at h
  rw [mem_events_bind] at h
  obtain h | ⟨program, -, h⟩ := h
  · simp [ofExcept] at h
  · dsimp only at h
    split at h
    · simpa [mem_events_bind] using h
    · simp at h

end Run

/-! ## Answers of the sources -/

namespace Lookup

variable {ε α : Type}

/-- The answer could be read: the note is missing, or what was asked for was found. -/
def IsRead (a : Lookup ε α) : Prop := ∀ reason, a ≠ .unavailable reason

@[simp] theorem isRead_notFound : (notFound : Lookup ε α).IsRead := fun _ h => nomatch h

@[simp] theorem isRead_found (a : α) : (found a : Lookup ε α).IsRead := fun _ h => nomatch h

@[simp] theorem not_isRead_unavailable (reason : ε) :
    ¬ (unavailable reason : Lookup ε α).IsRead := fun h => h reason rfl

end Lookup

namespace Sources

/-- The tags that an evaluation goes by: no source and a failing one leave them unread. -/
def tagAnswer (s : Sources) (path : Text) : TagLookup :=
  match s.tags with
  | none => .unavailable ()
  | some lookup =>
    match lookup path with
    | .ok answer => answer
    | .error _ => .unavailable ()

/-- The content that an evaluation goes by: no source and a failing one leave it unread. -/
def contentAnswer (s : Sources) (path : Text) : ContentLookup :=
  match s.content with
  | none => .unavailable "no content provider"
  | some lookup =>
    match lookup path with
    | .ok answer => answer
    | .error e => .unavailable e.message

variable {ε : Type}

@[simp] theorem result_lookupTags (s : Sources) (path : Text) :
    (s.lookupTags path : Run ε TagLookup).result = .ok (s.tagAnswer path) := by
  unfold lookupTags tagAnswer
  cases s.tags with
  | none => rfl
  | some lookup =>
    dsimp only
    rw [Run.result_bind_of_ok (Run.result_emit _)]
    cases lookup path <;> rfl

@[simp] theorem result_lookupContent (s : Sources) (path : Text) :
    (s.lookupContent path : Run ε ContentLookup).result = .ok (s.contentAnswer path) := by
  unfold lookupContent contentAnswer
  cases s.content with
  | none => rfl
  | some lookup =>
    dsimp only
    rw [Run.result_bind_of_ok (Run.result_emit _)]
    cases lookup path <;> rfl

end Sources

/-! ## Lookups in a trace -/

/-- A lookup got an answer that could be read; other events are no lookups. -/
def Event.Answered (s : Sources) : Event → Prop
  | .tags path => ∃ lookup answer, s.tags = some lookup ∧ lookup path = .ok answer ∧ answer.IsRead
  | .content path =>
    ∃ lookup answer, s.content = some lookup ∧ lookup path = .ok answer ∧ answer.IsRead
  | .unsourced _ => False
  | .line _ | .malformed _ => True

namespace Sources

variable {ε : Type}

/-- Tags that could be read were looked up with an answer. -/
theorem answered_of_mem_lookupTags {s : Sources} {path : Text} {e : Event}
    (hread : (s.tagAnswer path).IsRead)
    (he : e ∈ (s.lookupTags path : Run ε TagLookup).events) : e.Answered s := by
  unfold tagAnswer at hread
  unfold lookupTags at he
  cases hs : s.tags with
  | none => simp [hs] at hread
  | some lookup =>
    cases ha : lookup path with
    | error i => simp [hs, ha] at hread
    | ok answer =>
      simp only [hs, ha] at hread he
      simp only [Run.mem_events_bind, Run.events_emit, List.mem_singleton, Run.events_pure,
        List.not_mem_nil, and_false, exists_false, or_false] at he
      subst he
      exact ⟨lookup, answer, hs, ha, hread⟩

/-- Content that could be read was looked up with an answer. -/
theorem answered_of_mem_lookupContent {s : Sources} {path : Text} {e : Event}
    (hread : (s.contentAnswer path).IsRead)
    (he : e ∈ (s.lookupContent path : Run ε ContentLookup).events) : e.Answered s := by
  unfold contentAnswer at hread
  unfold lookupContent at he
  cases hs : s.content with
  | none => simp [hs] at hread
  | some lookup =>
    cases ha : lookup path with
    | error i => simp [hs, ha] at hread
    | ok answer =>
      simp only [hs, ha] at hread he
      simp only [Run.mem_events_bind, Run.events_emit, List.mem_singleton, Run.events_pure,
        List.not_mem_nil, and_false, exists_false, or_false] at he
      subst he
      exact ⟨lookup, answer, hs, ha, hread⟩

end Sources

end NoteAccess
