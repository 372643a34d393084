/-
  NoteAccess.Run

  Computations that leave a trace.  A run ends with a value or an error and
  records, in order, what it did on the way: which lookups it made, which lines
  it logged, and which malformed patterns it came across.

  The trace of a sequence is the traces one after the other; an error keeps the
  trace up to it.
-/

import NoteAccess.Pattern
import NoteAccess.Log.Line
import NoteAccess.Stack

namespace NoteAccess

/-- Something that happens during a run. -/
inductive Event where
  /-- The tags of a path are looked up. -/
  | tags (path : Text)
  /-- The content of a path is looked up. -/
  | content (path : Text)
  /-- Tags or content of a path are wanted and there is no source of them. -/
  | unsourced (path : Text)
  /-- A line is logged. -/
  | line (l : LogLine)
  /-- A malformed pattern is met. -/
  | malformed (p : Pattern)
  deriving DecidableEq

/-- A value or an error, with what happened on the way. -/
structure Run (ε α : Type) where
  events : List Event
  result : Except ε α

namespace Run

variable {ε ε' α β : Type}

instance : Monad (Run ε) where
  pure a := ⟨[], .ok a⟩
  bind x f :=
    match x.result with
    | .error e => ⟨x.events, .error e⟩
    | .ok a =>
      let y := f a
      ⟨x.events ++ y.events, y.result⟩

/-- A run that fails at once. -/
def fail (e : ε) : Run ε α := ⟨[], .error e⟩

/-- A run that records one event. -/
def emit (e : Event) : Run ε Unit := ⟨[e], .ok ()⟩

/-- A value or an error as a run without a trace. -/
def ofExcept (r : Except ε α) : Run ε α := ⟨[], r⟩

/-- The run with its error changed. -/
def mapError (f : ε → ε') (x : Run ε α) : Run ε' α := ⟨x.events, x.result.mapError f⟩

/-- The run with its outcome as its value, so that it does not fail. -/
def attempt (x : Run ε α) : Run ε' (Except ε α) := ⟨x.events, .ok x.result⟩

@[simp] theorem events_pure (a : α) : (pure a : Run ε α).events = [] := rfl

@[simp] theorem result_pure (a : α) : (pure a : Run ε α).result = .ok a := rfl

@[simp] theorem events_fail (e : ε) : (fail e : Run ε α).events = [] := rfl

@[simp] theorem result_fail (e : ε) : (fail e : Run ε α).result = .error e := rfl

@[simp] theorem result_emit (e : Event) : (emit e : Run ε Unit).result = .ok () := rfl

@[simp] theorem events_emit (e : Event) : (emit e : Run ε Unit).events = [e] := rfl

/-- The outcome of a sequence is that of its parts. -/
theorem result_bind (x : Run ε α) (f : α → Run ε β) :
    (x >>= f).result = x.result.bind fun a => (f a).result := by
  simp only [bind, Except.bind]
  split <;> rename_i h <;> simp [h]

/-! ## Sequences -/

/-- The runs of `f` on the items, one after the other; `events` and `seen` are what came
    before, in reverse. -/
def eachFrom (f : α → Run ε β) (events : List Event) (seen : List β) : List α → Run ε (List β)
  | [] => ⟨events.reverse, .ok seen.reverse⟩
  | a :: rest =>
    let x := f a
    match x.result with
    | .error e => ⟨(x.events.reverse ++ events).reverse, .error e⟩
    | .ok b => eachFrom f (x.events.reverse ++ events) (b :: seen) rest

/-- The runs of `f` on the items, one after the other; the first error ends them. -/
def each (f : α → Run ε β) (items : List α) : Run ε (List β) := eachFrom f [] [] items

/-! ## Log lines -/

/-- Log a line with its context. -/
def log (severity : Severity) (message : Text) (context : LogLine.Context) : Run ε Unit :=
  emit (.line (.ofContext severity message context))

/-- Log the line of an incident. -/
def logIncident (message : Text) (context : LogLine.Context) (i : Incident) : Run ε Unit :=
  emit (.line (.ofIncident message context i))

/-! ## Patterns -/

/-- The program that was made of a pattern; a malformed one leaves a trace. -/
def made (p : Pattern) (outcome : Except Fault Pattern.Program) : Run Fault Pattern.Program := do
  let program ← ofExcept outcome
  if !program.isValid then emit (.malformed p)
  return program

/-- The program of a pattern, whatever room that takes. -/
def compile (p : Pattern) : Run Fault Pattern.Program := made p p.compile

/-- The program of a pattern in the room there is. -/
def compileHere [Stack] (p : Pattern) : Run Fault Pattern.Program := made p (p.compileWithin Stack.room)

end Run

end NoteAccess
