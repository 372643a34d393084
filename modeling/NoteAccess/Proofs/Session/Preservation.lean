/-
  NoteAccess.Proofs.Session.Preservation

  What actions of a session leave as it is.  `Act.Preserves` says that an action, however
  it ends, leads from sessions with a property to sessions with it; a sequence does so if
  its parts do.

  Log lines go to the end of a file.  Other paths lead to what they led to
  (`Apart.stat_appendTo`), so a line has no effect on a file that is not the log
  (`Still.withLine`).
-/

import NoteAccess.Proofs.FileTree
import NoteAccess.Proofs.Session

namespace NoteAccess

/-! ## Files that are apart -/

namespace FileTree

variable {t : FileTree} {f r : Place}

/-- The paths do not lead to the same item. -/
def Apart (t : FileTree) (f r : Place) : Prop :=
  ∀ p i j, t.locate f = .ok (p, some i) → t.locate r ≠ .ok (p, some j)

/-- Where a text is added to a file, only what is in the file changes. -/
theorem appendTo_eq (t : FileTree) (f : Place) (text : Text) :
    Session.appendTo t f text = t ∨ ∃ p content bytes time, t.locate f = .ok (p, some (.file content time)) ∧
      Session.appendTo t f text = t.put p (.file (.bytes bytes) time) := by
  unfold Session.appendTo
  cases hread : t.read f with
  | error e => exact .inl rfl
  | ok content =>
    cases Utf8.encode? text with
    | none => exact .inl rfl
    | some added =>
      obtain ⟨p, time, hlocate⟩ := locate_of_read hread
      refine .inr ⟨p, content, content.toBytes ++ added, time, hlocate, ?_⟩
      show ((t.write f (content.toBytes ++ added)).toOption).getD t = _
      rw [write, hlocate]
      rfl

theorem Apart.locate_appendTo (h : t.Apart f r) (text : Text) : (Session.appendTo t f text).locate r = t.locate r := by
  rcases appendTo_eq t f text with hsame | ⟨p, content, bytes, time, hlocate, hput⟩
  · rw [hsame]
  · rw [hput]
    exact locate_put_other (item?_of_locate hlocate) (h p _ · hlocate)

/-- A path that does not lead to the file leads to what it led to. -/
theorem Apart.stat_appendTo (h : t.Apart f r) (text : Text) : (Session.appendTo t f text).stat r = t.stat r := by
  rw [stat, stat, h.locate_appendTo text]

theorem Apart.appendTo (h : t.Apart f r) (text : Text) : (Session.appendTo t f text).Apart f r := by
  intro p i j hf
  rw [h.locate_appendTo text]
  rcases appendTo_eq t f text with hsame | ⟨q, content, bytes, time, hlocate, hput⟩
  · rw [hsame] at hf
    exact h p i j hf
  · rw [hput, locate_put (item?_of_locate hlocate) hlocate] at hf
    cases hf
    exact h _ _ j hlocate

end FileTree

/-! ## Actions -/

namespace Act

variable {ε α β : Type} {I : Session → Prop}

/-- However the action ends, the property holds of the session then if it did before. -/
def Preserves (I : Session → Prop) (x : Act α) : Prop := ∀ s, I s → I (x.run.run s).2

theorem Preserves.does {x : Act α} {a : α} {s s' : Session} (h : Preserves I x) (hx : x.Does s a s')
    (hs : I s) : I s' := by
  have hnext := h s hs
  rwa [hx] at hnext

theorem preserves_pure (a : α) : Preserves I (pure a : Act α) := fun _ h => h

theorem preserves_throw (e : Failure) : Preserves I (throw e : Act α) := fun _ h => h

theorem preserves_get : Preserves I (get : Act Session) := fun _ h => h

theorem preserves_modify {f : Session → Session} (h : ∀ s, I s → I (f s)) : Preserves I (modify f : Act Unit) := h

/-- The property holds at the end of a sequence if it does after its first part. -/
theorem holds_bind {x : Act α} {f : α → Act β} {s : Session} (hx : I (x.run.run s).2) (hf : ∀ a, Preserves I (f a)) :
    I ((x >>= f).run.run s).2 := by
  rw [run_bind]
  rcases hrun : x.run.run s with ⟨result, t⟩
  rw [hrun] at hx
  cases result with
  | ok a => exact hf a t hx
  | error e => exact hx

theorem holds_tryCatch {x : Act α} {f : Failure → Act α} {s : Session} (hx : I (x.run.run s).2)
    (hf : ∀ e, Preserves I (f e)) : I ((tryCatch x f).run.run s).2 := by
  rw [run_tryCatch]
  rcases hrun : x.run.run s with ⟨result, t⟩
  rw [hrun] at hx
  cases result with
  | ok a => exact hx
  | error e => exact hf e t hx

theorem Preserves.bind {x : Act α} {f : α → Act β} (hx : Preserves I x) (hf : ∀ a, Preserves I (f a)) :
    Preserves I (x >>= f) := fun s hs => holds_bind (hx s hs) hf

theorem Preserves.tryCatch {x : Act α} {f : Failure → Act α} (hx : Preserves I x) (hf : ∀ e, Preserves I (f e)) :
    Preserves I (tryCatch x f) := fun s hs => holds_tryCatch (hx s hs) hf

theorem preserves_forM {f : α → Act PUnit} (hf : ∀ a, Preserves I (f a)) (items : List α) :
    Preserves I (items.forM f) := by
  induction items with
  | nil => exact preserves_pure PUnit.unit
  | cons a items ih => exact (hf a).bind fun _ => ih

theorem preserves_need (c : Option α) (operation : Text) : Preserves I (need c operation) := by
  cases c with
  | some a => exact preserves_pure a
  | none => exact preserves_throw _

/-! ## Logging -/

/-- The property does not depend on what is logged. -/
def Unlogged (I : Session → Prop) : Prop := ∀ s (e : Event), I s → I (s.withEvent e)

/-- A property that lines of the log have no effect on does not depend on what is logged, unless it is
    about the journal. -/
theorem unlogged_of_withLine (hline : ∀ s l, I s → I (s.withLine l))
    (hjournal : ∀ s journal, I s → I { s with journal }) :
    Unlogged I := by
  intro s e hs
  unfold Session.withEvent
  exact List.foldlRecOn (motive := I) _ _ (hjournal s _ hs) fun s hs l _ => hline s l hs

theorem Unlogged.withEvents {s : Session} (h : Unlogged I) (hs : I s) (events : List Event) :
    I (s.withEvents events) := by
  unfold Session.withEvents
  induction events generalizing s with
  | nil => exact hs
  | cons e events ih => exact ih (h s e hs)

theorem Unlogged.say (h : Unlogged I) (l : LogLine) : Preserves I (say l) := fun s hs => h s (.line l) hs

theorem Unlogged.log (h : Unlogged I) (severity : Severity) (message : Text) (context : LogLine.Context) :
    Preserves I (log severity message context) := h.say _

theorem Unlogged.absorb (h : Unlogged I) (f : ε → Failure) (r : Run ε α) : Preserves I (absorb f r) :=
  (preserves_modify fun _ hs => h.withEvents hs r.events).bind fun _ => by
    cases r.result with
    | ok a => exact preserves_pure a
    | error e => exact preserves_throw (f e)

end Act

namespace Session

variable {s : Session} {r : Place}

/-- The log is not what a path leads to. -/
def Apart (s : Session) (r : Place) : Prop := ∀ f, s.logFile = some f → s.tree.Apart f r

/-- The configuration is as given, and so is what a path leads to, which is not the log. -/
structure Still (config : Config Hook) (r : Place) (item : Except Fault FileItem) (s : Session) : Prop where
  config_eq : s.config = config
  apart : s.Apart r
  stat_eq : s.tree.stat r = item

theorem Still.withLine {config : Config Hook} {item : Except Fault FileItem} (h : s.Still config r item) (l : LogLine) :
    (s.withLine l).Still config r item := by
  unfold Session.withLine
  cases hfile : s.logFile with
  | none => exact ⟨h.config_eq, fun f hf => h.apart f (hfile.trans hf), h.stat_eq⟩
  | some f =>
    have hf := h.apart f hfile
    cases s.showLine? l.whole l with
    | none => exact ⟨h.config_eq, fun f hf => h.apart f (hfile.trans hf), h.stat_eq⟩
    | some text =>
      refine ⟨h.config_eq, ?_, (hf.stat_appendTo _).trans h.stat_eq⟩
      rintro f' hf'
      cases hf'
      exact hf.appendTo _

end Session

end NoteAccess
