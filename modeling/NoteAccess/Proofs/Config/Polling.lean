/-
  NoteAccess.Proofs.Config.Polling

  A pass over files that are looked after, with regard to one of them that somebody is
  told of.  It is told of exactly if the file is later than it is known to be
  (`Config.poll_tells`), and what is noted meanwhile is the time that it has now
  (`Config.Noted`), whatever else is loaded in the pass.
-/

import NoteAccess.Proofs.Config.Levels

namespace NoteAccess.Config

variable {κ : Type} {c c' c'' : Config κ} {t : FileTree} {r p : Place} {k : κ}

/-! ## Times that are known -/

/-- The time that a file is known to have; files of which none is known count as old. -/
def known (c : Config κ) (r : Place) : Int := (c.times.lookup r).getD 0

/-- The file is known to have the time that it was known to have, or the one that it has. -/
def Noted (t : FileTree) (r : Place) (c c' : Config κ) : Prop := c'.known r = c.known r ∨ t.time r = .ok (c'.known r)

theorem Noted.refl (t : FileTree) (r : Place) (c : Config κ) : Noted t r c c := .inl rfl

theorem Noted.trans (h : Noted t r c c') (h' : Noted t r c' c'') : Noted t r c c'' := by
  rcases h' with h' | h'
  · rcases h with h | h
    · exact .inl (h'.trans h)
    · exact .inr (h' ▸ h)
  · exact .inr h'

theorem Noted.of_file {content : FileContent} {time : Int} (h : Noted t r c c')
    (hfile : t.stat r = .ok (.file content time)) : c'.known r = c.known r ∨ c'.known r = time := by
  refine h.imp_right fun htime => ?_
  unfold FileTree.time at htime
  rw [hfile] at htime
  exact (Except.ok.inj htime).symm

theorem Noted.of_error {f : Fault} (h : Noted t r c c') (hgone : t.stat r = .error f) : c'.known r = c.known r := by
  refine h.resolve_right fun htime => ?_
  unfold FileTree.time at htime
  rw [hgone] at htime
  cases htime

theorem known_noteTime (c : Config κ) (p r : Place) (time : Int) :
    (c.noteTime p time).known r = if r = p then time else c.known r := by
  unfold known noteTime
  rw [lookup_assign]
  split <;> rfl

theorem noted_noteTime {time : Int} (h : t.time p = .ok time) (r : Place) : Noted t r c (c.noteTime p time) := by
  unfold Noted
  rw [known_noteTime]
  split
  · next hr =>
    rw [hr]
    exact .inr h
  · exact .inl rfl

/-- Whatever file is loaded, its time is noted, and the same files are looked after. -/
theorem noted_reloadPlace [Yaml.Loader] {tier : Tier} (h : c.reloadPlace t p tier = .ok c') (r : Place) :
    Noted t r c c' ∧ c'.watched = c.watched := by
  unfold reloadPlace at h
  cases hplace : t.resolve p with
  | error f => rw [hplace] at h; cases h
  | ok q =>
    rw [hplace] at h
    change c.loadPlace t q (Place.text p) tier = .ok c' at h
    unfold loadPlace at h
    cases hread : readEntries t q (Place.text p) with
    | error e => rw [hread] at h; cases h
    | ok entries =>
      rw [hread] at h
      cases htime : t.time q with
      | error f => rw [htime] at h; cases h
      | ok time =>
        rw [htime] at h
        cases h
        exact ⟨noted_noteTime (c := c.loadEntries entries tier) htime r, rfl⟩

/-! ## Passes -/

/-- Nobody is told of a file. -/
def Quiet (notices : List (Notice κ)) : Prop := ∀ k p, .file k p ∉ notices

theorem quiet_nil : Quiet ([] : List (Notice κ)) := fun _ _ => List.not_mem_nil

theorem Quiet.append {notices notices' : List (Notice κ)} (h : Quiet notices) (h' : Quiet notices') :
    Quiet (notices ++ notices') := by
  intro k p hmem
  rcases List.mem_append.mp hmem with hmem | hmem
  · exact h k p hmem
  · exact h' k p hmem

/-- A change of another file: it is loaded, or a line says that it is not. -/
theorem apply_other [Yaml.Loader] [Stack] (hp : p ≠ r) (c : Config κ) (time : Int) :
    Noted t r c ((c.noteTime p time).apply t p none).1 ∧
      ((c.noteTime p time).apply t p none).1.watched = c.watched ∧
      Quiet ((c.noteTime p time).apply t p none).2 := by
  have hnoted : Noted t r c (c.noteTime p time) := by
    refine .inl ?_
    rw [known_noteTime, if_neg (Ne.symm hp)]
  have hline : ∀ e, Quiet [(changeLine p e : Notice κ)] := fun e k q hmem => by
    cases List.mem_singleton.mp hmem
  unfold apply
  dsimp only
  cases hload : (c.noteTime p time).reloadPlace t p _ with
  | error e => exact ⟨hnoted, rfl, hline e⟩
  | ok next =>
    obtain ⟨hnext, hwatched⟩ := noted_reloadPlace hload r
    dsimp only
    rcases next.getAll_cases with hroom | hdeep
    · rw [notices, hroom]
      refine ⟨hnoted.trans hnext, hwatched, fun k q hmem => ?_⟩
      obtain ⟨w, -, hw⟩ := List.mem_map.mp hmem
      cases hw
    · rw [notices, hdeep]
      exact ⟨hnoted.trans hnext, hwatched, hline _⟩

/-- A pass over other files, which are loaded when they change. -/
theorem pollFrom_others [Yaml.Loader] [Stack] {others : List (Place × Option κ)} (h : ∀ e ∈ others, e.1 ≠ r ∧ e.2 = none) (pass : Pass κ) :
    Noted t r pass.config (pollFrom t pass others).config ∧
      (pollFrom t pass others).config.watched = pass.config.watched ∧
      ∃ notices, (pollFrom t pass others).notices = pass.notices ++ notices ∧ Quiet notices := by
  induction others generalizing pass with
  | nil => exact ⟨.refl t r _, rfl, [], (List.append_nil _).symm, quiet_nil⟩
  | cons e others ih =>
    obtain ⟨p, hook⟩ := e
    obtain ⟨⟨hp, hhook⟩, hothers⟩ := List.forall_mem_cons.mp h
    obtain rfl : hook = none := hhook
    rw [pollFrom]
    split
    -- A failure ends the pass; a file that is not later than known is passed over.
    · exact ⟨.refl t r _, rfl, [], (List.append_nil _).symm, quiet_nil⟩
    · exact ih hothers pass
    · next time _ =>
      obtain ⟨hnoted, hwatched, hquiet⟩ := apply_other (t := t) hp pass.config time
      cases happly : (pass.config.noteTime p time).apply t p none with
      | mk next told =>
        rw [happly] at hnoted hwatched hquiet
        obtain ⟨hrest, hrestWatched, notices, hnotices, hrestQuiet⟩ :=
          ih hothers { config := next, changed := pass.changed ++ [p], notices := pass.notices ++ told }
        refine ⟨hnoted.trans hrest, hrestWatched.trans hwatched, told ++ notices, ?_, hquiet.append hrestQuiet⟩
        dsimp only
        rw [hnotices, List.append_assoc]

/-- A pass in which somebody is told of a file: exactly if it is later than known, and then its time is
    noted.  The files that are looked after stay the same. -/
theorem poll_tells [Yaml.Loader] [Stack] {others : List (Place × Option κ)} (hwatched : c.watched = (r, some k) :: others)
    (hothers : ∀ e ∈ others, e.1 ≠ r ∧ e.2 = none) (t : FileTree) :
    (c.poll t).config.watched = c.watched ∧ ∃ notices, Quiet notices ∧
      match c.newerTime? t r with
      | .ok (some time) => (c.poll t).notices = .file k r :: notices ∧ Noted t r (c.noteTime r time) (c.poll t).config
      | _ => (c.poll t).notices = notices ∧ Noted t r c (c.poll t).config := by
  unfold poll
  rw [hwatched, pollFrom]
  cases c.newerTime? t r with
  | error f => exact ⟨hwatched, [], quiet_nil, rfl, .refl t r c⟩
  | ok newer =>
    cases newer with
    | none =>
      obtain ⟨hnoted, hsame, notices, hnotices, hquiet⟩ := pollFrom_others (t := t) hothers { config := c }
      exact ⟨hsame.trans hwatched, notices, hquiet, hnotices, hnoted⟩
    | some time =>
      -- The time is noted before somebody is told; the other files come after that.
      obtain ⟨hnoted, hsame, notices, hnotices, hquiet⟩ := pollFrom_others (t := t) hothers
        { config := c.noteTime r time, changed := [] ++ [r], notices := [] ++ [.file k r] }
      exact ⟨hsame.trans hwatched, notices, hquiet, hnotices, hnoted⟩

/-- A file is later than known. -/
theorem newerTime?_of_file {content : FileContent} {time : Int} (h : t.stat r = .ok (.file content time))
    (c : Config κ) : c.newerTime? t r = .ok (if time ≤ c.known r then none else some time) := by
  unfold newerTime? FileTree.exists? FileTree.leadsTo FileTree.time known
  rw [h]
  rfl

/-- What is not there is not later than known. -/
theorem newerTime?_of_error {f : Fault} (h : t.stat r = .error f) (c : Config κ) (time : Int) :
    c.newerTime? t r ≠ .ok (some time) := by
  unfold newerTime? FileTree.exists? FileTree.leadsTo
  rw [h]
  cases f <;> exact nofun

/-! ## Beginning to look after a file -/

theorem watched_watch (c : Config κ) (t : FileTree) (p : Place) (hook : Option κ) :
    (c.watch t p hook).1.watched = assign p hook c.watched := by
  unfold watch
  dsimp only
  split
  · rfl
  · split <;> rfl

end NoteAccess.Config
