/-
  NoteAccess.Proofs.Session.Settings

  Changed settings in a running session.  Settings that are refused leave the engine
  and the level of the log as they are, also where there is no writing what is refused.
  Settings that are accepted go to the engine first, which takes over all of them, and
  then to the log: if they name a level that there is not, the session has the new
  engine, the old level and a failure (`inForce_settingsChanged`).
-/

import NoteAccess.Proofs.Session
import NoteAccess.Proofs.Setting
import NoteAccess.Session.Running

namespace NoteAccess

/-- What settings decide on in a session: the engine, and the level of the log. -/
def Session.inForce (s : Session) : Option Engine × Level := (s.engine, s.journal.level)

/-- What is logged has no effect on what settings decide on. -/
theorem Session.inForce_withEvent (s : Session) (e : Event) : (s.withEvent e).inForce = s.inForce := by
  have h : (s.withEvent e).unlogged.inForce = s.unlogged.inForce := congrArg Session.inForce (unlogged_withEvent e)
  exact h

theorem Session.perform_of_run {α : Type} {x : Act α} {s t : Session} {result : Except Failure α}
    (h : x.run.run s = (result, t)) : s.perform x = (t, result) := by
  show ((x.run.run s).2, (x.run.run s).1) = (t, result)
  rw [h]

namespace Act

section

variable [Stack] {s : Session} {settings : Value}

/-- The level that settings name for the log, known or not; none if the command line decides. -/
def namedLevel? (s : Session) (settings : Value) : Option (Except Level.Unknown Level) :=
  if (levelSetting settings).isTruthy && !s.arguments.debug then some (Level.ofValue (levelSetting settings))
  else none

/-! ## The two halves of a change -/

theorem run_takeSettings_of_error {e : SettingFailure} (h : Setting.check settings = .error e) :
    (takeSettings settings).run.run s = (.error (.ofSetting e), s) := by
  unfold takeSettings
  rw [run_bind, h]
  rfl

theorem run_takeSettings {e e' : Engine} (h : Setting.check settings = .ok ()) (he : s.engine = some e)
    (hupdate : e.updateSettings settings = .ok e') :
    (takeSettings settings).run.run s = (.ok (), { s with engine := some e' }) := by
  unfold takeSettings
  rw [run_bind, h]
  show (do
    let engine ← need s.engine "update_settings"
    let engine ← ofExcept Failure.ofSetting (engine.updateSettings settings)
    modify fun s => { s with engine := some engine } : Act Unit).run.run s = _
  rw [he]
  show (do
    let engine ← ofExcept Failure.ofSetting (e.updateSettings settings)
    modify fun s => { s with engine := some engine } : Act Unit).run.run s = _
  rw [hupdate]
  rfl

theorem run_takeLevel (s : Session) (settings : Value) :
    (takeLevel settings).run.run s =
      match namedLevel? s settings with
      | none => (.ok (), s)
      | some (.ok level) => (.ok (), { s with journal := { s.journal with level } })
      | some (.error u) => (.error (.level u), s) := by
  show (if (levelSetting settings).isTruthy && !s.arguments.debug then do
      let level ← ofExcept Failure.level (Level.ofValue (levelSetting settings))
      modify fun s => { s with journal := { s.journal with level } }
    else pure () : Act Unit).run.run s = _
  unfold namedLevel?
  split
  · cases Level.ofValue (levelSetting settings) <;> rfl
  · rfl

/-! ## A change -/

theorem run_settingsChanged_of_refused {merged : Value.Mapping} {r : Setting.Refusal}
    (h : Setting.check (Config.settingsOf merged) = .error (.refused r)) :
    (settingsChanged (.dict merged)).run.run s =
      (.ok (), s.withEvent (.line (.ofContext .error "Ignoring invalid configuration" [("error", r.message)]))) := by
  unfold settingsChanged
  dsimp only
  rw [run_bind, run_tryCatch, run_bind, run_takeSettings_of_error h]
  rfl

/-- What is refused cannot be written, so nothing can be logged about it. -/
theorem run_settingsChanged_of_fault {merged : Value.Mapping} {f : Fault}
    (h : Setting.check (Config.settingsOf merged) = .error (.fault f)) :
    (settingsChanged (.dict merged)).run.run s = (.error (.ofSetting (.fault f)), s) := by
  unfold settingsChanged
  dsimp only
  rw [run_bind, run_tryCatch, run_bind, run_takeSettings_of_error h]
  rfl

/-- The level is looked at when the engine has been changed. -/
theorem run_settingsChanged {merged : Value.Mapping} {e e' : Engine}
    (h : Setting.check (Config.settingsOf merged) = .ok ()) (he : s.engine = some e)
    (hupdate : e.updateSettings (Config.settingsOf merged) = .ok e') :
    (settingsChanged (.dict merged)).run.run s =
      (do
        takeLevel (Config.settingsOf merged)
        log .info "Configuration reloaded" [] : Act Unit).run.run { s with engine := some e' } := by
  unfold settingsChanged
  dsimp only
  rw [run_bind, run_tryCatch, run_bind, run_takeSettings h he hupdate]
  rfl

/-- A changed configuration whose settings are refused leaves the engine and the level of the log as
    they are; the change fails only if what is refused cannot be written.  Settings that are accepted are
    taken over by the engine, all of them, and so is the level that they name; only if there is no such
    level, the change fails, and then the engine is changed and the level is not. -/
theorem inForce_settingsChanged {e : Engine} (he : s.engine = some e) (merged : Value.Mapping) :
    let settings := Config.settingsOf merged
    let outcome := s.perform (settingsChanged (.dict merged))
    match Setting.check settings with
    | .error (.refused _) => outcome.2 = .ok () ∧ outcome.1.inForce = s.inForce
    | .error (.fault f) => outcome.2 = .error (.ofSetting (.fault f)) ∧ outcome.1.inForce = s.inForce
    | .ok () => ∃ e', e.updateSettings settings = .ok e' ∧
      match namedLevel? s settings with
      | none => outcome.2 = .ok () ∧ outcome.1.inForce = (some e', s.journal.level)
      | some (.ok level) => outcome.2 = .ok () ∧ outcome.1.inForce = (some e', level)
      | some (.error u) => outcome.2 = .error (.level u) ∧ outcome.1.inForce = (some e', s.journal.level) := by
  intro settings outcome
  cases hcheck : Setting.check settings with
  | error e =>
    cases e with
    | refused r =>
      have houtcome : outcome = _ := Session.perform_of_run (run_settingsChanged_of_refused hcheck)
      rw [houtcome]
      exact ⟨rfl, s.inForce_withEvent _⟩
    | fault f =>
      have houtcome : outcome = _ := Session.perform_of_run (run_settingsChanged_of_fault hcheck)
      rw [houtcome]
      exact ⟨rfl, rfl⟩
  | ok _ =>
    obtain ⟨e', hupdate⟩ := Engine.updateSettings_of_check hcheck e
    have hrun := run_settingsChanged hcheck he hupdate
    rw [run_bind, run_takeLevel] at hrun
    have hnamed : namedLevel? { s with engine := some e' } (Config.settingsOf merged) = namedLevel? s settings := rfl
    rw [hnamed] at hrun
    refine ⟨e', hupdate, ?_⟩
    -- The engine is changed by now; the level that is named decides on the rest.
    cases hlevel : namedLevel? s settings with
    | none =>
      rw [hlevel] at hrun
      have houtcome : outcome = _ := Session.perform_of_run hrun
      rw [houtcome]
      exact ⟨rfl, Session.inForce_withEvent _ _⟩
    | some named =>
      rw [hlevel] at hrun
      cases named with
      | error u =>
        have houtcome : outcome = _ := Session.perform_of_run hrun
        rw [houtcome]
        exact ⟨rfl, rfl⟩
      | ok level =>
        have houtcome : outcome = _ := Session.perform_of_run hrun
        rw [houtcome]
        exact ⟨rfl, Session.inForce_withEvent _ _⟩

end

attribute [local instance] Stack.usual

/-- A session with an engine that has the default policy. -/
def runningSession : Session where
  world := { folder := [], home := "/" }
  arguments := { job := .rules .list }
  config := .initial
  tree := {}
  journal := ⟨.ofSeverity .info, []⟩
  layout := ⟨none⟩
  engine := some {}

/-- A configuration that allows by default, with a level for the log. -/
def allowingAt (level : Text) : Value.Mapping :=
  [(.text "vaultgate", .dict
    [(.text "default_policy", .text "allow"), (.text "logging", .dict [(.text "level", .text level)])])]

/-- Policy and level are taken over. -/
theorem inForce_settingsChanged_warning :
    ∃ e', runningSession.engine = some {} ∧
      (runningSession.perform (settingsChanged (.dict (allowingAt "warning")))).2 = .ok () ∧
      (runningSession.perform (settingsChanged (.dict (allowingAt "warning")))).1.inForce = (some e', .number 30) ∧
      e'.snapshot.defaultPolicy = .allow := by
  have h := inForce_settingsChanged (s := runningSession) rfl (allowingAt "warning")
  have hcheck : Setting.check (Config.settingsOf (allowingAt "warning")) = .ok () := by rfl
  have hlevel : namedLevel? runningSession (Config.settingsOf (allowingAt "warning")) = some (.ok (.number 30)) := by
    rfl
  dsimp only at h
  rw [hcheck] at h
  dsimp only at h
  rw [hlevel] at h
  obtain ⟨e', hupdate, hresult, hforce⟩ := h
  refine ⟨e', rfl, hresult, hforce, ?_⟩
  cases hupdate
  rfl

/-- A level that there is not makes the change fail when the policy has been taken over. -/
theorem settingsChanged_unknownLevel :
    ∃ u after, runningSession.engine = some {} ∧
      runningSession.perform (settingsChanged (.dict (allowingAt "loud"))) = (after, .error (.level u)) ∧
      after.inForce ≠ runningSession.inForce := by
  refine ⟨_, _, rfl, rfl, ?_⟩
  intro h
  have hpolicy := congrArg (fun x => x.1.map fun e : Engine => e.snapshot.defaultPolicy) h
  cases hpolicy

end Act

end NoteAccess
