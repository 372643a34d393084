/-
  NoteAccess.Session.Watch

  Keeping up with changes: a changed rules file is read again, changed settings
  are taken over.  What fails is logged, and what was in use before stays.

  The waiting itself is not here: a session says when it is to end, and `Act.poll`
  is one pass over the files that are looked after.
-/

import NoteAccess.Session.Command

namespace NoteAccess.Act

/-! ## Changes -/

/-- Read the changed rules file again. -/
def rulesChanged (path : Text) : Act Unit := do
  reloadRules (.ofText path)
  let engine ← need (← get).engine "reload_from_file"
  log .info "Rules reloaded" [("file", path), ("rules", Text.ofNat engine.snapshot.rules.size)]

/-- The settings that a changed configuration brings, if they can be used. -/
def takeSettings [Stack] (settings : Value) : Act Unit := do
  ofExcept Failure.ofSetting (Setting.check settings)
  let engine ← need (← get).engine "update_settings"
  let engine ← ofExcept Failure.ofSetting (engine.updateSettings settings)
  modify fun s => { s with engine := some engine }

/-- The level that settings name. -/
def levelSetting (settings : Value) : Value :=
  match settings with
  | .dict entries =>
    match Value.field? Setting.loggingKey entries with
    | some (.dict logging) => (Value.field? Setting.levelKey logging).getD .null
    | _ => .null
  | _ => .null

/-- Log at the level of settings, if they name one; the command line has the last word. -/
def takeLevel [Stack] (settings : Value) : Act Unit := do
  let s ← get
  let v := levelSetting settings
  if v.isTruthy && !s.arguments.debug then
    let level ← ofExcept Failure.level (Level.ofValue v)
    modify fun s => { s with journal := { s.journal with level } }

/-- Take over the settings of a changed configuration; those that cannot be used are
    passed over. -/
def settingsChanged [Stack] (merged : Value) : Act Unit := do
  match merged with
  | .dict entries =>
    let settings := Config.settingsOf entries
    try
      takeSettings settings
    catch
      | .setting r =>
        log .error "Ignoring invalid configuration" [("error", r.message)]
        return
      | e => throw e
    takeLevel settings
    log .info "Configuration reloaded" []
  | v => throw (.lacking v.kindName "get")

/-! ## Passes -/

/-- Carry out what a notice says; a failure is logged. -/
def heed [Stack] (n : Notice Hook) : Act Unit := do
  let done : Act Unit := match n with
    | .file .rules p => rulesChanged (Place.text p)
    | .file .settings _ => pure ()
    | .settings .settings merged => settingsChanged (.dict merged)
    | .settings .rules _ => pure ()
    | .line l => say l
  try done catch e => say (n.failureLine e.incident)

/-- One pass over the files that are looked after: those that have changed. -/
def poll [Yaml.Loader] [Stack] : Act (List Place) := do
  let s ← get
  let pass := s.config.poll s.tree
  set { s with config := pass.config }
  pass.notices.forM heed
  match pass.failure with
  | some f => throw (.fault f [])
  | none => return pass.changed

/-! ## Watching -/

/-- Look after a file. -/
def watchFile (path : Text) (hook : Option Hook) : Act Unit := do
  let s ← get
  let p ← ofExcept (Failure.ofPath s.world s.tree path) (s.world.resolve s.tree path)
  let (config, result) := s.config.watch s.tree p hook
  set { s with config }
  ofExcept (Failure.ofSystem p) result

/-- From now on a signal ends the session. -/
def heedSignals : Act Unit := log .debug "Signal handlers registered" []

/-- A signal has come. -/
def signalled (name : Text) : Act Unit := do
  log .info ("Received signal " ++ name ++ ", shutting down...") []
  modify fun s => { s with stopping := true }

/-- Begin to look after the rules file and the configuration file. -/
def watch (interval : Value) : Act ExitCode := do
  let file ← rulesFile
  watchFile file.text (some .rules)
  (← get).arguments.config.forM fun path => watchFile path none
  modify fun s => { s with config := s.config.addWatcher .settings }
  heedSignals
  log .info "Watching for changes" [("rules", file.text), ("interval", interval.toText)]
  return .success

end NoteAccess.Act
