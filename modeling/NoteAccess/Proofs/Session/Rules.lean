/-
  NoteAccess.Proofs.Session.Rules

  The rules that a session uses, through changes and passes.  A changed rules file that
  can be loaded gives its rules, one that cannot leaves those in use
  (`rules_rulesChanged`); changed settings leave the rules (`preserves_settingsChanged`).
  So a pass in which the session is told of the rules file ends with the rules of the
  file, and any other pass with the rules that were in use (`rules_poll`).
-/

import NoteAccess.Proofs.Config.Polling
import NoteAccess.Proofs.FileTree.Meaning
import NoteAccess.Proofs.Outcome
import NoteAccess.Proofs.Run
import NoteAccess.Proofs.Session.Preservation
import NoteAccess.Proofs.Session.Settings

namespace NoteAccess

/-- A rules file gives the same as long as its path leads to the same. -/
theorem RulesFile.load_congr {t t' : FileTree} (path : FilePath) (h : t'.stat path.segments = t.stat path.segments) :
    load t' path = load t path := by
  have htext : readText t' path = readText t path := by
    unfold readText FileTree.exists? FileTree.leadsTo FileTree.read
    rw [h]
  rw [load, load, htext]

namespace Engine

variable {e e' : Engine} {t : FileTree} {path : FilePath}

/-- What becomes of the engine depends on what the rules file gives. -/
theorem result_reloadFile (e : Engine) (t : FileTree) (path : FilePath) :
    (e.reloadFile t path).result =
      match (RulesFile.load t path).result with
      | .ok (some l) => .ok (e.install l, l.warnings)
      | .ok none => .ok (e.install .empty, [])
      | .error f => .error f := by
  have hattempt : ((RulesFile.load t path).attempt : Run RulesFile.Error _).result =
      .ok (RulesFile.load t path).result := rfl
  unfold reloadFile
  rw [Run.result_bind_of_ok hattempt]
  cases (RulesFile.load t path).result with
  | error f => rfl
  | ok found => cases found <;> rfl

/-- Other settings leave the rules. -/
theorem entries_updateSettings [Stack] {settings : Value} (h : e.updateSettings settings = .ok e') :
    e'.snapshot.entries = e.snapshot.entries := by
  have hentries : Gives (fun e' : Engine => e'.snapshot.entries = e.snapshot.entries) (e.updateSettings settings) := by
    unfold updateSettings
    refine gives_bind fun snapshot => ?_
    have hmade : ∀ concurrency : Nat, Gives (fun e' : Engine => e'.snapshot.entries = e.snapshot.entries)
        (.ok { snapshot := snapshot.withRules e.snapshot.rules e.snapshot.entries, concurrency } :
          Except SettingFailure Engine) :=
      fun _ => gives_ok rfl
    dsimp only
    split
    · split
      · exact hmade _
      · exact hmade _
      · exact gives_bind hmade
    · exact hmade _
  exact hentries e' h

end Engine

namespace Session

variable {s : Session} {r : Place} {config : Config Hook} {item : Except Fault FileItem}

/-- The lines of rules that are in use. -/
def rules (s : Session) : Option (List RuleEntry) := s.engine.map fun e => e.snapshot.entries

/-- Nothing has changed but the log: not the configuration, nor a file, nor the rules in use. -/
def Keeps (config : Config Hook) (r : Place) (item : Except Fault FileItem) (rules : Option (List RuleEntry))
    (s : Session) : Prop :=
  s.Still config r item ∧ s.rules = rules

theorem unlogged_keeps (config : Config Hook) (r : Place) (item : Except Fault FileItem)
    (rules : Option (List RuleEntry)) :
    Act.Unlogged (Keeps config r item rules) :=
  Act.unlogged_of_withLine (fun _ l h => ⟨h.1.withLine l, h.2⟩)
    fun _ _ h => ⟨⟨h.1.config_eq, h.1.apart, h.1.stat_eq⟩, h.2⟩

/-- Another engine changes the rules only. -/
theorem Still.withEngine (h : s.Still config r item) (e : Engine) :
    Keeps config r item (some e.snapshot.entries) { s with engine := some e } :=
  ⟨⟨h.config_eq, h.apart, h.stat_eq⟩, rfl⟩

end Session

namespace Act

open Session

variable {s s' : Session} {r : Place} {config : Config Hook} {item : Except Fault FileItem}
  {rules : Option (List RuleEntry)}

/-! ## A changed rules file -/

theorem run_absorb {ε α : Type} (f : ε → Failure) (x : Run ε α) (s : Session) :
    (absorb f x).run.run s = (x.result.mapError f, s.withEvents x.events) := by
  unfold absorb
  rw [run_bind]
  cases x.result <;> rfl

theorem run_reloadRules {e : Engine} (he : s.engine = some e) (file : FilePath) :
    (reloadRules file).run.run s =
      match (e.reloadFile s.tree file).result with
      | .ok (e', warnings) =>
        (warnings.forM fun w => log .warning "Rules file warning" [("detail", w.text)] : Act Unit).run.run
          { s.withEvents (e.reloadFile s.tree file).events with engine := some e' }
      | .error f => (.error (rulesFailure f), s.withEvents (e.reloadFile s.tree file).events) := by
  have hget : (get : Act Session).run.run s = (.ok s, s) := rfl
  have hneed : (need s.engine "reload_from_file").run.run s = (.ok e, s) := by
    rw [he]
    rfl
  unfold reloadRules
  rw [run_bind, hget]
  dsimp only
  rw [run_bind, hneed]
  dsimp only
  rw [run_bind, run_absorb]
  cases (e.reloadFile s.tree file).result with
  | error f => rfl
  | ok reloaded => rfl

/-- The rules that a file gives, or else other ones. -/
def rulesOf (result : Except RulesFile.Error (Option Listing)) (others : List RuleEntry) : List RuleEntry :=
  match result with
  | .ok (some l) => l.entries
  | .ok none => []
  | .error _ => others

theorem rules_reloadRules {entries : List RuleEntry} (h : s.Keeps config r item (some entries)) (file : FilePath) :
    Keeps config r item (some (rulesOf (RulesFile.load s.tree file).result entries))
      ((reloadRules file).run.run s).2 := by
  obtain ⟨hstill, hrules⟩ := h
  obtain ⟨e, he, rfl⟩ := Option.map_eq_some_iff.mp hrules
  have hresult := e.result_reloadFile s.tree file
  -- What the load has logged comes before the rules, warnings of the file after them.
  have hevents : Keeps config r item (some e.snapshot.entries) (s.withEvents (e.reloadFile s.tree file).events) :=
    (unlogged_keeps _ _ _ _).withEvents ⟨hstill, hrules⟩ _
  rw [run_reloadRules he]
  cases hload : (RulesFile.load s.tree file).result with
  | error f =>
    rw [hload] at hresult
    rw [hresult]
    exact hevents
  | ok found =>
    rw [hload] at hresult
    cases found with
    | none =>
      rw [hresult]
      exact hevents.1.withEngine _
    | some l =>
      rw [hresult]
      exact preserves_forM (fun w => (unlogged_keeps _ _ _ _).log _ _ _) l.warnings _ (hevents.1.withEngine _)

/-- A changed rules file that can be loaded gives its rules; one that cannot leaves those in use. -/
theorem rules_rulesChanged {entries : List RuleEntry} (h : s.Keeps config r item (some entries)) (path : Text) :
    Keeps config r item (some (rulesOf (RulesFile.load s.tree (.ofText path)).result entries))
      ((rulesChanged path).run.run s).2 := by
  refine holds_bind (rules_reloadRules h (.ofText path)) fun _ => preserves_get.bind fun s => ?_
  exact (preserves_need s.engine _).bind fun _ => (unlogged_keeps _ _ _ _).log _ _ _

/-! ## Changed settings -/

theorem preserves_takeSettings [Stack] (settings : Value) : Preserves (Keeps config r item rules) (takeSettings settings) := by
  intro s hs
  cases hcheck : Setting.check settings with
  | error f =>
    rw [run_takeSettings_of_error hcheck]
    exact hs
  | ok _ =>
    cases he : s.engine with
    | none =>
      have hrun : (takeSettings settings).run.run s = (.error (.lacking "NoneType" "update_settings"), s) := by
        unfold takeSettings
        rw [run_bind, hcheck]
        show (need s.engine "update_settings" >>= fun _ => _ : Act Unit).run.run s = _
        rw [he]
        rfl
      rw [hrun]
      exact hs
    | some e =>
      -- Accepted settings are taken over by an engine with the same rules.
      obtain ⟨e', hupdate⟩ := Engine.updateSettings_of_check hcheck e
      rw [run_takeSettings hcheck he hupdate]
      have hrules : rules = some e'.snapshot.entries := by
        rw [Engine.entries_updateSettings hupdate, ← hs.2, Session.rules, he]
        rfl
      rw [hrules]
      exact hs.1.withEngine e'

theorem preserves_takeLevel [Stack] (settings : Value) : Preserves (Keeps config r item rules) (takeLevel settings) := by
  intro s hs
  rw [run_takeLevel]
  split
  · exact hs
  · exact ⟨⟨hs.1.config_eq, hs.1.apart, hs.1.stat_eq⟩, hs.2⟩
  · exact hs

/-- Changed settings leave the rules. -/
theorem preserves_settingsChanged [Stack] (merged : Value) :
    Preserves (Keeps config r item rules) (settingsChanged merged) := by
  have hlog := unlogged_keeps config r item rules
  unfold settingsChanged
  split
  · refine Preserves.bind (Preserves.tryCatch ?_ fun e => ?_) fun stop => ?_
    · exact (preserves_takeSettings _).bind fun _ => preserves_pure _
    · split
      · exact (hlog.log _ _ _).bind fun _ => preserves_pure _
      · exact (preserves_throw _)
    · cases stop with
      | error _ => exact preserves_pure _
      | ok _ => exact (preserves_takeLevel _).bind fun _ => hlog.log _ _ _
  · exact preserves_throw _

/-! ## Passes -/

/-- What is told of anything but a file leaves the rules. -/
theorem preserves_heed [Stack] {n : Notice Hook} (hn : ∀ k p, n ≠ .file k p) :
    Preserves (Keeps config r item rules) (heed n) := by
  have hlog := unlogged_keeps config r item rules
  refine Preserves.tryCatch ?_ fun e => hlog.say _
  cases n with
  | file k p => exact absurd rfl (hn k p)
  | line l => exact hlog.say l
  | settings k merged =>
    cases k with
    | rules => exact preserves_pure ()
    | settings => exact preserves_settingsChanged _

theorem preserves_heeds [Stack] {notices : List (Notice Hook)} (h : Config.Quiet notices) :
    Preserves (Keeps config r item rules) (notices.forM heed) := by
  induction notices with
  | nil => exact preserves_pure _
  | cons n notices ih =>
    refine (preserves_heed fun k p hn => h k p (hn ▸ List.mem_cons_self)).bind fun _ => ih fun k p hmem => ?_
    exact h k p (List.mem_cons_of_mem n hmem)

/-- What a pass ends with. -/
def endOfPass (pass : Config.Pass Hook) : Act (List Place) :=
  match pass.failure with
  | some f => throw (.fault f [])
  | none => return pass.changed

theorem perform_poll [Yaml.Loader] [Stack] (s : Session) :
    (s.perform poll).1 =
      (((s.config.poll s.tree).notices.forM heed >>= fun _ => endOfPass (s.config.poll s.tree)).run.run
        { s with config := (s.config.poll s.tree).config }).2 :=
  rfl

theorem preserves_endOfPass {I : Session → Prop} (pass : Config.Pass Hook) : Preserves I (endOfPass pass) := by
  unfold endOfPass
  split
  · exact preserves_throw _
  · exact preserves_pure _

end Act

namespace Session

variable {s : Session} {r : Place} {entries : List RuleEntry}

/-- After a pass the session has the rules of the rules file if that is later than it was known to be
    and can be loaded, and otherwise those that were in use. -/
theorem rules_poll [Yaml.Loader] [Stack] {others : List (Place × Option Hook)} (hwatched : s.config.watched = (r, some .rules) :: others)
    (hothers : ∀ e ∈ others, e.1 ≠ r ∧ e.2 = none) (hnames : ∀ n ∈ r, IsName n) (hapart : s.Apart r)
    (hrules : s.rules = some entries) :
    (s.perform Act.poll).1.Keeps (s.config.poll s.tree).config r (s.tree.stat r)
      (some (match s.config.newerTime? s.tree r with
        | .ok (some _) => Act.rulesOf (RulesFile.load s.tree (Place.path r)).result entries
        | _ => entries)) := by
  have hstart : Keeps (s.config.poll s.tree).config r (s.tree.stat r) (some entries)
      { s with config := (s.config.poll s.tree).config } := ⟨⟨rfl, hapart, rfl⟩, hrules⟩
  rw [Act.perform_poll]
  refine Act.holds_bind ?_ fun _ => Act.preserves_endOfPass _
  obtain ⟨-, notices, hquiet, htold⟩ := Config.poll_tells hwatched hothers s.tree
  cases hnewer : s.config.newerTime? s.tree r with
  | error f =>
    rw [hnewer] at htold
    rw [htold.1]
    exact Act.preserves_heeds hquiet _ hstart
  | ok newer =>
    cases newer with
    | none =>
      rw [hnewer] at htold
      rw [htold.1]
      exact Act.preserves_heeds hquiet _ hstart
    | some time =>
      rw [hnewer] at htold
      rw [htold.1]
      -- The rules file comes first.
      refine Act.holds_bind ?_ fun _ => Act.preserves_heeds hquiet
      refine Act.holds_tryCatch ?_ fun _ => (unlogged_keeps _ _ _ _).say _
      have hchanged := Act.rules_rulesChanged hstart (Place.text r)
      rw [ofText_text hnames] at hchanged
      exact hchanged

end Session

end NoteAccess
