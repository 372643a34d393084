/-
  NoteAccess.Proofs.Session.Startup

  What is there when the components of a session have been made, and when it has begun to
  watch.  The session has then the rules that its rules file gave (`prepare_does`), and
  the rules file is the first of the files that it looks after (`watch_does`).
-/

import NoteAccess.Proofs.Session.Rules

namespace NoteAccess

namespace Act

open Session

variable {s s' : Session} {r : Place}

/-! ## Components -/

theorem log_does {severity : Severity} {message : Text} {context : LogLine.Context} :
    (log severity message context).Does s () s' ↔ s' = s.withEvent (.line (.ofContext severity message context)) := by
  constructor
  · intro h
    cases h
    rfl
  · rintro rfl
    rfl

theorem settings_does [Stack] {v : Value} (h : settings.Does s v s') : s' = s := by
  unfold settings at h
  rw [bind_does] at h
  obtain ⟨_, _, hget, h⟩ := h
  obtain ⟨rfl, rfl⟩ := get_does.mp hget
  exact (ofExcept_does.mp h).2

theorem setting_does [Stack] {key : Text} {v : Value} (h : (setting key).Does s v s') : s' = s := by
  unfold setting at h
  rw [bind_does] at h
  obtain ⟨_, _, hsettings, h⟩ := h
  obtain rfl := settings_does hsettings
  split at h
  · exact (pure_does.mp h).2
  · exact absurd h throw_does

theorem settingPath_does {v : Value} {path : Text} (h : (settingPath v).Does s path s') : s' = s := by
  cases v with
  | text t => exact (pure_does.mp h).2
  | _ => exact absurd h throw_does

theorem openVault_does [Stack] {vault : Vault} (h : openVault.Does s vault s') : s' = { s with vault := some vault } := by
  unfold openVault at h
  rw [bind_does] at h
  obtain ⟨v, _, hsetting, h⟩ := h
  obtain rfl := setting_does hsetting
  rw [bind_does] at h
  obtain ⟨path, _, hpath, h⟩ := h
  obtain rfl := settingPath_does hpath
  rw [bind_does] at h
  obtain ⟨_, _, hget, h⟩ := h
  obtain ⟨rfl, rfl⟩ := get_does.mp hget
  rw [bind_does] at h
  obtain ⟨root, _, hroot, h⟩ := h
  obtain ⟨-, rfl⟩ := ofExcept_does.mp hroot
  rw [bind_does] at h
  obtain ⟨_, _, hset, h⟩ := h
  cases hset
  obtain ⟨rfl, rfl⟩ := pure_does.mp h
  rfl

theorem chooseRules_does [Stack] {vault : Vault} {file : FilePath} (h : (chooseRules vault).Does s file s') :
    s' = { s with rulesPath := some file } := by
  unfold chooseRules at h
  rw [bind_does] at h
  obtain ⟨v, _, hsetting, h⟩ := h
  obtain rfl := setting_does hsetting
  rw [bind_does] at h
  obtain ⟨path, _, hpath, h⟩ := h
  obtain rfl := settingPath_does hpath
  rw [bind_does] at h
  obtain ⟨_, _, hget, h⟩ := h
  obtain ⟨rfl, rfl⟩ := get_does.mp hget
  rw [bind_does] at h
  obtain ⟨p, _, hp, h⟩ := h
  obtain ⟨-, rfl⟩ := ofExcept_does.mp hp
  rw [bind_does] at h
  obtain ⟨_, _, hset, h⟩ := h
  cases hset
  obtain ⟨rfl, rfl⟩ := pure_does.mp h
  rfl

theorem openEngine_does [Stack] (h : openEngine.Does s () s') : ∃ e, s' = { s with engine := some e } := by
  unfold openEngine at h
  rw [bind_does] at h
  obtain ⟨_, _, hsettings, h⟩ := h
  obtain rfl := settings_does hsettings
  rw [bind_does] at h
  obtain ⟨snapshot, _, hsnapshot, h⟩ := h
  obtain ⟨-, rfl⟩ := ofExcept_does.mp hsnapshot
  rw [bind_does] at h
  obtain ⟨v, _, hsetting, h⟩ := h
  obtain rfl := setting_does hsetting
  rw [bind_does] at h
  obtain ⟨concurrency, _, hconcurrency, h⟩ := h
  obtain ⟨-, rfl⟩ := ofExcept_does.mp hconcurrency
  cases h
  exact ⟨_, rfl⟩

/-- A session is what another one was when it was started, apart from components and the log, which a
    path does not lead to. -/
structure Started (s : Session) (r : Place) (x : Session) : Prop where
  world_eq : x.world = s.world
  arguments_eq : x.arguments = s.arguments
  still : s.Apart r → x.Still s.config r (s.tree.stat r)
  config_eq : x.config = s.config

theorem Started.refl (s : Session) (r : Place) : Started s r s := ⟨rfl, rfl, fun h => ⟨rfl, h, rfl⟩, rfl⟩

/-- Components are no matter. -/
theorem Started.withComponents {x : Session} (h : Started s r x) (vault : Option Vault) (rulesPath : Option FilePath)
    (engine : Option Engine) : Started s r { x with vault, rulesPath, engine } :=
  ⟨h.world_eq, h.arguments_eq, fun ha => ⟨h.config_eq, (h.still ha).apart, (h.still ha).stat_eq⟩, h.config_eq⟩

theorem unlogged_started (s : Session) (r : Place) (rulesPath : Option FilePath) :
    Unlogged fun x => Started s r x ∧ x.rulesPath = rulesPath :=
  unlogged_of_withLine
    (fun _ l h => ⟨⟨h.1.world_eq, h.1.arguments_eq, fun ha => (h.1.still ha).withLine l, h.1.config_eq⟩, h.2⟩)
    fun _ _ h => ⟨⟨h.1.world_eq, h.1.arguments_eq,
      fun ha => ⟨h.1.config_eq, (h.1.still ha).apart, (h.1.still ha).stat_eq⟩, h.1.config_eq⟩, h.2⟩

theorem preserves_reloadRules (s : Session) (r : Place) (rulesPath : Option FilePath) (file : FilePath) :
    Preserves (fun x => Started s r x ∧ x.rulesPath = rulesPath) (reloadRules file) := by
  have hlog := unlogged_started s r rulesPath
  refine preserves_get.bind fun x => (preserves_need _ _).bind fun e => (hlog.absorb _ _).bind fun reloaded => ?_
  refine (preserves_modify fun x h => ?_).bind fun _ => preserves_forM (fun w => hlog.log _ _ _) _
  exact ⟨h.1.withComponents x.vault x.rulesPath (some reloaded.1), h.2⟩

/-- When the components of a session have been made it has a rules file, and the rules of that file. -/
theorem prepare_does [Stack] (h : prepare.Does s () s') (hjob : ∀ force, s.arguments.job ≠ .init force) :
    ∃ file entries, Started s file.segments s' ∧ s'.rulesPath = some file ∧
      (s.Apart file.segments → s'.rules = some (rulesOf (RulesFile.load s.tree file).result entries)) := by
  unfold prepare at h
  rw [bind_does] at h
  obtain ⟨_, s₁, hlog₁, h⟩ := h
  rw [bind_does] at h
  obtain ⟨_, s₂, hlog₂, h⟩ := h
  rw [bind_does] at h
  obtain ⟨vault, s₃, hvault, h⟩ := h
  rw [bind_does] at h
  obtain ⟨file, s₄, hfile, h⟩ := h
  rw [bind_does] at h
  obtain ⟨_, s₅, hlog₅, h⟩ := h
  rw [bind_does] at h
  obtain ⟨_, x₆, hengine, h⟩ := h
  rw [bind_does] at h
  obtain ⟨_, s₆, hget, h⟩ := h
  obtain ⟨rfl, rfl⟩ := get_does.mp hget
  -- Up to here only components have been made.
  have hlog := unlogged_started s file.segments
  have h₂ := (hlog s.rulesPath).log _ _ _ |>.does hlog₂ ((hlog s.rulesPath).log _ _ _ |>.does hlog₁ ⟨.refl s _, rfl⟩)
  have h₄ : Started s file.segments s₄ ∧ s₄.rulesPath = some file := by
    rw [chooseRules_does hfile, openVault_does hvault]
    exact ⟨h₂.1.withComponents (some vault) (some file) s₂.engine, rfl⟩
  have h₅ := (hlog (some file)).log _ _ _ |>.does hlog₅ h₄
  obtain ⟨e, he⟩ := openEngine_does hengine
  have h₆ : Started s file.segments s₆ ∧ s₆.rulesPath = some file := by
    rw [he]
    exact ⟨h₅.1.withComponents s₅.vault s₅.rulesPath (some e), h₅.2⟩
  have hrules₆ : s₆.rules = some e.snapshot.entries := by
    rw [he]
    rfl
  -- Every job but one reads the rules file.
  have hreload : ∃ s₇, (reloadRules file).Does s₆ () s₇ ∧ (do
      let count := ((← get).engine.map fun (e : Engine) => e.snapshot.rules.size).getD 0
      log .info "All components initialized successfully"
        [("vault", Place.text vault.root), ("rules", Text.ofNat count)] : Act Unit).Does s₇ () s' := by
    cases hwork : s₆.arguments.job with
    | init force => exact absurd (h₆.1.arguments_eq ▸ hwork) (hjob force)
    | _ =>
      rw [hwork] at h
      obtain ⟨_, s₇, hreload, hend⟩ := bind_does.mp h
      exact ⟨s₇, hreload, hend⟩
  obtain ⟨s₇, hreload, hend⟩ := hreload
  have h₇ := (preserves_reloadRules s file.segments (some file) file).does hreload h₆
  have hdone : ∀ {I : Session → Prop}, Unlogged I → I s₇ → I s' := fun hI hs =>
    (preserves_get.bind fun _ => hI.log _ _ _).does hend hs
  obtain ⟨hstarted, hpath⟩ := hdone (hlog (some file)) h₇
  refine ⟨file, e.snapshot.entries, hstarted, hpath, fun ha => ?_⟩
  have hstill := h₆.1.still ha
  have hread := rules_reloadRules ⟨hstill, hrules₆⟩ file
  rw [RulesFile.load_congr file hstill.stat_eq, hreload] at hread
  exact (hdone (unlogged_keeps _ _ _ _) hread).2

/-! ## Beginning to watch -/

theorem watchFile_does {path : Text} {hook : Option Hook} (h : (watchFile path hook).Does s () s') :
    ∃ p, s.world.resolve s.tree path = .ok p ∧ s' = { s with config := (s.config.watch s.tree p hook).1 } := by
  unfold watchFile at h
  rw [bind_does] at h
  obtain ⟨_, _, hget, h⟩ := h
  obtain ⟨rfl, rfl⟩ := get_does.mp hget
  rw [bind_does] at h
  obtain ⟨p, _, hplace, h⟩ := h
  obtain ⟨hp, rfl⟩ := ofExcept_does.mp hplace
  refine ⟨p, hp, ?_⟩
  dsimp only at h
  rw [bind_does] at h
  obtain ⟨_, _, hset, h⟩ := h
  cases hset
  exact (ofExcept_does.mp h).2

/-- The configuration file, if there is one, is looked after as well. -/
theorem watchConfig_does {config : Option Text}
    (h : (config.forM fun path => watchFile path none : Act Unit).Does s () s')
    (hnew : s.config.watched = [(r, some .rules)])
    (hother : ∀ path, config = some path → s.world.resolve s.tree path ≠ .ok r) :
    ∃ config others, s' = { s with config } ∧ config.watched = (r, some .rules) :: others ∧
      ∀ e ∈ others, e.1 ≠ r ∧ e.2 = none := by
  cases config with
  | none =>
    cases h
    exact ⟨s.config, [], rfl, hnew, fun _ he => absurd he List.not_mem_nil⟩
  | some path =>
    obtain ⟨p, hp, hs'⟩ := watchFile_does h
    have hne : p ≠ r := fun hpr => hother path rfl (hpr ▸ hp)
    refine ⟨_, [(p, none)], hs', ?_, List.forall_mem_singleton.mpr ⟨hne, rfl⟩⟩
    rw [Config.watched_watch, hnew, Config.assign, List.lookup_cons, beq_eq_false_iff_ne.mpr hne]
    rfl

/-- When a session has begun to watch, the rules file is the first of the files that it looks after. -/
theorem watch_does {interval : Value} {code : ExitCode} {file : FilePath} (h : (watch interval).Does s code s')
    (hpath : s.rulesPath = some file) (hr : s.world.resolve s.tree file.text = .ok r) (hnew : s.config.watched = [])
    (hother : ∀ path, s.arguments.config = some path → s.world.resolve s.tree path ≠ .ok r) (hapart : s.Apart r) :
    ∃ config others, config.watched = (r, some .rules) :: others ∧ (∀ e ∈ others, e.1 ≠ r ∧ e.2 = none) ∧
      s'.Keeps config r (s.tree.stat r) s.rules := by
  unfold watch at h
  rw [bind_does] at h
  obtain ⟨file', x, hfile, h⟩ := h
  obtain ⟨hfile, hx⟩ := rulesFile_does.mp hfile
  rw [hx] at h
  obtain rfl : file = file' := Option.some.inj (hpath.symm.trans hfile)
  rw [bind_does] at h
  obtain ⟨_, s₁, hrules, h⟩ := h
  obtain ⟨p, hp, rfl⟩ := watchFile_does hrules
  obtain rfl : r = p := Except.ok.inj (hr.symm.trans hp)
  rw [bind_does] at h
  obtain ⟨_, _, hget, h⟩ := h
  obtain ⟨rfl, rfl⟩ := get_does.mp hget
  rw [bind_does] at h
  obtain ⟨_, s₂, hconfig, h⟩ := h
  obtain ⟨config, others, rfl, hwatched, hothers⟩ := watchConfig_does hconfig
    (by rw [Config.watched_watch, hnew]; rfl) hother
  rw [bind_does] at h
  obtain ⟨_, s₃, hmodify, h⟩ := h
  cases hmodify
  -- From here on there is only logging.
  have hlog := unlogged_keeps (config.addWatcher .settings) r (s.tree.stat r) s.rules
  refine ⟨config.addWatcher .settings, others, hwatched, hothers, ?_⟩
  exact ((hlog.log _ _ _).bind fun _ => (hlog.log _ _ _).bind fun _ => preserves_pure _).does h
    ⟨⟨rfl, hapart, rfl⟩, rfl⟩

end Act

end NoteAccess
