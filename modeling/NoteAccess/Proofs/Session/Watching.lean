/-
  NoteAccess.Proofs.Session.Watching

  A session that watches its rules file while it is written anew, each time later than
  before, removed, and made again.  A pass finds every change after the session has begun
  to watch: what it uses then are the rules of the file, as long as they can be loaded
  (`Following.pass`).  What changes between the start and the watching it does not find
  (`rules_of_watch`): the rules are loaded at the start, and the time of the file is noted
  when the watching begins.
-/

import Mathlib.Logic.Relation
import NoteAccess.Proofs.Rule.Listing
import NoteAccess.Proofs.Session.Startup
import NoteAccess.Yaml.Document

namespace NoteAccess.Session

open RulesFile

variable {s s' prepared begun now : Session} {t : FileTree} {file : FilePath} {r : Place}
  {start : Except Fault FileItem} {initial : List RuleEntry} {last last' : Int}

/-- What is loaded is a file. -/
theorem stat_of_load {t : FileTree} {l : Listing} (h : (load t (Place.path r)).result = .ok (some l)) :
    ∃ content time, t.stat r = .ok (.file content time) := by
  obtain ⟨text, htext, -⟩ := load_eq_ok_some.mp h
  have hsegments : (Place.path r).segments = r := rfl
  unfold readText at htext
  rw [hsegments] at htext
  cases hthere : t.exists? r with
  | error f => rw [hthere] at htext; cases htext
  | ok there =>
    rw [hthere] at htext
    cases there with
    | false => cases htext
    | true =>
      cases hread : t.read r with
      | error f => rw [hread] at htext; cases htext
      | ok content =>
        obtain ⟨p, time, hlocate⟩ := FileTree.locate_of_read hread
        refine ⟨content, time, ?_⟩
        rw [FileTree.stat, hlocate]
        rfl

/-! ## What happens while a session watches -/

/-- One thing that happens while a session watches the rules file at a place; the times are the latest ones
    that the file has had. -/
inductive Step [Yaml.Loader] [Stack] (r : Place) : Session × Int → Session × Int → Prop
  /-- The file is written anew, later than before. -/
  | rewrite (s : Session) {tree : FileTree} {content : FileContent} {last time : Int}
      (hfile : tree.stat r = .ok (.file content time)) (hlater : last < time)
      (hapart : Apart { s with tree } r) : Step r (s, last) ({ s with tree }, time)
  /-- The file is removed. -/
  | removal (s : Session) {tree : FileTree} {last : Int} (hgone : ∀ i, tree.stat r ≠ .ok i)
      (hapart : Apart { s with tree } r) : Step r (s, last) ({ s with tree }, last)
  /-- Other files change. -/
  | elsewhere (s : Session) {tree : FileTree} {last : Int} (hsame : tree.stat r = s.tree.stat r)
      (hapart : Apart { s with tree } r) : Step r (s, last) ({ s with tree }, last)
  /-- The session looks after its files. -/
  | pass (s : Session) (last : Int) : Step r (s, last) ((s.perform Act.poll).1, last)

/-- The rules in use are those of the file, if it can be loaded. -/
def UpToDate (s : Session) (r : Place) : Prop :=
  ∀ l, (load s.tree (Place.path r)).result = .ok (some l) → s.rules = some l.entries

theorem UpToDate.of_stat (h : s.UpToDate r) (hstat : s'.tree.stat r = s.tree.stat r) (hrules : s'.rules = s.rules) :
    s'.UpToDate r := by
  intro l hl
  rw [load_congr (Place.path r) hstat] at hl
  exact hrules.trans (h l hl)

/-- The session watches the rules file and uses its rules, unless there is a change that a pass will
    find, or the file is what it was when watching began. -/
structure Following (r : Place) (start : Except Fault FileItem) (initial : List RuleEntry) (s : Session) (last : Int) :
    Prop where
  watched : ∃ others, s.config.watched = (r, some .rules) :: others ∧ ∀ e ∈ others, e.1 ≠ r ∧ e.2 = none
  apart : s.Apart r
  running : ∃ entries, s.rules = some entries
  known_le : s.config.known r ≤ last
  file : ∀ i, s.tree.stat r = .ok i → ∃ content time, i = .file content time ∧ time ≤ last
  current : ∀ content time, s.tree.stat r = .ok (.file content time) → time ≤ s.config.known r →
    s.UpToDate r ∨ (s.tree.stat r = start ∧ s.rules = some initial)

/-- After a pass the file is known as it is. -/
def Seen (r : Place) (s : Session) : Prop :=
  ∀ content time, s.tree.stat r = .ok (.file content time) → time ≤ s.config.known r

/-- What a pass does to a session that follows the rules file. -/
theorem Following.pass [Yaml.Loader] [Stack] (h : s.Following r start initial last) (hnames : ∀ n ∈ r, IsName n) :
    (s.perform Act.poll).1.Following r start initial last ∧ (s.perform Act.poll).1.Seen r := by
  obtain ⟨others, hwatched, hothers⟩ := h.watched
  obtain ⟨entries, hrules⟩ := h.running
  obtain ⟨hsame, notices, -, htold⟩ := Config.poll_tells hwatched hothers s.tree
  obtain ⟨⟨hconfig, hapart, hstat⟩, hafter⟩ := rules_poll hwatched hothers hnames h.apart hrules
  generalize (s.perform Act.poll).1 = s' at hconfig hapart hstat hafter ⊢
  rw [← hconfig] at hsame htold
  have hload : load s'.tree (Place.path r) = load s.tree (Place.path r) := load_congr (Place.path r) hstat
  have hwatched' : ∃ others, s'.config.watched = (r, some .rules) :: others ∧ ∀ e ∈ others, e.1 ≠ r ∧ e.2 = none :=
    ⟨others, hsame.trans hwatched, hothers⟩
  cases hitem : s.tree.stat r with
  | error f =>
    -- Nothing is there to be known.
    have hgone : ∀ i, s'.tree.stat r ≠ .ok i := fun i hi => nomatch hitem.symm.trans (hstat.symm.trans hi)
    have hknown : s'.config.known r = s.config.known r := by
      cases hnewer : s.config.newerTime? s.tree r with
      | error _ =>
        rw [hnewer] at htold
        exact htold.2.of_error hitem
      | ok newer =>
        cases newer with
        | none =>
          rw [hnewer] at htold
          exact htold.2.of_error hitem
        | some time => exact absurd hnewer (Config.newerTime?_of_error hitem s.config time)
    exact ⟨⟨hwatched', hapart, ⟨_, hafter⟩, hknown ▸ h.known_le, fun i hi => absurd hi (hgone i),
      fun _ _ hi _ => absurd hi (hgone _)⟩, fun _ _ hi => absurd hi (hgone _)⟩
  | ok i =>
    obtain ⟨content, time, rfl, htime⟩ := h.file i hitem
    have hfile : ∀ i, s'.tree.stat r = .ok i → ∃ content time, i = .file content time ∧ time ≤ last := by
      intro i hi
      exact h.file i (hstat.symm.trans hi)
    have hthere : ∀ content' time', s'.tree.stat r = .ok (.file content' time') → time' = time := by
      intro content' time' hi
      cases hitem.symm.trans (hstat.symm.trans hi)
      rfl
    by_cases hlater : time ≤ s.config.known r
    · rw [Config.newerTime?_of_file hitem, if_pos hlater] at htold hafter
      have hknown : time ≤ s'.config.known r ∧ s'.config.known r ≤ last := by
        rcases htold.2.of_file hitem with heq | heq
        · rw [heq]
          exact ⟨hlater, h.known_le⟩
        · rw [heq]
          exact ⟨Int.le_refl _, htime⟩
      refine ⟨⟨hwatched', hapart, ⟨_, hafter⟩, hknown.2, hfile, fun _ _ _ _ => ?_⟩,
        fun _ _ hi => hthere _ _ hi ▸ hknown.1⟩
      rcases h.current content time hitem hlater with hcurrent | ⟨hstart, hinitial⟩
      · exact .inl (hcurrent.of_stat hstat (hafter.trans hrules.symm))
      · exact .inr ⟨hstat.trans hstart, hafter.trans (hrules.symm.trans hinitial)⟩
    · -- The session is told of the file and reads it.
      rw [Config.newerTime?_of_file hitem, if_neg hlater] at htold hafter
      have hknown : s'.config.known r = time := by
        rcases htold.2.of_file hitem with heq | heq
        · rw [heq, Config.known_noteTime, if_pos rfl]
        · exact heq
      refine ⟨⟨hwatched', hapart, ⟨_, hafter⟩, hknown ▸ htime, hfile, fun _ _ _ _ => .inl fun l hl => ?_⟩,
        fun _ _ hi => hthere _ _ hi ▸ Int.le_of_eq hknown.symm⟩
      rw [hload] at hl
      rw [hafter]
      dsimp only
      rw [hl]
      rfl

/-- Whatever happens, the session goes on to follow the rules file. -/
theorem Following.step [Yaml.Loader] [Stack] (h : s.Following r start initial last) (hnames : ∀ n ∈ r, IsName n)
    (hstep : Step r (s, last) (s', last')) : s'.Following r start initial last' := by
  obtain ⟨others, hwatched, hothers⟩ := h.watched
  cases hstep with
  | rewrite _ hfile hlater hapart =>
    refine ⟨h.watched, hapart, h.running, Int.le_of_lt (Int.lt_of_le_of_lt h.known_le hlater), ?_, ?_⟩
    · intro i hi
      cases hfile.symm.trans hi
      exact ⟨_, _, rfl, Int.le_refl _⟩
    · -- The file is later than it is known to be.
      intro content time hitem htime
      cases hfile.symm.trans hitem
      exact absurd (Int.lt_of_le_of_lt (Int.le_trans htime h.known_le) hlater) (Int.lt_irrefl _)
  | removal _ hgone hapart =>
    exact ⟨h.watched, hapart, h.running, h.known_le, fun i hi => absurd hi (hgone i),
      fun _ _ hitem _ => absurd hitem (hgone _)⟩
  | elsewhere _ hsame hapart =>
    refine ⟨h.watched, hapart, h.running, h.known_le, fun i hi => h.file i (hsame.symm.trans hi), ?_⟩
    intro content time hitem htime
    rcases h.current content time (hsame.symm.trans hitem) htime with hcurrent | ⟨hstart, hinitial⟩
    · exact .inl (hcurrent.of_stat hsame rfl)
    · exact .inr ⟨hsame.trans hstart, hinitial⟩
  | pass => exact (h.pass hnames).1

/-- A session that follows the rules file does so at the end of a run. -/
theorem Following.run [Yaml.Loader] [Stack] (h : s.Following r start initial last) (hnames : ∀ n ∈ r, IsName n)
    (hruns : Relation.ReflTransGen (Step r) (s, last) (s', last')) : s'.Following r start initial last' := by
  -- By induction on what happens: each step keeps what holds before it.
  generalize hend : (s', last') = now at hruns
  induction hruns generalizing s' last' with
  | refl =>
    cases hend
    exact h
  | @tail before now _ hstep ih =>
    obtain ⟨before, lastBefore⟩ := before
    cases hend
    exact (ih rfl).step hnames hstep

/-! ## Sessions that watch -/

/-- The latest of the times that a file has and is known to have. -/
def latest (s : Session) (r : Place) : Int :=
  match s.tree.stat r with
  | .ok (.file _ time) => max (s.config.known r) time
  | _ => s.config.known r

theorem known_le_latest (s : Session) (r : Place) : s.config.known r ≤ s.latest r := by
  unfold latest
  split
  · exact Int.le_max_left _ _
  · exact Int.le_refl _

theorem time_le_latest {content : FileContent} {time : Int} (h : s.tree.stat r = .ok (.file content time)) :
    time ≤ s.latest r := by
  unfold latest
  rw [h]
  exact Int.le_max_right _ _

/-- A session makes its components, and then begins to watch its rules file, which is at a place. In between
    the files may change. -/
structure Begins [Yaml.Loader] [Stack] (s prepared : Session) (t : FileTree) (file : FilePath) (r : Place)
    (begun : Session) : Prop where
  /-- It is to watch, and has not begun to. -/
  job : ∃ interval, s.arguments.job = .watch interval
  unwatched : s.config.watched = []
  prepares : Act.prepare.Does s () prepared
  begins : ∃ code, (Act.carryOut s.arguments.job).Does { prepared with tree := t } code begun
  /-- The rules file is where its path leads to, and it is a file if it is there. -/
  rulesPath : prepared.rulesPath = some file
  leads : s.world.resolve t file.text = .ok r
  folder : ∀ n ∈ s.world.folder, IsName n
  isFile : ∀ i, t.stat r = .ok i → ∃ content time, i = .file content time
  /-- It is not the configuration file. -/
  config : ∀ path, s.arguments.config = some path → s.world.resolve t path ≠ .ok r
  /-- It is not the log. -/
  apart : s.Apart file.segments
  apartThen : Apart { prepared with tree := t } r

/-- When watching has begun, the session follows the rules file with the rules of the start. -/
theorem Begins.following [Yaml.Loader] [Stack] (h : Begins s prepared t file r begun) :
    ∃ entries, prepared.rules = some (Act.rulesOf (load s.tree file).result entries) ∧
      begun.Following r (t.stat r) (Act.rulesOf (load s.tree file).result entries) (begun.latest r) := by
  obtain ⟨interval, hjob⟩ := h.job
  obtain ⟨file', entries, hstarted, hpath, hrules⟩ := Act.prepare_does h.prepares (by rw [hjob]; exact nofun)
  obtain rfl : file = file' := Option.some.inj (h.rulesPath.symm.trans hpath)
  have hprepared := hrules h.apart
  -- The watching begins with the rules of the start, whatever the file is by now.
  obtain ⟨code, hbegins⟩ := h.begins
  rw [hjob] at hbegins
  obtain ⟨config, others, hwatched, hothers, ⟨hconfig, hapart, hstat⟩, hsame⟩ := Act.watch_does hbegins h.rulesPath
    (by rw [hstarted.world_eq]; exact h.leads) (by rw [hstarted.config_eq]; exact h.unwatched)
    (by rw [hstarted.arguments_eq, hstarted.world_eq]; exact h.config) h.apartThen
  have hrulesThen : begun.rules = some (Act.rulesOf (load s.tree file).result entries) := hsame.trans hprepared
  refine ⟨entries, hprepared, ⟨others, hconfig ▸ hwatched, hothers⟩, hapart, ⟨_, hrulesThen⟩,
    begun.known_le_latest r, ?_, fun _ _ _ _ => .inr ⟨hstat, hrulesThen⟩⟩
  intro i hi
  obtain ⟨content, time, rfl⟩ := h.isFile i (hstat.symm.trans hi)
  exact ⟨content, time, rfl, time_le_latest hi⟩

/-! ## Changes while a session watches -/

/-- After every pass of a session that has begun to watch, as long as the rules file can be loaded the rules
    in use are those that it has now, or else it has not changed since watching began and the rules in
    use are those of the start.  So nothing is lost if the file gives what it gave at the start when
    watching begins. -/
theorem rules_of_watch [Yaml.Loader] [Stack] (h : Begins s prepared t file r begun)
    (hruns : Relation.ReflTransGen (Step r) (begun, begun.latest r) (now, last)) {l : Listing}
    (hload : (load (now.perform Act.poll).1.tree (Place.path r)).result = .ok (some l)) :
    ((now.perform Act.poll).1.rules = some l.entries ∨
        ((now.perform Act.poll).1.tree.stat r = t.stat r ∧ (now.perform Act.poll).1.rules = prepared.rules)) ∧
      ((load t (Place.path r)).result = (load s.tree file).result →
        (now.perform Act.poll).1.rules = some l.entries) := by
  have hnames : ∀ n ∈ r, IsName n := Surroundings.isName_of_resolve h.folder h.leads
  obtain ⟨entries, hprepared, hbegun⟩ := h.following
  obtain ⟨hafter, hseen⟩ := (hbegun.run hnames hruns).pass hnames
  generalize (now.perform Act.poll).1 = after at hload hafter hseen ⊢
  obtain ⟨content, time, hfile⟩ := stat_of_load hload
  -- The pass has seen the file as it is, so the rules in use are up to date, or still those of the start.
  have hcurrent : after.rules = some l.entries ∨ (after.tree.stat r = t.stat r ∧ after.rules = prepared.rules) := by
    rcases hafter.current content time hfile (hseen content time hfile) with hcurrent | ⟨hsame, hinitial⟩
    · exact .inl (hcurrent l hload)
    · exact .inr ⟨hsame, hinitial.trans hprepared.symm⟩
  refine ⟨hcurrent, fun hstart => hcurrent.elim id ?_⟩
  rintro ⟨hsame, hinitial⟩
  have hgave : (load s.tree file).result = .ok (some l) := by
    rw [← hstart, ← load_congr (Place.path r) hsame]
    exact hload
  rw [hinitial, hprepared, hgave]
  rfl

/-! ## A rules file with one rule -/

attribute [local instance] Stack.usual Yaml.Loader.own

/-- The place of a rules file in the root folder. -/
def rulesPlace : Place := ["access-rules.conf"]

/-- A rules file with a text. -/
def rulesTree (text : Text) (time : Int) : FileTree where
  items := [(rulesPlace, .file (.bytes ((Utf8.encode? text).getD [])) time)]

/-- A session that is to watch a rules file with one rule. -/
def watchSession : Session where
  world := { folder := [], home := "/" }
  arguments := { job := .watch (.int 1) }
  config := .initial
  tree := rulesTree "allow folder A" 1
  journal := ⟨.ofSeverity .error, []⟩
  layout := ⟨none⟩

/-- The session with its vault and its rules file. -/
def placedSession : Session :=
  { watchSession with vault := some { root := [] }, rulesPath := some rulesPlace.path }

/-- The session with its components, which has begun to watch a rules file with a time; the files may have
    changed since then. -/
def watchingSession (e : Engine) (known : Int) (tree : FileTree) : Session :=
  { placedSession with
    engine := some e
    tree
    config := { (Config.initial : Config Hook) with
      watched := [(rulesPlace, some .rules)]
      times := [(rulesPlace, known)]
      watchers := [.settings] } }

theorem openVault_watchSession :
    Act.openVault.Does watchSession { root := [] } { watchSession with vault := some { root := [] } } := by
  have hroot : watchSession.world.resolve watchSession.tree "." = .ok [] :=
    FileTree.resolve_of_meaningFrom (FileTree.straight_nil _).meaningFrom_eq rfl
  refine Act.bind_does.mpr ⟨_, _, rfl, Act.bind_does.mpr ⟨_, _, rfl, Act.bind_does.mpr ⟨_, _, rfl, ?_⟩⟩⟩
  exact Act.bind_does.mpr ⟨[], _, Act.ofExcept_does.mpr ⟨hroot, rfl⟩, rfl⟩

/-- At the start the rules of the file are used. -/
theorem prepare_watchSession :
    ∃ e l, (load watchSession.tree rulesPlace.path).result = .ok (some l) ∧ e.snapshot.entries = l.entries ∧
      Act.prepare.Does watchSession () { placedSession with engine := some e } := by
  have hlog : ∀ (x : Session) (severity : Severity) (message : Text) (context : LogLine.Context),
      x.withEvent (.line (.ofContext severity message context)) = x → (Act.log severity message context).Does x () x :=
    fun _ _ _ _ h => Act.log_does.mpr h.symm
  obtain ⟨e, hengine⟩ : ∃ e, Act.openEngine.Does placedSession () { placedSession with engine := some e } := ⟨_, rfl⟩
  obtain ⟨l, hl, hwarnings⟩ : ∃ l, (load placedSession.tree rulesPlace.path).result = .ok (some l) ∧
      l.warnings = [] := ⟨_, rfl, rfl⟩
  have hreload : (Act.reloadRules rulesPlace.path).Does { placedSession with engine := some e } ()
      { placedSession with engine := some (e.install l) } := by
    unfold Act.Does
    rw [Act.run_reloadRules (e := e) rfl, Engine.result_reloadFile, hl]
    dsimp only
    rw [hwarnings]
    rfl
  refine ⟨e.install l, l, hl, rfl, ?_⟩
  -- The components are made one after the other; no line is severe enough to be logged.
  unfold Act.prepare
  rw [Act.bind_does]
  refine ⟨(), watchSession, hlog _ _ _ _ rfl, ?_⟩
  rw [Act.bind_does]
  refine ⟨(), watchSession, hlog _ _ _ _ rfl, ?_⟩
  rw [Act.bind_does]
  refine ⟨_, _, openVault_watchSession, ?_⟩
  rw [Act.bind_does]
  refine ⟨rulesPlace.path, placedSession, rfl, ?_⟩
  rw [Act.bind_does]
  refine ⟨(), placedSession, hlog _ _ _ _ rfl, ?_⟩
  rw [Act.bind_does]
  refine ⟨(), _, hengine, ?_⟩
  rw [Act.bind_does]
  refine ⟨_, _, Act.get_does.mpr ⟨rfl, rfl⟩, ?_⟩
  exact Act.bind_does.mpr ⟨(), _, hreload, Act.bind_does.mpr ⟨_, _, Act.get_does.mpr ⟨rfl, rfl⟩, hlog _ _ _ _ rfl⟩⟩

theorem resolve_rulesPlace (text : Text) (time : Int) :
    watchSession.world.resolve (rulesTree text time) rulesPlace.path.text = .ok rulesPlace := by
  have hstraight : (rulesTree text time).Straight rulesPlace :=
    (FileTree.straight_nil _).concat (by decide) rfl nofun
  exact FileTree.resolve_of_meaningFrom hstraight.meaningFrom_eq rfl

theorem watch_placedSession (e : Engine) (text : Text) (time : Int) :
    (Act.watch (.int 1)).Does { placedSession with engine := some e, tree := rulesTree text time } .success
      (watchingSession e time (rulesTree text time)) := by
  have hfile : (Act.watchFile rulesPlace.path.text (some .rules)).Does
      { placedSession with engine := some e, tree := rulesTree text time } ()
      { watchingSession e time (rulesTree text time) with
        config := { (watchingSession e time (rulesTree text time)).config with watchers := [] } } := by
    refine Act.bind_does.mpr ⟨_, _, Act.get_does.mpr ⟨rfl, rfl⟩, ?_⟩
    exact Act.bind_does.mpr ⟨_, _, Act.ofExcept_does.mpr ⟨resolve_rulesPlace text time, rfl⟩, rfl⟩
  unfold Act.watch
  rw [Act.bind_does]
  refine ⟨_, _, Act.rulesFile_does.mpr ⟨rfl, rfl⟩, ?_⟩
  rw [Act.bind_does]
  exact ⟨(), _, hfile, rfl⟩

/-- Whatever the rules file is then, the session begins to watch it. -/
theorem begins_watchSession (text : Text) (time : Int) :
    ∃ e l, (load watchSession.tree rulesPlace.path).result = .ok (some l) ∧ e.snapshot.entries = l.entries ∧
      Begins watchSession { placedSession with engine := some e } (rulesTree text time) rulesPlace.path
        rulesPlace (watchingSession e time (rulesTree text time)) := by
  obtain ⟨e, l, hl, he, hprepare⟩ := prepare_watchSession
  refine ⟨e, l, hl, he, ?_⟩
  exact {
    job := ⟨_, rfl⟩
    unwatched := rfl
    prepares := hprepare
    begins := ⟨_, watch_placedSession e text time⟩
    rulesPath := rfl
    leads := resolve_rulesPlace text time
    folder := nofun
    isFile := by
      intro i hi
      cases hi
      exact ⟨_, _, rfl⟩
    config := nofun
    apart := nofun
    apartThen := nofun }

/-- A pass leaves the rules file, and the rules in use too if it finds nothing later. -/
theorem poll_watchingSession (e : Engine) (known : Int) (tree : FileTree) :
    load ((watchingSession e known tree).perform Act.poll).1.tree rulesPlace.path = load tree rulesPlace.path ∧
      ((watchingSession e known tree).config.newerTime? tree rulesPlace = .ok none →
        ((watchingSession e known tree).perform Act.poll).1.rules = some e.snapshot.entries) := by
  have hnames : ∀ n ∈ rulesPlace, IsName n :=
    Surroundings.isName_of_resolve (fun _ h => absurd h List.not_mem_nil) (resolve_rulesPlace [] 0)
  have hothers : ∀ e ∈ ([] : List (Place × Option Hook)), e.1 ≠ rulesPlace ∧ e.2 = none :=
    fun _ he => absurd he List.not_mem_nil
  have hwatched : (watchingSession e known tree).config.watched = (rulesPlace, some .rules) :: [] := rfl
  have hapart : (watchingSession e known tree).Apart rulesPlace := nofun
  have hrules : (watchingSession e known tree).rules = some e.snapshot.entries := rfl
  obtain ⟨hstill, hkept⟩ := rules_poll hwatched hothers hnames hapart hrules
  refine ⟨load_congr rulesPlace.path hstill.stat_eq, fun hnewer => hkept.trans ?_⟩
  have htree : (watchingSession e known tree).tree = tree := rfl
  rw [htree, hnewer]

/-- The rule is not the one of the start when it denies. -/
theorem load_denying :
    ∃ l', (load (rulesTree "deny folder A" 5) rulesPlace.path).result = .ok (some l') ∧
      ∀ l, (load watchSession.tree rulesPlace.path).result = .ok (some l) → l.entries ≠ l'.entries := by
  refine ⟨_, rfl, fun l hl => ?_⟩
  cases hl
  decide

/-- The rule is changed while the session watches, and the next pass finds it. -/
theorem rules_of_watch_changed :
    ∃ e l l', (load watchSession.tree rulesPlace.path).result = .ok (some l) ∧
      (load (rulesTree "deny folder A" 5) rulesPlace.path).result = .ok (some l') ∧ l.entries ≠ l'.entries ∧
      (watchingSession e 1 watchSession.tree).rules = some l.entries ∧
      ((watchingSession e 1 (rulesTree "deny folder A" 5)).perform Act.poll).1.rules = some l'.entries := by
  obtain ⟨e, l, hl, he, hbegins⟩ := begins_watchSession "allow folder A" 1
  obtain ⟨l', hl', hne⟩ := load_denying
  have hfile : (rulesTree "deny folder A" 5).stat rulesPlace =
      .ok (.file (.bytes ((Utf8.encode? "deny folder A").getD [])) 5) := rfl
  have hlatest : (watchingSession e 1 (rulesTree "allow folder A" 1)).latest rulesPlace = 1 := rfl
  have hlater : (watchingSession e 1 (rulesTree "allow folder A" 1)).latest rulesPlace < 5 := by
    rw [hlatest]
    decide
  have hrewrite : Step rulesPlace (_, _) (watchingSession e 1 (rulesTree "deny folder A" 5), 5) :=
    .rewrite (watchingSession e 1 (rulesTree "allow folder A" 1)) hfile hlater nofun
  have hload := (congrArg Run.result (poll_watchingSession e 1 (rulesTree "deny folder A" 5)).1).trans hl'
  have hsame : (load (rulesTree "allow folder A" 1) rulesPlace.path).result =
      (load watchSession.tree rulesPlace.path).result := rfl
  exact ⟨e, l, l', hl, hl', hne l hl, congrArg some he, (rules_of_watch hbegins (.single hrewrite) hload).2 hsame⟩

/-- What is written anew after the start and before watching begins is lost: a pass does not find it. -/
theorem poll_ne_of_changedBefore :
    ∃ e l l', (load watchSession.tree rulesPlace.path).result = .ok (some l) ∧
      Begins watchSession { placedSession with engine := some e } (rulesTree "deny folder A" 5) rulesPlace.path
        rulesPlace (watchingSession e 5 (rulesTree "deny folder A" 5)) ∧
      (load ((watchingSession e 5 (rulesTree "deny folder A" 5)).perform Act.poll).1.tree rulesPlace.path).result =
        .ok (some l') ∧
      ((watchingSession e 5 (rulesTree "deny folder A" 5)).perform Act.poll).1.rules = some l.entries ∧
      l.entries ≠ l'.entries := by
  obtain ⟨e, l, hl, he, hbegins⟩ := begins_watchSession "deny folder A" 5
  obtain ⟨l', hl', hne⟩ := load_denying
  obtain ⟨hsame, hrules⟩ := poll_watchingSession e 5 (rulesTree "deny folder A" 5)
  have hload := (congrArg Run.result hsame).trans hl'
  exact ⟨e, l, l', hl, hbegins, hload, (hrules rfl).trans (congrArg some he), hne l hl⟩

end NoteAccess.Session
