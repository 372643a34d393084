/-
  NoteAccess.Proofs.Session.Exit

  How a command line ends.  A session ends with an exit code whatever its command does: a
  failure of the command is reported, and what is done outside of it does not fail
  (`succeeds_outside`).  On the way to a session a failure is given an exit code only if it
  is worded (`FailsAs`).

  Each stage is told by what it reads: the places that the command line names, the
  configuration files, the settings, those of the log.  So it is known exactly which command
  lines end with an exit code (`ends_iff`).  One with a level of the log that has no name
  does not (`ending_unknownLevel`).
-/

import NoteAccess.Proofs.Config.Merging
import NoteAccess.Proofs.Config.Rereading
import NoteAccess.Proofs.Outcome
import NoteAccess.Proofs.Session
import NoteAccess.Session.Opening
import NoteAccess.Yaml.Document

namespace NoteAccess

/-! ## Places that are named -/

namespace FileTree

/-- The file system can look at a path: it is not too long. -/
def Takes (t : FileTree) (path : Place) : Prop := t.stat path ≠ .error .fileSystem

variable {t : FileTree} {path : Place}

theorem exists_leadsTo (h : t.Takes path) (p : FileItem → Bool) : ∃ b, t.leadsTo path p = .ok b := by
  unfold Takes at h
  unfold leadsTo
  cases hstat : t.stat path with
  | ok i => exact ⟨p i, rfl⟩
  | error f =>
    cases f with
    | fileSystem => exact absurd hstat h
    | _ => exact ⟨false, rfl⟩

theorem leadsTo_of_not_takes (h : ¬ t.Takes path) (p : FileItem → Bool) :
    t.leadsTo path p = .error .fileSystem := by
  rw [leadsTo, Classical.not_not.mp h]

/-- Whether something is there, and whether it is a file or a folder, can be told of such a path. -/
theorem exists_kind (h : t.Takes path) :
    (∃ b, t.exists? path = .ok b) ∧ (∃ b, t.isFile path = .ok b) ∧ ∃ b, t.isFolder path = .ok b :=
  ⟨exists_leadsTo h _, exists_leadsTo h _, exists_leadsTo h _⟩

/-- Nothing can be told of any other one. -/
theorem kind_of_not_takes (h : ¬ t.Takes path) :
    t.exists? path = .error .fileSystem ∧ t.isFile path = .error .fileSystem ∧
      t.isFolder path = .error .fileSystem :=
  ⟨leadsTo_of_not_takes h _, leadsTo_of_not_takes h _, leadsTo_of_not_takes h _⟩

end FileTree

/-- A text means a path, and the file system can look at it. -/
def Surroundings.Reaches (s : Surroundings) (t : FileTree) (path : Text) : Prop :=
  ∃ p, s.locate path = .ok p ∧ t.Takes p.segments

namespace CommandLine

/-- There are words for what is wrong with a command line. -/
def ArgumentError.IsWorded (e : ArgumentError) : Prop := ∀ f, e ≠ .fault f

namespace Arguments

variable {t : FileTree} {s : Surroundings} {path : Text}

/-- Something must be there, and be of one kind. -/
theorem checkKind_worded_iff {p : Place} {kind : Except Fault Bool} {e e' : ArgumentError} (he : e.IsWorded)
    (he' : e'.IsWorded) (hkind : t.Takes p → ∃ b, kind = .ok b) :
    FailsAs ArgumentError.IsWorded (do
      if !(← (t.exists? p).mapError .fault) then throw e
      if !(← kind.mapError .fault) then throw e') ↔ t.Takes p := by
  by_cases h : t.Takes p
  · refine iff_of_true ?_ h
    obtain ⟨⟨there, hthere⟩, -, -⟩ := FileTree.exists_kind h
    obtain ⟨isKind, hisKind⟩ := hkind h
    rw [hthere, hisKind]
    cases there with
    | false => exact failsAs_error_iff.mpr he
    | true =>
      cases isKind with
      | false => exact failsAs_error_iff.mpr he'
      | true => exact failsAs_ok ()
  · rw [(FileTree.kind_of_not_takes h).1]
    exact iff_of_false (fun hworded => hworded _ rfl _ rfl) h

/-- What is asked of the path that a text means. -/
theorem locate_worded_iff {f : FilePath → Except ArgumentError Unit}
    (hf : ∀ p, FailsAs ArgumentError.IsWorded (f p) ↔ t.Takes p.segments) :
    FailsAs ArgumentError.IsWorded ((s.locate path).mapError .fault >>= f) ↔ s.Reaches t path := by
  unfold Surroundings.Reaches
  cases s.locate path with
  | error f => exact iff_of_false (fun hworded => hworded _ rfl _ rfl) nofun
  | ok p =>
    show FailsAs _ (f p) ↔ _
    rw [hf]
    constructor
    · exact fun h => ⟨p, rfl, h⟩
    · rintro ⟨_, hp, htakes⟩
      cases hp
      exact htakes

theorem checkConfig_worded_iff :
    FailsAs ArgumentError.IsWorded (checkConfig t s path) ↔
      t.Takes (Place.path s.folder ++ FilePath.ofText path).segments :=
  checkKind_worded_iff nofun nofun fun h => (FileTree.exists_kind h).2.1

theorem checkVault_worded_iff : FailsAs ArgumentError.IsWorded (checkVault t s path) ↔ s.Reaches t path :=
  locate_worded_iff fun _ => checkKind_worded_iff nofun nofun fun h => (FileTree.exists_kind h).2.2

theorem checkRules_worded_iff : FailsAs ArgumentError.IsWorded (checkRules t s path) ↔ s.Reaches t path := by
  refine locate_worded_iff fun p => ?_
  dsimp only
  by_cases h : t.Takes p.segments
  · refine iff_of_true ?_ h
    obtain ⟨-, -, isFolder, hfolder⟩ := FileTree.exists_kind h
    rw [hfolder]
    cases isFolder with
    | false => exact failsAs_ok ()
    | true => exact failsAs_error_iff.mpr nofun
  · rw [(FileTree.kind_of_not_takes h).2.2]
    exact iff_of_false (fun hworded => hworded _ rfl _ rfl) h

theorem checkMethods_worded (methods : Text) : FailsAs ArgumentError.IsWorded (checkMethods methods) := by
  refine failsAs_forM (fun word => ?_) _
  split
  · exact failsAs_ok ()
  · exact failsAs_error_iff.mpr nofun

theorem checkJob_worded_iff {job : Job} :
    FailsAs ArgumentError.IsWorded (checkJob job) ↔ ∀ v, job = .watch v → ∃ x, v = .float x := by
  cases job with
  | watch v =>
    cases v with
    | float x =>
      refine iff_of_true ?_ fun v hv => ?_
      · show FailsAs _ (if x ≤ 0 then _ else _)
        split
        · exact failsAs_error_iff.mpr nofun
        · exact failsAs_ok ()
      · cases hv
        exact ⟨x, rfl⟩
    | _ =>
      refine iff_of_false (fun h => h _ rfl _ rfl) fun h => ?_
      obtain ⟨x, hx⟩ := h _ rfl
      cases hx
  | rules job =>
    refine iff_of_true ?_ nofun
    cases job with
    | add mode kind pattern methods disabled => exact checkMethods_worded methods
    | _ => exact failsAs_ok ()
  | _ => exact iff_of_true (failsAs_ok ()) nofun

/-- What a command line names can be looked at, as far as it is looked at: the configuration file, then
    the vault, then the rules file.  An interval is a number. -/
def Bears (a : Arguments) (t : FileTree) (s : Surroundings) : Prop :=
  (∀ path, a.config = some path → t.Takes (Place.path s.folder ++ FilePath.ofText path).segments) ∧
    (a.config.forM (checkConfig t s) = .ok () → (∀ path, a.vault = some path → s.Reaches t path) ∧
      (a.vault.forM (checkVault t s) = .ok () → (∀ path, a.rules = some path → s.Reaches t path) ∧
        (a.rules.forM (checkRules t s) = .ok () → ∀ v, a.job = .watch v → ∃ x, v = .float x)))

theorem check_worded_iff {a : Arguments} : FailsAs ArgumentError.IsWorded (a.check t s) ↔ a.Bears t s := by
  unfold check Bears
  simp only [failsAs_bind_iff, failsAs_forM_iff, checkConfig_worded_iff, checkVault_worded_iff,
    checkRules_worded_iff, checkJob_worded_iff, Unique.forall_iff]

end Arguments

end CommandLine

/-! ## Configuration files -/

/-- There are words for what is wrong with a configuration. -/
def LoadError.IsWorded (e : LoadError) : Prop := ∀ f message, e ≠ .fault f message

theorem LoadError.isWorded_ofSetting_iff {e : SettingFailure} :
    (LoadError.ofSetting e).IsWorded ↔ ∀ f, e ≠ .fault f := by
  cases e with
  | refused r => exact iff_of_true nofun nofun
  | fault f => exact iff_of_false (fun h => h _ _ rfl) fun h => h _ rfl

namespace Config

theorem check_worded_iff [Stack] {κ : Type} {c : Config κ} : FailsAs LoadError.IsWorded c.check ↔
    ∃ settings, c.settings = .ok settings ∧ ∀ f, Setting.check settings ≠ .error (.fault f) := by
  unfold check
  cases c.settings with
  | error f => exact iff_of_false (fun h => h _ rfl _ _ rfl) nofun
  | ok settings =>
    have hcheck : FailsAs LoadError.IsWorded ((Setting.check settings).mapError .ofSetting) ↔
        ∀ f, Setting.check settings ≠ .error (.fault f) := by
      rw [failsAs_mapError_iff]
      exact ⟨fun h f hf => LoadError.isWorded_ofSetting_iff.mp (h _ hf) f rfl,
        fun h e he => LoadError.isWorded_ofSetting_iff.mpr fun f hf => h f (hf ▸ he)⟩
    refine hcheck.trans ⟨fun h => ⟨settings, rfl, h⟩, ?_⟩
    rintro ⟨_, ⟨⟩, h⟩
    exact h

/-- What is accepted has settings. -/
theorem exists_settings_of_check [Stack] {κ : Type} {c : Config κ} (h : c.check = .ok ()) : ∃ settings, c.settings = .ok settings := by
  obtain ⟨settings, hsettings, -⟩ := bind_eq_ok_iff.mp h
  exact ⟨settings, mapError_eq_ok_iff.mp hsettings⟩

variable {κ : Type} [Yaml.Loader] {t : FileTree} {s : Surroundings} {path shown : Text} {p : Place} {tier : Tier}

/-- If reading YAML from a file fails, its text is malformed or the system refuses. -/
def HasValues (t : FileTree) (p : Place) : Prop :=
  ∀ content time, t.stat p = .ok (.file content time) →
    ∀ f message, Yaml.Loader.file content.toBytes = .error (.fault f message) → f.isSystem = true

theorem entriesOf_worded_iff {bytes : List UInt8} :
    FailsAs LoadError.IsWorded (entriesOf shown bytes) ↔
      ∀ f message, Yaml.Loader.file bytes = .error (.fault f message) → f.isSystem = true := by
  unfold entriesOf
  cases Yaml.Loader.file bytes with
  | error e =>
    cases e with
    | malformed => exact iff_of_true (failsAs_error_iff.mpr nofun) nofun
    | fault f message =>
      refine failsAs_error_iff.trans ⟨?_, ?_⟩
      · rintro h _ _ ⟨⟩
        by_contra hsystem
        exact h f message (if_neg hsystem)
      · intro h
        rw [if_pos (h f message rfl)]
        exact nofun
  | ok d =>
    refine iff_of_true ?_ nofun
    dsimp only [Except.map]
    cases d.value with
    | null => exact failsAs_ok []
    | dict entries => exact failsAs_ok entries
    | _ => exact failsAs_error_iff.mpr nofun

theorem hasValues_iff {content : FileContent} {time : Int} (hfile : t.stat p = .ok (.file content time)) :
    HasValues t p ↔
      ∀ f message, Yaml.Loader.file content.toBytes = .error (.fault f message) → f.isSystem = true := by
  constructor
  · exact fun h => h content time hfile
  · intro h content' time' hfile'
    cases hfile.symm.trans hfile'
    exact h

/-- What is no file has nothing in it. -/
theorem hasValues_of_not_file (h : ∀ content time, t.stat p ≠ .ok (.file content time)) : HasValues t p :=
  fun content time hfile => absurd hfile (h content time)

theorem readEntries_worded_iff :
    FailsAs LoadError.IsWorded (readEntries t p shown) ↔ t.Takes p ∧ HasValues t p := by
  by_cases htakes : t.Takes p
  · rw [and_iff_right htakes]
    cases hstat : t.stat p with
    | error f =>
      -- Nothing is there, which is worded.
      have hthere : t.exists? p = .ok false := by
        unfold FileTree.Takes at htakes
        unfold FileTree.exists? FileTree.leadsTo
        rw [hstat]
        cases f with
        | fileSystem => exact absurd hstat htakes
        | _ => rfl
      unfold readEntries
      rw [hthere]
      exact iff_of_true (failsAs_error_iff.mpr nofun) (hasValues_of_not_file (hstat ▸ nofun))
    | ok i =>
      cases i with
      | file content time => rw [readEntries_of_file hstat, entriesOf_worded_iff, hasValues_iff hstat]
      | _ =>
        unfold readEntries FileTree.exists? FileTree.leadsTo FileTree.read
        rw [hstat]
        exact iff_of_true (failsAs_error_iff.mpr nofun) (hasValues_of_not_file (hstat ▸ nofun))
  · refine iff_of_false (fun h => ?_) fun h => htakes h.1
    unfold readEntries at h
    rw [(FileTree.kind_of_not_takes htakes).1] at h
    exact h _ rfl _ _ rfl

/-- A text means a place that the file system can look at, and YAML can be read from the file there. -/
def Readable (t : FileTree) (s : Surroundings) (path : Text) : Prop :=
  ∃ p, s.resolve t path = .ok p ∧ t.Takes p ∧ HasValues t p

theorem loadFile_worded_iff {c : Config κ} :
    FailsAs LoadError.IsWorded (c.loadFile t s path tier) ↔ Readable t s path := by
  unfold loadFile Readable
  cases s.resolve t path with
  | error f => exact iff_of_false (fun h => h _ rfl _ _ rfl) nofun
  | ok p =>
    show FailsAs _ (c.loadPlace t p path tier) ↔ _
    rw [loadPlace_eq, failsAs_map_iff, readEntries_worded_iff]
    constructor
    · exact fun h => ⟨p, rfl, h⟩
    · rintro ⟨_, hp, h⟩
      cases hp
      exact h

/-- The system's file is looked for and, if it is there, can be read. -/
def SystemReadable (t : FileTree) (s : Surroundings) (system : Text) : Prop :=
  t.Takes (Place.path s.folder ++ FilePath.ofText system).segments ∧
    (t.isFile (Place.path s.folder ++ FilePath.ofText system).segments = .ok true → Readable t s system)

theorem loadSystem_worded_iff {c : Config κ} :
    FailsAs LoadError.IsWorded (c.loadSystem t s path) ↔ SystemReadable t s path := by
  unfold loadSystem SystemReadable
  dsimp only
  generalize (Place.path s.folder ++ FilePath.ofText path).segments = p
  by_cases htakes : t.Takes p
  · rw [and_iff_right htakes]
    obtain ⟨-, ⟨isFile, hfile⟩, -⟩ := FileTree.exists_kind htakes
    rw [hfile]
    cases isFile with
    | true =>
      show FailsAs _ (c.loadFile t s path .system) ↔ _
      rw [loadFile_worded_iff]
      exact ⟨fun h _ => h, fun h => h rfl⟩
    | false => exact iff_of_true (failsAs_ok c) nofun
  · rw [(FileTree.kind_of_not_takes htakes).2.1]
    exact iff_of_false (fun h => h _ rfl _ _ rfl) fun h => htakes h.1

/-- The configuration files of a command line can be read, as far as they are read: the system's file,
    then the one that is named. -/
def FilesReadable (t : FileTree) (s : Surroundings) (system : Text) (a : CommandLine.Arguments) : Prop :=
  SystemReadable t s system ∧
    ((∃ c : Config Hook, (initial.loadEnvironment s.environment).loadSystem t s system = .ok c) →
      ∀ path, a.config = some path → Readable t s path)

theorem ofFiles_worded_iff {system : Text} {a : CommandLine.Arguments} :
    FailsAs LoadError.IsWorded (ofFiles t s system a : Except LoadError (Config Hook)) ↔
      FilesReadable t s system a := by
  unfold ofFiles FilesReadable
  rw [failsAs_bind_iff, loadSystem_worded_iff]
  refine and_congr_right fun _ => ?_
  constructor
  · rintro h ⟨c, hc⟩ path hpath
    have huser := h c hc
    rw [hpath] at huser
    exact loadFile_worded_iff.mp huser
  · intro h c hc
    cases hconfig : a.config with
    | none => exact failsAs_ok c
    | some path => exact loadFile_worded_iff.mpr (h ⟨c, hc⟩ path hconfig)

variable [Stack]

/-- There is room for copying what the command line says and for merging all levels, and what is refused
    in the settings can be written. -/
def Settles (c : Config κ) (entries : Value.Mapping) : Prop :=
  (Value.dict (wrap entries)).copyDepth ≤ Stack.room ∧
    ∃ settings, (c.loadEntries entries .arguments).settings = .ok settings ∧
      ∀ f, Setting.check settings ≠ .error (.fault f)

/-- The files come first, then the settings. -/
theorem ofArguments_worded_iff {system : Text} {a : CommandLine.Arguments} :
    FailsAs LoadError.IsWorded (ofArguments t s system a : Except LoadError (Config Hook)) ↔
      FilesReadable t s system a ∧ ∀ c : Config Hook, ofFiles t s system a = .ok c → c.Settles (a.settings s) := by
  unfold ofArguments
  rw [failsAs_bind_iff, ofFiles_worded_iff]
  refine and_congr_right fun _ => forall₂_congr fun c _ => ?_
  unfold loadCopy Settles
  split
  · next hroom =>
    rw [and_iff_right hroom, ← check_worded_iff]
    show FailsAs _ ((c.loadEntries (a.settings s) .arguments).check >>= fun _ => _) ↔ _
    rw [failsAs_bind_iff]
    exact and_iff_left fun _ _ => failsAs_pure _
  · next hroom => exact iff_of_false (fun h => h _ rfl _ _ rfl) fun h => hroom h.1

end Config

/-! ## The log -/

namespace Level

/-- A value gives a level: it is a number, a truth value, or written as the name of a level in any case. -/
def IsNamed [Stack] : Value → Prop
  | .int _ | .bool _ => True
  | v => ∃ given, Layered.written v = .ok given ∧ (names.lookup given.upper).isSome = true

theorem exists_ofValue_iff [Stack] {v : Value} : (∃ l, ofValue v = .ok l) ↔ IsNamed v := by
  unfold ofValue
  split
  · exact iff_of_true ⟨_, rfl⟩ trivial
  · exact iff_of_true ⟨_, rfl⟩ trivial
  · next hint hbool =>
    have hnamed : IsNamed v ↔
        ∃ given, Layered.written v = .ok given ∧ (names.lookup given.upper).isSome = true := by
      unfold IsNamed
      split
      · next i => exact absurd rfl (hint i)
      · next b => exact absurd rfl (hbool b)
      · exact Iff.rfl
    rw [hnamed]
    cases Layered.written v with
    | error f =>
      refine iff_of_false ?_ ?_
      · rintro ⟨_, h⟩
        cases h
      · rintro ⟨_, h, -⟩
        cases h
    | ok given =>
      dsimp only
      cases hlookup : names.lookup given.upper with
      | some i => exact iff_of_true ⟨_, rfl⟩ ⟨given, rfl, by rw [hlookup]; rfl⟩
      | none =>
        refine iff_of_false ?_ ?_
        · rintro ⟨_, h⟩
          cases h
        · rintro ⟨_, ⟨⟩, h⟩
          rw [hlookup] at h
          cases h

end Level

namespace LogSetup

variable {t : FileTree} {world : Surroundings} {logging : Value.Mapping} {v : Value}

/-- A value of the logging section; null if there is none. -/
def valueAt (logging : Value.Mapping) (key : Text) : Value := (Value.field? key logging).getD .null

/-- What the logging section says can be used: the level is one, the format has a field, and the file
    can be opened.  What is null, false, zero or empty is not looked at. -/
def Usable [Stack] (t : FileTree) (world : Surroundings) (logging : Value.Mapping) : Prop :=
  ((valueAt logging Setting.levelKey).isTruthy = true → Level.IsNamed (valueAt logging Setting.levelKey)) ∧
    ((valueAt logging Setting.formatKey).isTruthy = true →
      ∃ text, valueAt logging Setting.formatKey = .text text ∧ Layout.isAccepted text = true) ∧
    ((valueAt logging Setting.fileKey).isTruthy = true →
      ∃ path p, valueAt logging Setting.fileKey = .text path ∧ (openFile t world path).2 = .ok p)

theorem exists_levelOf_iff [Stack] : (∃ l, levelOf v = .ok l) ↔ (v.isTruthy = true → Level.IsNamed v) := by
  unfold levelOf
  split
  · next htruthy =>
    rw [← Level.exists_ofValue_iff]
    cases Level.ofValue v with
    | ok l => exact iff_of_true ⟨l, rfl⟩ fun _ => ⟨l, rfl⟩
    | error u => exact iff_of_false nofun fun h => nomatch h htruthy
  · next htruthy => exact iff_of_true ⟨_, rfl⟩ fun h => absurd h htruthy

theorem exists_layoutOf_iff :
    (∃ l, layoutOf v = .ok l) ↔ (v.isTruthy = true → ∃ text, v = .text text ∧ Layout.isAccepted text = true) := by
  unfold layoutOf
  cases htruthy : v.isTruthy with
  | false => exact iff_of_true ⟨_, rfl⟩ nofun
  | true =>
    cases v with
    | text text =>
      rw [if_neg (by decide)]
      dsimp only
      split
      · next haccepted => exact iff_of_true ⟨_, rfl⟩ fun _ => ⟨text, rfl, haccepted⟩
      · next haccepted =>
        refine iff_of_false nofun fun h => ?_
        obtain ⟨_, htext, h⟩ := h rfl
        cases htext
        exact haccepted h
    | _ =>
      refine iff_of_false nofun fun h => ?_
      obtain ⟨_, htext, -⟩ := h rfl
      cases htext

theorem exists_fileOf_iff :
    (∃ f, (fileOf t world v).2 = .ok f) ↔
      (v.isTruthy = true → ∃ path p, v = .text path ∧ (openFile t world path).2 = .ok p) := by
  unfold fileOf
  cases htruthy : v.isTruthy with
  | false => exact iff_of_true ⟨none, rfl⟩ nofun
  | true =>
    cases v with
    | text path =>
      show (∃ f, ((openFile t world path).2.mapError LogError.fault).map some = .ok f) ↔ _
      cases hopen : (openFile t world path).2 with
      | ok p => exact iff_of_true ⟨some p, rfl⟩ fun _ => ⟨path, p, rfl, hopen⟩
      | error f =>
        refine iff_of_false nofun fun h => ?_
        obtain ⟨_, p, htext, hp⟩ := h rfl
        cases htext
        cases hopen.symm.trans hp
    | _ =>
      refine iff_of_false nofun fun h => ?_
      obtain ⟨_, _, htext, -⟩ := h rfl
      cases htext

/-- There is a log exactly if what the logging section says can be used. -/
theorem exists_ofSettings_iff [Stack] :
    (∃ setup, (ofSettings t world logging).2 = .ok setup) ↔ Usable t world logging := by
  rw [Usable, ← exists_levelOf_iff, ← exists_layoutOf_iff, ← exists_fileOf_iff]
  unfold ofSettings valueAt
  dsimp only
  generalize (Value.field? Setting.levelKey logging).getD .null = level
  generalize (Value.field? Setting.formatKey logging).getD .null = format
  generalize (Value.field? Setting.fileKey logging).getD .null = file
  constructor
  · rintro ⟨setup, h⟩
    cases hlevel : levelOf level with
    | error e => rw [hlevel] at h; cases h
    | ok l =>
      cases hlayout : layoutOf format with
      | error e => rw [hlevel, hlayout] at h; cases h
      | ok y =>
        cases hfile : (fileOf t world file).2 with
        | error e =>
          rw [hlevel, hlayout] at h
          dsimp only [Except.bind, Except.map] at h
          rw [hfile] at h
          cases h
        | ok f => exact ⟨⟨l, rfl⟩, ⟨y, rfl⟩, f, rfl⟩
  · rintro ⟨⟨l, hlevel⟩, ⟨y, hlayout⟩, f, hfile⟩
    rw [hlevel, hlayout]
    dsimp only [Except.bind, Except.map]
    rw [hfile]
    exact ⟨_, rfl⟩

end LogSetup

/-! ## The exit code -/

namespace OpeningError

/-- There are words for a failure, so that there is an exit code for it. -/
def IsWorded (e : OpeningError) : Prop := ∃ n, e.exitCode? = some n

theorem isWorded_stop (s : CommandLine.Stop) : IsWorded (.stop s) := ⟨_, rfl⟩

theorem isWorded_arguments_iff {e : CommandLine.ArgumentError} : IsWorded (.arguments e) ↔ e.IsWorded := by
  cases e with
  | fault f => exact iff_of_false nofun fun h => h f rfl
  | _ => exact iff_of_true ⟨_, rfl⟩ nofun

theorem isWorded_config_iff {e : LoadError} : IsWorded (.config e) ↔ e.IsWorded := by
  cases e with
  | config e => exact iff_of_true ⟨_, rfl⟩ nofun
  | fault f message => exact iff_of_false nofun fun h => h f message rfl

theorem not_isWorded_log (e : LogError) : ¬ IsWorded (.log e) := nofun

end OpeningError

/-- The exit code for a failure is that of a command line that only asks for the usage or the version, or
    that of a failure. -/
theorem OpeningError.exitCode?_cases {e : OpeningError} {n : Nat} (h : e.exitCode? = some n) : n = 0 ∨ n = 2 := by
  cases e with
  | stop stop =>
    cases h
    cases stop with
    | mistake => exact .inr rfl
    | _ => exact .inl rfl
  | arguments e =>
    cases e with
    | fault f => cases h
    | _ =>
      cases h
      exact .inr rfl
  | config e =>
    cases e with
    | fault f message => cases h
    | config e =>
      cases h
      exact .inr rfl
  | log e => cases h

namespace Session

/-- What a session does outside of its command comes to an end: telling of a failure, showing the
    banner and tidying up. -/
theorem succeeds_outside (s : Session) :
    (∀ e, (s.perform (Act.report e)).2 = .ok ()) ∧
      (s.perform (bannerLines.forM fun line => Act.log .info line [])).2 = .ok () ∧
      (s.perform (Act.log .debug "Cleanup complete" [])).2 = .ok () := by
  refine ⟨fun e => ?_, rfl, rfl⟩
  cases e with
  | _ => rfl

section

variable [Yaml.Loader] [Stack] {words : List Text} {t : FileTree} {world : Surroundings}
  {system input stamp : Text} {n : Nat}

/-- How a command line ends: with an exit code, or with a failure that nothing is said about. -/
def ending (words : List Text) (t : FileTree) (world : Surroundings) (system input stamp : Text) :
    Except OpeningError Nat :=
  match (opened words t world system input stamp).2 with
  | .ok s => .ok s.start.2.number
  | .error e =>
    match e.exitCode? with
    | some n => .ok n
    | none => .error e

/-- A session that cannot be opened ends with an exit code if the failure is worded. -/
theorem exists_ending_of_error {e : OpeningError} (h : (opened words t world system input stamp).2 = .error e) :
    (∃ n, ending words t world system input stamp = .ok n) ↔ e.IsWorded := by
  unfold ending OpeningError.IsWorded
  rw [h]
  dsimp only
  cases e.exitCode? with
  | some n => exact iff_of_true ⟨n, rfl⟩ ⟨n, rfl⟩
  | none => exact iff_of_false nofun nofun

theorem exitCode_mem (h : ending words t world system input stamp = .ok n) : n = 0 ∨ n = 1 ∨ n = 2 := by
  unfold ending at h
  cases hopened : (opened words t world system input stamp).2 with
  | ok s =>
    rw [hopened] at h
    cases h
    cases s.start.2 with
    | success => exact .inl rfl
    | denied => exact .inr (.inl rfl)
    | failure => exact .inr (.inr rfl)
  | error e =>
    rw [hopened] at h
    dsimp only at h
    split at h
    · next hcode =>
      cases h
      exact (OpeningError.exitCode?_cases hcode).imp_right .inr
    · cases h

/-- What the arguments and the configuration files have to be for the plan to fail in words only. -/
theorem plan_worded_iff : FailsAs OpeningError.IsWorded (plan words t world system) ↔
    ∀ a, CommandLine.Arguments.read words = .ok a → a.Bears t world ∧
      (a.check t world = .ok () → Config.FilesReadable t world system a ∧
        ∀ c : Config Hook, Config.ofFiles t world system a = .ok c → c.Settles (a.settings world)) := by
  have hread : FailsAs OpeningError.IsWorded ((CommandLine.Arguments.read words).mapError .stop) :=
    failsAs_mapError_iff.mpr fun stop _ => OpeningError.isWorded_stop stop
  unfold plan
  rw [failsAs_bind_iff, and_iff_right hread]
  simp only [mapError_eq_ok_iff, failsAs_bind_iff, failsAs_mapError_iff, failsAs_pure, implies_true, and_true,
    OpeningError.isWorded_arguments_iff, OpeningError.isWorded_config_iff, CommandLine.Arguments.check_worded_iff,
    Config.ofArguments_worded_iff, Unique.forall_iff]

theorem plan_eq_ok_iff {a : CommandLine.Arguments} {c : Config Hook} : plan words t world system = .ok (a, c) ↔
    CommandLine.Arguments.read words = .ok a ∧ a.check t world = .ok () ∧
      Config.ofArguments t world system a = .ok c := by
  simp only [plan, bind_eq_ok_iff, mapError_eq_ok_iff]
  constructor
  · rintro ⟨a', ha, u, hcheck, c', hc, hpair⟩
    cases hpair
    exact ⟨ha, hcheck, hc⟩
  · rintro ⟨ha, hcheck, hc⟩
    exact ⟨a, ha, (), hcheck, c, hc, rfl⟩

/-- What is planned has settings. -/
theorem exists_settings_of_plan {a : CommandLine.Arguments} {c : Config Hook}
    (h : plan words t world system = .ok (a, c)) : ∃ settings, c.settings = .ok settings := by
  obtain ⟨-, -, hconfig⟩ := plan_eq_ok_iff.mp h
  obtain ⟨files, -, h⟩ := bind_eq_ok_iff.mp hconfig
  obtain ⟨copied, -, h⟩ := bind_eq_ok_iff.mp h
  obtain ⟨_, hcheck, h⟩ := bind_eq_ok_iff.mp h
  cases h
  exact Config.exists_settings_of_check hcheck

/-- What is planned is carried out, and so ends with an exit code, exactly if there is a log. -/
theorem exists_ending_iff_plan : (∃ n, ending words t world system input stamp = .ok n) ↔
    FailsAs OpeningError.IsWorded (plan words t world system) ∧
      ∀ a c settings, plan words t world system = .ok (a, c) → c.settings = .ok settings →
        LogSetup.Usable t world (LogSetup.sectionOf a settings) := by
  cases hplan : plan words t world system with
  | error e =>
    have hopened : (opened words t world system input stamp).2 = .error e := by
      rw [opened, hplan]
      rfl
    rw [exists_ending_of_error hopened, failsAs_error_iff]
    exact (and_iff_left nofun).symm
  | ok planned =>
    obtain ⟨a, c⟩ := planned
    obtain ⟨settings, hsettings⟩ := exists_settings_of_plan hplan
    have hlog : (∀ a' c' settings', (.ok (a, c) : Except OpeningError (CommandLine.Arguments × Config Hook)) =
        .ok (a', c') → c'.settings = .ok settings' → LogSetup.Usable t world (LogSetup.sectionOf a' settings')) ↔
        ∃ setup, (LogSetup.ofSettings t world (LogSetup.sectionOf a settings)).2 = .ok setup := by
      rw [LogSetup.exists_ofSettings_iff]
      constructor
      · exact fun h => h a c settings rfl hsettings
      · intro h a' c' settings' heq hsettings'
        cases heq
        cases hsettings.symm.trans hsettings'
        exact h
    rw [and_iff_right (failsAs_ok _), hlog]
    have hopened : (opened words t world system input stamp).2 =
        ((LogSetup.ofSettings t world (LogSetup.sectionOf a settings)).2.mapError .log).map fun setup => {
          world, arguments := a, config := c, stamp, input
          tree := (LogSetup.ofSettings t world (LogSetup.sectionOf a settings)).1
          journal := { level := setup.level }, layout := setup.layout, logFile := setup.file } := by
      rw [opened, hplan]
      dsimp only [Except.bind]
      rw [hsettings]
      rfl
    cases hsetup : (LogSetup.ofSettings t world (LogSetup.sectionOf a settings)).2 with
    | error e =>
      rw [hsetup] at hopened
      rw [exists_ending_of_error hopened]
      refine iff_of_false (OpeningError.not_isWorded_log e) ?_
      rintro ⟨setup, h⟩
      cases h
    | ok setup =>
      refine iff_of_true ?_ ⟨setup, rfl⟩
      rw [ending, hopened, hsetup]
      exact ⟨_, rfl⟩

theorem exists_ending_iff : (∃ n, ending words t world system input stamp = .ok n) ↔
    ∀ a, CommandLine.Arguments.read words = .ok a → a.Bears t world ∧
      (a.check t world = .ok () → Config.FilesReadable t world system a ∧
        (∀ c : Config Hook, Config.ofFiles t world system a = .ok c → c.Settles (a.settings world)) ∧
        ∀ (c : Config Hook) (settings : Value), Config.ofArguments t world system a = .ok c →
          c.settings = .ok settings → LogSetup.Usable t world (LogSetup.sectionOf a settings)) := by
  rw [exists_ending_iff_plan, plan_worded_iff]
  simp only [plan_eq_ok_iff]
  constructor
  · rintro ⟨hplan, hlog⟩ a ha
    refine ⟨(hplan a ha).1, fun hcheck => ?_⟩
    obtain ⟨hfiles, hsettles⟩ := (hplan a ha).2 hcheck
    exact ⟨hfiles, hsettles, fun c settings hc => hlog a c settings ⟨ha, hcheck, hc⟩⟩
  · intro h
    refine ⟨fun a ha => ⟨(h a ha).1, fun hcheck => ?_⟩, ?_⟩
    · obtain ⟨hfiles, hsettles, -⟩ := (h a ha).2 hcheck
      exact ⟨hfiles, hsettles⟩
    · rintro a c settings ⟨ha, hcheck, hc⟩
      exact ((h a ha).2 hcheck).2.2 c settings hc

end

attribute [local instance] Stack.usual Yaml.Loader.own

/-- A command to which nothing is said. -/
theorem readWords_nil {c : CommandLine.Command} (h : c.positionals = []) : c.readWords [] = .ok (c.defaults, []) := by
  have htokens : c.tokens [] = .ok [] := rfl
  have hread : c.readTokens (.start c) [] = .ok (.start c) := by rw [CommandLine.Command.readTokens]
  rw [CommandLine.Command.readWords, htokens]
  dsimp only [Except.mapError, bind, Except.bind]
  rw [hread]
  simp [CommandLine.Progress.start, h, pure, Except.pure]

open CommandLine in
theorem read_init : Arguments.read ["init"] = .ok { job := .init false } := by
  have htokens : program.tokens ["init"] = .ok [⟨"init", .argument⟩] := rfl
  have hserve : program.servePositionals (.start program) [⟨"init", .argument⟩] =
      .ok ({ values := Value.insert (.text "command") (.text "init") program.defaults, waiting := [],
             further := ["init"] }, 1) := rfl
  have hread : program.readTokens (.start program) [⟨"init", .argument⟩] =
      .ok { values := Value.insert (.text "command") (.text "init") program.defaults, waiting := [],
            further := ["init"] } := by
    rw [Command.readTokens, hserve]
    dsimp only [bind, Except.bind]
    rw [if_neg (by decide), List.drop_nil, Command.readTokens]
  have hcommand : (program.commands.attach.findSome? fun x =>
      if x.1.1 == ("init" : Text) then some (x.1.2.readWords []) else none) =
      some (Command.readWords (below programName "init" [flagOption "force" "--force"] []).2 []) := rfl
  rw [Arguments.read, Command.readAll, Command.readWords, htokens]
  dsimp only [bind, Except.bind, Except.mapError]
  rw [hread]
  dsimp only
  rw [hcommand, Option.getD_some, readWords_nil rfl]
  rfl

/-- What the program is started with where a variable gives the level of the log. -/
def levelWorld (level : Text) : Surroundings where
  folder := []
  home := "/"
  environment := [("VAULTGATE_LOGGING__LEVEL", level)]

/-- The place of the system's file. -/
def systemPath : Text := "/etc/vaultgate/config.yaml"

/-- The configuration with the variable. -/
def levelFiles (level : Text) : Config Hook :=
  Config.initial.setLevel .environment
    (some [(.text Setting.rootKey, .dict [(.text "logging", .dict [(.text "level", .text level)])])])

/-- The configuration of a command line that says nothing about settings. -/
def levelConfig (level : Text) : Config Hook := (levelFiles level).loadEntries [] .arguments

theorem ofFiles_init {level : Text} (h : Environment.valueOf level = .text level) :
    Config.ofFiles {} (levelWorld level) systemPath { job := .init false } = .ok (levelFiles level) := by
  have hpath : Environment.pathOf? "VAULTGATE_LOGGING__LEVEL" = some [("logging" : Text), ("level" : Text)] := by
    decide +kernel
  have hsettings : Environment.settings (levelWorld level).environment =
      [(.text "logging", .dict [(.text "level", .text level)])] := by
    show Environment.add [] ("VAULTGATE_LOGGING__LEVEL", level) = _
    rw [Environment.add, hpath, h]
    rfl
  have hsystem : ∀ c : Config Hook, c.loadSystem {} (levelWorld level) systemPath = .ok c := fun _ => rfl
  rw [Config.ofFiles, Config.loadEnvironment, hsettings]
  dsimp only [List.isEmpty_cons]
  rw [if_neg Bool.false_ne_true, hsystem]
  rfl

section

variable {level : Text} (hroom : (levelConfig level).getAll.toOption.isSome = true)

include hroom

theorem settings_levelConfig :
    (levelConfig level).settings = .ok (Config.settingsOf (levelConfig level).merged) := by
  rw [Config.settings, Config.getAll_of_isSome hroom]
  rfl

theorem settles_init (h : Environment.valueOf level = .text level) {c : Config Hook}
    (hc : Config.ofFiles {} (levelWorld level) systemPath { job := .init false } = .ok c) : c.Settles [] := by
  cases (ofFiles_init h).symm.trans hc
  have hcheck : Setting.check (Config.settingsOf (levelConfig level).merged) = .ok () := rfl
  refine ⟨by decide, _, settings_levelConfig hroom, fun f hf => ?_⟩
  rw [hcheck] at hf
  cases hf

theorem ofArguments_init (h : Environment.valueOf level = .text level) :
    Config.ofArguments {} (levelWorld level) systemPath { job := .init false } = .ok (levelConfig level) := by
  have hcheck : (levelConfig level).check = .ok () := by
    rw [Config.check, settings_levelConfig hroom]
    rfl
  have hcopy : (levelFiles level).loadCopy [] .arguments = .ok (levelConfig level) := if_pos (by decide)
  have hnone : CommandLine.Arguments.settings { job := .init false } (levelWorld level) = [] := rfl
  rw [Config.ofArguments, ofFiles_init h, hnone]
  dsimp only [bind, Except.bind]
  rw [hcopy]
  dsimp only [Except.mapError]
  rw [hcheck]
  rfl

end

theorem sectionOf_levelConfig (level : Text) :
    LogSetup.sectionOf { job := .init false } (Config.settingsOf (levelConfig level).merged) =
      [(.text "level", .text level), (.text "file", .null), (.text "format", .text Setting.defaultFormat)] := rfl

end Session

end NoteAccess
