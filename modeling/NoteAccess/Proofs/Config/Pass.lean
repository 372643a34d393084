/-
  NoteAccess.Proofs.Config.Pass

  A whole pass over the files that are looked after.  A file is taken up at its turn if it is
  later than it is known to be (`Config.Later`), and what is taken up is applied once, in
  order, whether what came before it has worked or not.

  What is known changes during a pass: loading a file notes the time of the place where it is
  found.  So a file is passed over when one before it was a link to it and has been loaded
  (`Config.Due`), and a path that the file system cannot take ends the pass.  Apart from that
  a pass takes up exactly what was later when it began, and the next pass nothing at all
  (`Config.poll_exact`).
-/

import NoteAccess.Proofs.Config.Polling
import NoteAccess.Proofs.Config.Rereading

namespace NoteAccess

/-! ## Telling -/

namespace Notice

variable {κ σ : Type}

/-- Whether somebody is told, rather than a line logged. -/
def isTold : Notice κ → Bool
  | .line _ => false
  | _ => true

/-- Who is told that which file has changed. -/
def fileTold? : Notice κ → Option (κ × Place)
  | .file k p => some (k, p)
  | _ => none

/-- Everybody is told once and in order, whoever fails. -/
theorem fst_tellAll (hear : Notice κ → σ → σ × Option Incident) (notices : List (Notice κ)) (s : σ) :
    (tellAll hear notices s).1 = (notices.filter isTold).foldl (fun s n => (hear n s).1) s := by
  induction notices generalizing s with
  | nil => rfl
  | cons n notices ih => cases n <;> exact ih _

end Notice

namespace Config

section

variable {κ : Type} {c c' : Config κ} {t : FileTree} {p q r : Place} {e : Place × Option κ}
  {hits : List (Place × Option κ)}

/-! ## Files that are later than known -/

/-- A file is there and later than it is known to be. -/
def Later (c : Config κ) (t : FileTree) (p : Place) : Prop :=
  ∃ time, t.exists? p = .ok true ∧ t.time p = .ok time ∧ c.known p < time

/-- What is there has a time. -/
theorem exists_time_of_exists (h : t.exists? p = .ok true) : ∃ time, t.time p = .ok time := by
  unfold FileTree.exists? FileTree.leadsTo at h
  unfold FileTree.time
  cases hstat : t.stat p with
  | error f => rw [hstat] at h; cases f <;> cases h
  | ok i => cases i <;> exact ⟨_, rfl⟩

theorem newerTime?_of_unexamined {f : Fault} (h : t.exists? p = .error f) (c : Config κ) :
    c.newerTime? t p = .error f := by
  unfold newerTime?
  rw [h]
  rfl

theorem newerTime?_of_later {time : Int} (h : c.Later t p) (htime : t.time p = .ok time) :
    c.newerTime? t p = .ok (some time) := by
  obtain ⟨time', hthere, htime', hlater⟩ := h
  cases htime.symm.trans htime'
  unfold newerTime?
  rw [hthere, htime]
  show Except.ok (if time ≤ c.known p then none else some time) = _
  rw [if_neg (not_le.mpr hlater)]

theorem newerTime?_of_not_later {there : Bool} (h : t.exists? p = .ok there) (hlater : ¬ c.Later t p) :
    c.newerTime? t p = .ok none := by
  unfold newerTime?
  rw [h]
  cases there with
  | false => rfl
  | true =>
    obtain ⟨time, htime⟩ := exists_time_of_exists h
    rw [htime]
    show Except.ok (if time ≤ c.known p then none else some time) = _
    rw [if_pos (not_lt.mp fun hlt => hlater ⟨time, h, htime, hlt⟩)]

/-- Once the time of a file is noted, it is no longer later than known. -/
theorem Later.of_noted (h : Noted t p c c') (hlater : c'.Later t p) : c.Later t p := by
  obtain ⟨time, hthere, htime, hlt⟩ := hlater
  rcases h with h | h
  · exact ⟨time, hthere, htime, h ▸ hlt⟩
  · cases htime.symm.trans h
    exact absurd hlt (lt_irrefl _)

/-! ## Files that are due -/

/-- The level that a file is loaded into when it changes. -/
def home (c : Config κ) (p : Place) : Tier := (c.files.lookup p).getD .user

/-- The files that are loaded when they are taken up, with their levels. -/
def loads (c : Config κ) (files : List (Place × Option κ)) : List (Place × Tier) :=
  files.filterMap fun e => if e.2.isNone then some (e.1, c.home e.1) else none

variable [Yaml.Loader]

/-- Where a file that is taken up is loaded from, if it is loaded. -/
def foundAt? (t : FileTree) : Place × Option κ → Option Place
  | (p, none) => (fate t p).toOption.map Prod.fst
  | (_, some _) => none

theorem exists_time_of_foundAt? (h : foundAt? t e = some q) : ∃ time, t.time q = .ok time := by
  obtain ⟨p, hook⟩ := e
  cases hook with
  | some k => cases h
  | none =>
    rw [foundAt?] at h
    cases hfate : fate t p with
    | error f => rw [hfate] at h; cases h
    | ok found =>
      rw [hfate] at h
      cases h
      exact exists_time_of_fate hfate

/-- The files of a list that are taken up: those that are later than known, unless one that is taken up
    before is found in their place. -/
def Due (c : Config κ) (t : FileTree) (files hits : List (Place × Option κ)) : Prop :=
  ∀ before e after, files = before ++ e :: after →
    (e ∈ hits ↔ c.Later t e.1 ∧ ∀ e' ∈ before, e' ∈ hits → foundAt? t e' ≠ some e.1)

theorem due_nil (c : Config κ) (t : FileTree) : c.Due t [] [] := by
  intro before e after h
  exact absurd h.symm (by simp)

/-- A file that is not later than known is passed over. -/
theorem Due.cons_of_not_later {files : List (Place × Option κ)} (h : c.Due t files hits) (hlater : ¬ c.Later t e.1)
    (he : e ∉ hits) : c.Due t (e :: files) hits := by
  intro before e' after hfiles
  rcases List.cons_eq_append_iff.mp hfiles with ⟨rfl, hrest⟩ | ⟨before', rfl, hrest⟩
  · obtain ⟨rfl, -⟩ := List.cons.inj hrest
    exact ⟨fun hmem => absurd hmem he, fun h => absurd h.1 hlater⟩
  · rw [h before' e' after hrest, List.forall_mem_cons]
    exact and_congr_right fun _ => (and_iff_right fun hmem => absurd hmem he).symm

/-- Files that are taken up are later than known when the pass begins. -/
theorem Due.later {files : List (Place × Option κ)} (h : c.Due t files hits) (hsub : hits.Sublist files)
    (he : e ∈ hits) : c.Later t e.1 := by
  obtain ⟨before, after, hfiles⟩ := List.append_of_mem (hsub.subset he)
  exact ((h before e after hfiles).mp he).1

/-- What leads nowhere else is loaded from its own place. -/
theorem foundAt?_of_place (hplace : t.resolve e.1 = .ok e.1) (h : foundAt? t e = some q) : q = e.1 := by
  obtain ⟨p, hook⟩ := e
  cases hook with
  | some k => cases h
  | none =>
    rw [foundAt?, fate_eq hplace] at h
    cases hread : readEntries t p (Place.text p) with
    | error f => rw [hread] at h; cases h
    | ok entries =>
      rw [hread] at h
      exact (Option.some.inj h).symm

/-! ## Taking up one file -/

theorem known_taken (c : Config κ) (t : FileTree) (tier : Tier) (found : Place × Value.Mapping) (r : Place) :
    (c.taken t tier found).known r = if r = found.1 then (t.time found.1).toOption.getD 0 else c.known r :=
  known_noteTime (c.loadEntries found.2 tier _) found.1 r _

variable [Stack]

/-- A file that has changed: its time is noted, and somebody is told or it is loaded. -/
def takeUp (c : Config κ) (t : FileTree) (e : Place × Option κ) : Config κ × List (Notice κ) :=
  (c.noteTime e.1 ((t.time e.1).toOption.getD 0)).apply t e.1 e.2

theorem fst_takeUp (c : Config κ) (t : FileTree) (p : Place) :
    (c.takeUp t (p, none)).1 = (c.noteTime p ((t.time p).toOption.getD 0)).reread t p (c.home p) := by
  unfold takeUp apply
  dsimp only
  rw [reloadPlace_eq]
  unfold reread home
  cases fate t p with
  | error e => rfl
  | ok found =>
    -- The file is loaded, whether or not there is room for telling of it.
    dsimp only [Except.map]
    split <;> rfl

theorem home_takeUp (h : foundAt? t e ≠ some r) (c : Config κ) : (c.takeUp t e).1.home r = c.home r := by
  obtain ⟨p, hook⟩ := e
  cases hook with
  | some k => rfl
  | none =>
    rw [foundAt?] at h
    rw [fst_takeUp, reread]
    cases hfate : fate t p with
    | error f => rfl
    | ok found =>
      rw [hfate] at h
      have hne : r ≠ found.1 := fun heq => h (heq ▸ rfl)
      show (List.lookup r (assign found.1 _ c.files)).getD _ = (c.files.lookup r).getD _
      rw [lookup_assign, if_neg hne]

/-- What is known after a file has been taken up: its own time, and that of the place where it is found. -/
theorem known_takeUp (c : Config κ) (t : FileTree) (e : Place × Option κ) (r : Place) :
    (c.takeUp t e).1.known r =
      if foundAt? t e = some r then (t.time r).toOption.getD 0
      else if r = e.1 then (t.time r).toOption.getD 0 else c.known r := by
  have hnoted : (c.noteTime e.1 ((t.time e.1).toOption.getD 0)).known r =
      if r = e.1 then (t.time r).toOption.getD 0 else c.known r := by
    rw [known_noteTime]
    split
    · next heq => rw [heq]
    · rfl
  obtain ⟨p, hook⟩ := e
  cases hook with
  | some k => exact hnoted
  | none =>
    rw [fst_takeUp, reread, foundAt?]
    cases fate t p with
    | error f => exact hnoted
    | ok found =>
      -- The time of the place where the file is found is noted after that of the file itself.
      show (Config.taken _ t _ found).known r = if some found.1 = some r then _ else _
      rw [known_taken]
      by_cases hr : found.1 = r
      · rw [if_pos hr.symm, if_pos (congrArg some hr), hr]
      · rw [if_neg (Ne.symm hr), if_neg fun h => hr (Option.some.inj h)]
        exact hnoted

theorem noted_takeUp (htime : ∃ time, t.time e.1 = .ok time) (c : Config κ) (r : Place) :
    Noted t r c (c.takeUp t e).1 := by
  have hnow : (∃ time, t.time r = .ok time) → t.time r = .ok ((t.time r).toOption.getD 0) := by
    rintro ⟨time, h⟩
    rw [h]
    rfl
  unfold Noted
  rw [known_takeUp]
  split
  · next hfound => exact .inr (hnow (exists_time_of_foundAt? hfound))
  · split
    · next heq => exact .inr (hnow (heq ▸ htime))
    · exact .inl rfl

theorem not_later_takeUp (c : Config κ) (t : FileTree) (e : Place × Option κ) :
    ¬ (c.takeUp t e).1.Later t e.1 := by
  rintro ⟨time, -, htime, hlt⟩
  rw [known_takeUp, if_pos rfl, ite_self, htime] at hlt
  exact lt_irrefl _ hlt

/-- Another file is later than known still, unless it stands where the one that is taken up is found. -/
theorem later_takeUp_iff (hr : r ≠ e.1) (c : Config κ) :
    (c.takeUp t e).1.Later t r ↔ c.Later t r ∧ foundAt? t e ≠ some r := by
  unfold Later
  rw [known_takeUp, if_neg hr]
  by_cases hfound : foundAt? t e = some r
  · refine ⟨?_, fun h => absurd hfound h.2⟩
    rintro ⟨time, -, htime, hlt⟩
    rw [if_pos hfound, htime] at hlt
    exact absurd hlt (lt_irrefl _)
  · rw [if_neg hfound]
    exact (and_iff_left hfound).symm

theorem watched_takeUp (c : Config κ) (t : FileTree) (e : Place × Option κ) :
    (c.takeUp t e).1.watched = c.watched := by
  obtain ⟨p, hook⟩ := e
  cases hook with
  | some k => rfl
  | none =>
    rw [fst_takeUp, reread]
    cases (fate t p).toOption <;> rfl

theorem levelAt_takeUp (c : Config κ) (t : FileTree) (e : Place × Option κ) (u : Tier) :
    (c.takeUp t e).1.levelAt u = (lastFresh? t u (c.loads [e])).getD (c.levelAt u) := by
  obtain ⟨p, hook⟩ := e
  cases hook with
  | some k => rfl
  | none =>
    rw [fst_takeUp, levelAt_reread]
    rfl

/-! ## Taking up files one after the other -/

/-- Files that are taken up one after the other. -/
def takeUpAll (c : Config κ) (t : FileTree) : List (Place × Option κ) → Config κ × List (Notice κ)
  | [] => (c, [])
  | e :: files => (((c.takeUp t e).1.takeUpAll t files).1, (c.takeUp t e).2 ++ ((c.takeUp t e).1.takeUpAll t files).2)

theorem watched_takeUpAll (c : Config κ) (t : FileTree) (files : List (Place × Option κ)) :
    (c.takeUpAll t files).1.watched = c.watched := by
  induction files generalizing c with
  | nil => rfl
  | cons e files ih => exact (ih _).trans (watched_takeUp c t e)

theorem noted_takeUpAll (htimes : ∀ e ∈ hits, ∃ time, t.time e.1 = .ok time) (c : Config κ) (r : Place) :
    Noted t r c (c.takeUpAll t hits).1 := by
  induction hits generalizing c with
  | nil => exact .refl t r c
  | cons e hits ih =>
    obtain ⟨htime, htimes⟩ := List.forall_mem_cons.mp htimes
    exact (noted_takeUp htime c r).trans (ih htimes _)

theorem fileTold?_takeUp (c : Config κ) (t : FileTree) (e : Place × Option κ) :
    (c.takeUp t e).2.filterMap Notice.fileTold? = (e.2.map fun k => (k, e.1)).toList := by
  obtain ⟨p, hook⟩ := e
  cases hook with
  | some k => rfl
  | none =>
    rw [takeUp, apply]
    cases Config.reloadPlace _ t p _ with
    | error e => rfl
    | ok next =>
      dsimp only
      rcases next.getAll_cases with hroom | hdeep
      · rw [notices, hroom]
        refine List.filterMap_eq_nil_iff.mpr fun n hn => ?_
        obtain ⟨w, -, rfl⟩ := List.mem_map.mp hn
        rfl
      · rw [notices, hdeep]
        rfl

/-- Everybody who is to be told of one of the files is told of it, in order. -/
theorem fileTold?_takeUpAll (c : Config κ) (t : FileTree) (files : List (Place × Option κ)) :
    (c.takeUpAll t files).2.filterMap Notice.fileTold? = files.filterMap fun e => e.2.map fun k => (k, e.1) := by
  induction files generalizing c with
  | nil => rfl
  | cons e files ih =>
    rw [takeUpAll, List.filterMap_append, ih, fileTold?_takeUp, List.filterMap_cons]
    cases e.2 <;> rfl

/-- What levels hold when files have been taken up, none of which is found in the place of a later one. -/
theorem levelAt_takeUpAll (h : hits.Pairwise fun e e' => foundAt? t e ≠ some e'.1) (c : Config κ) (u : Tier) :
    (c.takeUpAll t hits).1.levelAt u = (lastFresh? t u (c.loads hits)).getD (c.levelAt u) := by
  induction hits generalizing c with
  | nil => rfl
  | cons e hits ih =>
    obtain ⟨hfound, hrest⟩ := List.pairwise_cons.mp h
    have hloads : (c.takeUp t e).1.loads hits = c.loads hits :=
      List.filterMap_congr fun e' he' => by rw [home_takeUp (hfound e' he')]
    show ((c.takeUp t e).1.takeUpAll t hits).1.levelAt u = _
    rw [ih hrest, hloads, levelAt_takeUp]
    have hcons : lastFresh? t u (c.loads (e :: hits)) =
        (lastFresh? t u (c.loads hits)).or (lastFresh? t u (c.loads [e])) := by
      obtain ⟨p, hook⟩ := e
      cases hook with
      | some k => exact (Option.or_none).symm
      | none => rfl
    rw [hcons]
    cases lastFresh? t u (c.loads hits) <;> rfl

/-! ## Passes -/

/-- What a pass over a part of the files does.  `seen` are those up to the first one whose path the file
    system cannot take. -/
structure Passed (t : FileTree) (pass : Pass κ) (seen hits : List (Place × Option κ)) (result : Pass κ) : Prop where
  sublist : hits.Sublist seen
  due : pass.config.Due t seen hits
  apart : hits.Pairwise fun e e' => foundAt? t e ≠ some e'.1
  config : result.config = (pass.config.takeUpAll t hits).1
  notices : result.notices = pass.notices ++ (pass.config.takeUpAll t hits).2
  changed : result.changed = pass.changed ++ hits.map Prod.fst
  settled : ∀ e ∈ seen, ¬ result.config.Later t e.1

/-- A pass that looks at no file. -/
theorem passed_nil {pass result : Pass κ} (t : FileTree) (hconfig : result.config = pass.config)
    (hnotices : result.notices = pass.notices) (hchanged : result.changed = pass.changed) :
    Passed t pass [] [] result where
  sublist := .slnil
  due := due_nil pass.config t
  apart := .nil
  config := hconfig
  notices := hnotices.trans (List.append_nil _).symm
  changed := hchanged.trans (List.append_nil _).symm
  settled := List.forall_mem_nil _

/-- A file that is later than known is taken up, and the rest goes on from there. -/
theorem Due.cons_of_later {files : List (Place × Option κ)} (h : (c.takeUp t e).1.Due t files hits)
    (hlater : c.Later t e.1) (hne : ∀ e' ∈ files, e'.1 ≠ e.1) : c.Due t (e :: files) (e :: hits) := by
  intro before e' after hfiles
  rcases List.cons_eq_append_iff.mp hfiles with ⟨rfl, hrest⟩ | ⟨before', rfl, hrest⟩
  · obtain ⟨rfl, -⟩ := List.cons.inj hrest
    exact ⟨fun _ => ⟨hlater, nofun⟩, fun _ => List.mem_cons_self⟩
  · have hmem : ∀ e'' ∈ files, (e'' ∈ e :: hits ↔ e'' ∈ hits) := by
      intro e'' he''
      rw [List.mem_cons, or_iff_right fun heq => hne e'' he'' (congrArg Prod.fst heq)]
    have he' : e' ∈ files := hrest ▸ List.mem_append_right _ List.mem_cons_self
    have hbefore : ∀ e'' ∈ before', e'' ∈ files := fun e'' he'' => hrest ▸ List.mem_append_left _ he''
    rw [hmem e' he', h before' e' after hrest, later_takeUp_iff (hne e' he'), List.forall_mem_cons, and_assoc]
    refine and_congr_right fun _ => and_congr (by simp) ?_
    exact forall₂_congr fun e'' he'' => by rw [hmem e'' (hbefore e'' he'')]

theorem Passed.noted {pass result : Pass κ} {seen : List (Place × Option κ)} (h : Passed t pass seen hits result)
    (r : Place) : Noted t r pass.config result.config := by
  rw [h.config]
  refine noted_takeUpAll (fun e he => ?_) pass.config r
  obtain ⟨time, -, htime, -⟩ := h.due.later h.sublist he
  exact ⟨time, htime⟩

theorem Passed.cons_of_not_later {pass result : Pass κ} {seen : List (Place × Option κ)}
    (h : Passed t pass seen hits result) (hlater : ¬ pass.config.Later t e.1) (he : e ∉ hits) :
    Passed t pass (e :: seen) hits result where
  sublist := h.sublist.cons e
  due := h.due.cons_of_not_later hlater he
  apart := h.apart
  config := h.config
  notices := h.notices
  changed := h.changed
  settled := List.forall_mem_cons.mpr ⟨fun hlater' => hlater (hlater'.of_noted (h.noted e.1)), h.settled⟩

theorem Passed.cons_of_later {pass result : Pass κ} {seen : List (Place × Option κ)}
    (h : Passed t { config := (pass.config.takeUp t e).1, changed := pass.changed ++ [e.1]
                    notices := pass.notices ++ (pass.config.takeUp t e).2 } seen hits result)
    (hlater : pass.config.Later t e.1) (hne : ∀ e' ∈ seen, e'.1 ≠ e.1) :
    Passed t pass (e :: seen) (e :: hits) result where
  sublist := h.sublist.cons_cons e
  due := h.due.cons_of_later hlater hne
  apart := by
    refine List.pairwise_cons.mpr ⟨fun e' he' => ?_, h.apart⟩
    exact ((later_takeUp_iff (hne e' (h.sublist.subset he')) _).mp (h.due.later h.sublist he')).2
  config := h.config
  notices := h.notices.trans (List.append_assoc ..)
  changed := h.changed.trans (List.append_assoc ..)
  settled := List.forall_mem_cons.mpr
    ⟨fun hlater' => not_later_takeUp pass.config t e (hlater'.of_noted (h.noted e.1)), h.settled⟩

theorem pollFrom_cons_of_later {pass : Pass κ} (h : pass.config.Later t e.1) (rest : List (Place × Option κ)) :
    pollFrom t pass (e :: rest) = pollFrom t
      { config := (pass.config.takeUp t e).1, changed := pass.changed ++ [e.1]
        notices := pass.notices ++ (pass.config.takeUp t e).2 } rest := by
  obtain ⟨p, hook⟩ := e
  obtain ⟨time, -, htime, -⟩ := id h
  rw [pollFrom, newerTime?_of_later h htime, takeUp, htime]
  rfl

theorem pollFrom_cons_of_not_later {pass : Pass κ} {there : Bool} (hthere : t.exists? e.1 = .ok there)
    (h : ¬ pass.config.Later t e.1) (rest : List (Place × Option κ)) :
    pollFrom t pass (e :: rest) = pollFrom t pass rest := by
  obtain ⟨p, hook⟩ := e
  rw [pollFrom, newerTime?_of_not_later hthere h]

/-- A pass over files with different paths. -/
theorem pollFrom_eq {files : List (Place × Option κ)} (hnodup : (files.map Prod.fst).Nodup) (t : FileTree)
    (pass : Pass κ) (hpass : pass.failure = none) :
    ∃ seen left hits, files = seen ++ left ∧ (∀ e ∈ seen, ∃ there, t.exists? e.1 = .ok there) ∧
      Passed t pass seen hits (pollFrom t pass files) ∧
      (left = [] ∧ (pollFrom t pass files).failure = none ∨
        ∃ e more f, left = e :: more ∧ t.exists? e.1 = .error f ∧ (pollFrom t pass files).failure = some f) := by
  -- By induction on the files: the first one ends the pass, is passed over, or is taken up, and the
  -- rest is a pass that begins with what it leaves.
  induction files generalizing pass with
  | nil =>
    exact ⟨[], [], [], rfl, List.forall_mem_nil _, passed_nil t rfl rfl rfl, .inl ⟨rfl, hpass⟩⟩
  | cons e files ih =>
    rw [List.map_cons, List.nodup_cons] at hnodup
    obtain ⟨hfresh, hnodup⟩ := hnodup
    have hne : ∀ e' ∈ files, e'.1 ≠ e.1 := fun e' he' heq => hfresh (List.mem_map.mpr ⟨e', he', heq⟩)
    cases hthere : t.exists? e.1 with
    | error f =>
      rw [pollFrom, newerTime?_of_unexamined hthere]
      exact ⟨[], e :: files, [], rfl, List.forall_mem_nil _, passed_nil t rfl rfl rfl,
        .inr ⟨e, files, f, rfl, hthere, rfl⟩⟩
    | ok there =>
      by_cases hlater : pass.config.Later t e.1
      · rw [pollFrom_cons_of_later hlater]
        obtain ⟨seen, left, hits, hfiles, hseen, hpassed, hends⟩ := ih hnodup
          { config := (pass.config.takeUp t e).1, changed := pass.changed ++ [e.1]
            notices := pass.notices ++ (pass.config.takeUp t e).2 } rfl
        refine ⟨e :: seen, left, e :: hits, by rw [hfiles]; rfl, List.forall_mem_cons.mpr ⟨⟨there, hthere⟩, hseen⟩,
          ?_, hends⟩
        exact hpassed.cons_of_later hlater fun e' he' => hne e' (hfiles ▸ List.mem_append_left _ he')
      · rw [pollFrom_cons_of_not_later hthere hlater]
        obtain ⟨seen, left, hits, hfiles, hseen, hpassed, hends⟩ := ih hnodup pass hpass
        refine ⟨e :: seen, left, hits, by rw [hfiles]; rfl, List.forall_mem_cons.mpr ⟨⟨there, hthere⟩, hseen⟩,
          ?_, hends⟩
        exact hpassed.cons_of_not_later hlater fun hmem =>
          hne e (hfiles ▸ List.mem_append_left _ (hpassed.sublist.subset hmem)) rfl

/-- Files that are not later than known are all passed over. -/
theorem pollFrom_settled {seen : List (Place × Option κ)} (pass : Pass κ)
    (hthere : ∀ e ∈ seen, ∃ there, t.exists? e.1 = .ok there) (hsettled : ∀ e ∈ seen, ¬ pass.config.Later t e.1)
    (left : List (Place × Option κ)) : pollFrom t pass (seen ++ left) = pollFrom t pass left := by
  induction seen with
  | nil => rfl
  | cons e seen ih =>
    obtain ⟨⟨there, he⟩, hrest⟩ := List.forall_mem_cons.mp hthere
    obtain ⟨hlater, hsettledRest⟩ := List.forall_mem_cons.mp hsettled
    rw [List.cons_append, pollFrom_cons_of_not_later he hlater]
    exact ih hrest hsettledRest

/-- A pass over the files that are looked after, up to the first one whose path the file system cannot
    take, which ends it.  A file is taken up exactly if it is there and later than it was known to be when
    the pass began, and none that has been taken up before was a link to it and loaded.  What is taken up
    is what is returned; it is applied once and in order, and everybody is told, whoever fails.  A level
    gets what is in the last of its files that can be loaded, and keeps what it holds if there is none.
    Another pass takes nothing up and changes nothing.

    Where the file system takes all paths and none of them leads to another place, a pass does not fail,
    and what it takes up is exactly what was later when it began. -/
theorem poll_exact (hnodup : (c.watched.map Prod.fst).Nodup) (t : FileTree) :
    (∃ seen left hits, c.watched = seen ++ left ∧ (∀ e ∈ seen, ∃ there, t.exists? e.1 = .ok there) ∧
      (left = [] ∧ (c.poll t).failure = none ∨
        ∃ e more f, left = e :: more ∧ t.exists? e.1 = .error f ∧ (c.poll t).failure = some f) ∧
      hits.Sublist seen ∧ c.Due t seen hits ∧ (c.poll t).changed = hits.map Prod.fst ∧
      ((c.poll t).config, (c.poll t).notices) = c.takeUpAll t hits ∧
      (∀ u, (c.poll t).config.levelAt u = (lastFresh? t u (c.loads hits)).getD (c.levelAt u)) ∧
      (c.poll t).notices.filterMap Notice.fileTold? = hits.filterMap fun e => e.2.map fun k => (k, e.1)) ∧
    (∀ (σ : Type) (hear : Notice κ → σ → σ × Option Incident) (s : σ),
      (Notice.tellAll hear (c.poll t).notices s).1 =
        ((c.poll t).notices.filter Notice.isTold).foldl (fun s n => (hear n s).1) s) ∧
    (c.poll t).config.poll t = { config := (c.poll t).config, failure := (c.poll t).failure } ∧
    ((∀ e ∈ c.watched, (∃ there, t.exists? e.1 = .ok there) ∧ ∀ q, foundAt? t e = some q → q = e.1) →
      (c.poll t).failure = none ∧ ∀ e ∈ c.watched, (e.1 ∈ (c.poll t).changed ↔ c.Later t e.1)) := by
  obtain ⟨seen, left, hits, hwatched, hseen, hpassed, hends⟩ := pollFrom_eq hnodup t { config := c } rfl
  have hsame : (c.poll t).config.watched = seen ++ left := by
    rw [← hwatched, ← watched_takeUpAll c t hits]
    exact congrArg Config.watched hpassed.config
  refine ⟨⟨seen, left, hits, hwatched, hseen, hends, hpassed.sublist, hpassed.due, hpassed.changed,
    Prod.ext hpassed.config hpassed.notices, fun u => ?_, ?_⟩,
    fun σ hear s => Notice.fst_tellAll hear _ s, ?_, fun hplain => ?_⟩
  · rw [← levelAt_takeUpAll hpassed.apart]
    exact congrArg (·.levelAt u) hpassed.config
  · rw [← fileTold?_takeUpAll c t hits]
    exact congrArg (·.filterMap Notice.fileTold?) hpassed.notices
  · -- The files that were seen are not later any more, and what ended the pass ends the next one too.
    show pollFrom t { config := (c.poll t).config } (c.poll t).config.watched = _
    rw [hsame, pollFrom_settled { config := (c.poll t).config } hseen hpassed.settled]
    rcases hends with ⟨rfl, hfailure⟩ | ⟨e, more, f, rfl, hthere, hfailure⟩
    · rw [poll, hfailure]
      rfl
    · rw [pollFrom, newerTime?_of_unexamined hthere, poll, hfailure]
  · have hall : seen = c.watched ∧ (c.poll t).failure = none := by
      rcases hends with ⟨rfl, hfailure⟩ | ⟨e, more, f, rfl, hthere, -⟩
      · exact ⟨by rw [hwatched, List.append_nil], hfailure⟩
      · obtain ⟨⟨there, hok⟩, -⟩ := hplain e (hwatched ▸ List.mem_append_right _ List.mem_cons_self)
        cases hthere.symm.trans hok
    obtain ⟨rfl, hfailure⟩ := hall
    refine ⟨hfailure, fun e he => ?_⟩
    have hmem : e.1 ∈ (c.poll t).changed ↔ e ∈ hits := by
      rw [show (c.poll t).changed = hits.map Prod.fst from hpassed.changed]
      refine ⟨fun h => ?_, List.mem_map_of_mem⟩
      obtain ⟨e', he', heq⟩ := List.mem_map.mp h
      rwa [← List.inj_on_of_nodup_map hnodup (hpassed.sublist.subset he') he heq]
    obtain ⟨before, after, hsplit⟩ := List.append_of_mem he
    rw [hmem, hpassed.due before e after hsplit, and_iff_left_iff_imp]
    -- A file that has been taken up before has another path, and is found there.
    intro _ e' he' _ hfound
    have hother : e'.1 ≠ e.1 := by
      rw [hsplit, List.map_append, List.map_cons, List.nodup_append] at hnodup
      exact hnodup.2.2 _ (List.mem_map_of_mem he') _ List.mem_cons_self
    exact hother ((hplain e' (hsplit ▸ List.mem_append_left _ he')).2 _ hfound).symm

end

/-! ## Three files, and a file that becomes a link -/

attribute [local instance] Stack.usual Yaml.Loader.own

/-- Three files that have changed.  The first one is not in order, and the last one allows everything. -/
def changedFiles : FileTree where
  items := [
    (["a.yaml"], .file (.bytes [91]) 1),
    (["b.txt"], .file (.bytes []) 1),
    (["c.yaml"], .file (.bytes allowing) 1)]

/-- A configuration that looks after three files, of one of which somebody is told. -/
def attentive : Config Unit :=
  (((initial.watch {} ["a.yaml"] none).1.watch {} ["b.txt"] (some ())).1.watch {} ["c.yaml"] none).1

theorem watched_attentive : attentive.watched =
    ([(["a.yaml"], none), (["b.txt"], some ()), (["c.yaml"], none)] : List (Place × Option Unit)) := by
  decide

theorem resolve_changedFiles {e : Place × Option Unit} (he : e ∈ attentive.watched) :
    changedFiles.resolve e.1 = .ok e.1 := by
  have h := FileTree.straight_nil changedFiles
  have hthere : changedFiles.Straight e.1 ∧ ∃ i, changedFiles.stat e.1 = .ok i := by
    simp only [watched_attentive, List.mem_cons, List.not_mem_nil, or_false] at he
    rcases he with rfl | rfl | rfl <;> exact ⟨h.concat (by decide) rfl nofun, _, rfl⟩
  obtain ⟨hstraight, i, hstat⟩ := hthere
  exact FileTree.resolve_of_meaningFrom hstraight.meaningFrom_eq hstat

/-- All three are taken up, and the last one is loaded although the first one cannot be. -/
theorem poll_exact_malformed :
    (attentive.watched.map Prod.fst).Nodup ∧ (attentive.poll changedFiles).failure = none ∧
      (attentive.poll changedFiles).changed = ([["a.yaml"], ["b.txt"], ["c.yaml"]] : List Place) ∧
      (((attentive.poll changedFiles).config.contents .user).bind policyOf) = some "allow" ∧
      (attentive.poll changedFiles).config.poll changedFiles = { config := (attentive.poll changedFiles).config } := by
  have hnodup : (attentive.watched.map Prod.fst).Nodup := by decide
  have hlater : ∀ e ∈ attentive.watched, attentive.Later changedFiles e.1 := by
    intro e he
    simp only [watched_attentive, List.mem_cons, List.not_mem_nil, or_false] at he
    rcases he with rfl | rfl | rfl <;> exact ⟨1, by decide +kernel, by decide +kernel, by decide⟩
  obtain ⟨⟨seen, left, hits, hwatched, -, -, hsub, -, hchanged, -, hlevels, -⟩, -, hagain, hplain⟩ :=
    poll_exact hnodup changedFiles
  obtain ⟨hfailure, hexact⟩ := hplain fun e he =>
    ⟨⟨true, (hlater e he).choose_spec.1⟩, fun q => foundAt?_of_place (resolve_changedFiles he)⟩
  obtain rfl : hits = attentive.watched := by
    have hmem : attentive.watched.map Prod.fst ⊆ hits.map Prod.fst := by
      intro p hp
      obtain ⟨e, he, rfl⟩ := List.mem_map.mp hp
      exact hchanged ▸ (hexact e he).mpr (hlater e he)
    have hlength := (hnodup.subperm hmem).length_le
    rw [List.length_map, List.length_map] at hlength
    exact (hwatched ▸ hsub.trans (List.sublist_append_left ..)).eq_of_length_le hlength
  refine ⟨hnodup, hfailure, hchanged, ?_, hfailure ▸ hagain⟩
  have hallows : (readEntries changedFiles ["c.yaml"] (Place.text ["c.yaml"])).toOption.bind
      (fun entries => policyOf (wrap entries)) = some "allow" := by decide +kernel
  have hloads : attentive.loads attentive.watched =
      ([(["a.yaml"], .user), (["c.yaml"], .user)] : List (Place × Tier)) := by decide
  cases hread : readEntries changedFiles ["c.yaml"] (Place.text ["c.yaml"]) with
  | error e => rw [hread] at hallows; cases hallows
  | ok entries =>
    rw [hread] at hallows
    have hfresh : (fresh? changedFiles ["c.yaml"]).map Prod.fst = some (some (wrap entries)) := by
      rw [fresh?, fate_eq (resolve_changedFiles (e := (["c.yaml"], none)) (by decide)), hread]
      rfl
    obtain ⟨held, hheld, hfst⟩ := Option.map_eq_some_iff.mp hfresh
    have hlast : (attentive.poll changedFiles).config.levelAt .user = held := by
      rw [hlevels, hloads, lastFresh?, lastFresh?, lastFresh?, if_pos rfl, hheld]
      rfl
    have hcontents : (attentive.poll changedFiles).config.contents .user = some (wrap entries) :=
      (congrArg Prod.fst hlast).trans hfst
    rw [hcontents]
    exact hallows

/-- The first of two files has become a link to the other one, which allows everything. -/
def linkedPair : FileTree where
  items := [(["a.yaml"], .link "b.yaml"), (["b.yaml"], .file (.bytes allowing) 1)]

/-- Both files are looked after. -/
def attentivePair : Config Unit :=
  ((paired.watch (pairedFiles [] []) ["a.yaml"] none).1.watch (pairedFiles [] []) ["b.yaml"] none).1

theorem resolve_linkedPair : linkedPair.resolve ["a.yaml"] = .ok ["b.yaml"] := by
  have hfile : linkedPair.Straight ["b.yaml"] := (FileTree.straight_nil linkedPair).concat (by decide) rfl nofun
  have hlink : linkedPair.item? (([] : Place) ++ [("a.yaml" : Text)]) = some (.link "b.yaml") := rfl
  have hmeaning : linkedPair.meaningFrom linkedPair.items.length [] [] ["a.yaml"] = .ok (["b.yaml"], true) :=
    FileTree.meaningFrom_link_end (by decide) rfl hlink rfl hfile.meaningFrom_eq
  exact FileTree.resolve_of_meaningFrom hmeaning rfl

/-- Loading the link notes the time of the other file, which is then passed over although it has changed
    and could be loaded: its level keeps what it holds. -/
theorem poll_link :
    attentivePair.watched = ([(["a.yaml"], none), (["b.yaml"], none)] : List (Place × Option Unit)) ∧
      attentivePair.Later linkedPair ["b.yaml"] ∧ Loads linkedPair ["b.yaml"] ∧
      (attentivePair.poll linkedPair).failure = none ∧
      (attentivePair.poll linkedPair).changed = ([["a.yaml"]] : List Place) ∧
      attentivePair.home ["b.yaml"] = .user ∧
      (attentivePair.poll linkedPair).config.levelAt .user = attentivePair.levelAt .user := by
  have hwatched : attentivePair.watched = ([(["a.yaml"], none), (["b.yaml"], none)] : List (Place × Option Unit)) := by
    decide
  have hlater : ∀ e ∈ attentivePair.watched, attentivePair.Later linkedPair e.1 := by
    intro e he
    simp only [hwatched, List.mem_cons, List.not_mem_nil, or_false] at he
    rcases he with rfl | rfl <;> exact ⟨1, by decide +kernel, by decide +kernel, by decide⟩
  have hloads : (readEntries linkedPair ["b.yaml"] (Place.text ["a.yaml"])).toOption.isSome = true := by decide +kernel
  have hfound : foundAt? linkedPair ((["a.yaml"], none) : Place × Option Unit) = some (["b.yaml"] : Place) := by
    show (fate linkedPair _).toOption.map Prod.fst = _
    rw [fate_eq resolve_linkedPair]
    obtain ⟨entries, hentries⟩ := Option.isSome_iff_exists.mp hloads
    rw [eq_ok_of_toOption hentries]
    rfl
  have hthere : linkedPair.exists? ["b.yaml"] = .ok true := by decide +kernel
  have hnot : ¬ (attentivePair.takeUp linkedPair (["a.yaml"], none)).1.Later linkedPair ["b.yaml"] := fun h =>
    ((later_takeUp_iff (e := (["a.yaml"], none)) (by decide) attentivePair).mp h).2 hfound
  have hpoll : attentivePair.poll linkedPair =
      { config := (attentivePair.takeUp linkedPair (["a.yaml"], none)).1, changed := [["a.yaml"]]
        notices := (attentivePair.takeUp linkedPair (["a.yaml"], none)).2 } := by
    rw [poll, hwatched, pollFrom_cons_of_later (e := (["a.yaml"], none)) (hlater (["a.yaml"], none) (by decide)),
      pollFrom_cons_of_not_later (e := (["b.yaml"], none)) hthere hnot]
    rfl
  refine ⟨hwatched, hlater (["b.yaml"], none) (by decide), loads_of_isSome (by decide +kernel), ?_, ?_, by decide, ?_⟩
  · rw [hpoll]
  · rw [hpoll]
  · rw [hpoll, levelAt_takeUp, lastFresh?_of_notMem (by decide)]
    rfl

end Config

end NoteAccess
