/-
  NoteAccess.Proofs.Config.Rereading

  Loading known files again when some of them cannot be loaded.

  What a file gives does not depend on the configuration (`Config.fate`): where it is and
  its entries, a refusal, or a failure that is not worded here.  A level keeps what it holds
  while its file is refused, and a warning tells of it; a failure that is not worded ends the
  whole, with nobody told and the files behind it not looked at (`Config.reload_levels`).

  A file that is there fails in that way exactly if what reads YAML does, unless it says that
  its text is malformed (`Config.stops_iff`): with bytes that are no text, or a value that
  cannot be made, such as a day that no calendar has.  So one such file keeps the next one
  from being loaded (`Config.reload_undecodable`).
-/

import NoteAccess.Proofs.Config.Reload

namespace NoteAccess.Config

open Value (Mapping)

section

variable {κ : Type} [Yaml.Loader] {c c' : Config κ} {t : FileTree} {p q : Place} {u tier : Tier}
  {files heeded : List (Place × Tier)}

/-! ## What a known file gives -/

/-- What a known file gives when it is loaded again: the place where it is now, and its entries. -/
def fate (t : FileTree) (p : Place) : Except LoadError (Place × Mapping) := do
  let q ← (t.resolve p).mapError fun f => .fault f (t.resolveIncident f p).message
  let entries ← readEntries t q (Place.text p)
  return (q, entries)

/-- The configuration with what a file gives loaded into a level. -/
def taken (c : Config κ) (t : FileTree) (tier : Tier) (found : Place × Mapping) : Config κ :=
  let c := c.loadEntries found.2 tier (readSharing t found.1)
  { c.noteTime found.1 ((t.time found.1).toOption.getD 0) with files := assign found.1 tier c.files }

theorem loadPlace_eq (c : Config κ) (t : FileTree) (p : Place) (shown : Text) (tier : Tier) :
    c.loadPlace t p shown tier = (readEntries t p shown).map fun entries => c.taken t tier (p, entries) := by
  unfold loadPlace
  cases hread : readEntries t p shown with
  | error e => rfl
  | ok entries =>
    obtain ⟨time, htime⟩ := exists_time hread
    have hgiven : (t.time p).toOption.getD 0 = time := by rw [htime]; rfl
    rw [htime]
    show Except.ok _ = Except.ok (c.taken t tier (p, entries))
    rw [taken, hgiven]
    rfl

theorem fate_eq (hplace : t.resolve p = .ok q) :
    fate t p = (readEntries t q (Place.text p)).map fun entries => (q, entries) := by
  unfold fate
  rw [hplace]
  rfl

/-- A file that is found has a time. -/
theorem exists_time_of_fate {found : Place × Mapping} (h : fate t p = .ok found) :
    ∃ time, t.time found.1 = .ok time := by
  cases hplace : t.resolve p with
  | error f =>
    unfold fate at h
    rw [hplace] at h
    cases h
  | ok place =>
    rw [fate_eq hplace] at h
    cases hread : readEntries t place (Place.text p) with
    | error e => rw [hread] at h; cases h
    | ok entries =>
      rw [hread] at h
      cases h
      exact exists_time hread

theorem reloadPlace_eq (c : Config κ) (t : FileTree) (p : Place) (tier : Tier) :
    c.reloadPlace t p tier = (fate t p).map (c.taken t tier) := by
  unfold reloadPlace
  cases hplace : t.resolve p with
  | error f =>
    unfold fate
    rw [hplace]
    rfl
  | ok q =>
    rw [fate_eq hplace]
    show c.loadPlace t q (Place.text p) tier = _
    rw [loadPlace_eq]
    cases readEntries t q (Place.text p) <;> rfl

/-- Loading a file fails in a way that is not worded. -/
def Stops (t : FileTree) (p : Place) : Prop := ∃ f message, fate t p = .error (.fault f message)

/-- A file that is gone is refused. -/
theorem fate_of_missing (hplace : t.resolve p = .ok q) (hgone : t.stat q = .error .missing) :
    fate t p = .error (.config (.missing (Place.text p))) := by
  rw [fate_eq hplace]
  unfold readEntries FileTree.exists? FileTree.leadsTo
  rw [hgone]
  rfl

theorem readEntries_of_file {content : FileContent} {time : Int} (hfile : t.stat q = .ok (.file content time))
    (shown : Text) : readEntries t q shown = entriesOf shown content.toBytes := by
  unfold readEntries FileTree.exists? FileTree.leadsTo FileTree.read
  rw [hfile]
  rfl

/-- A file stops the loading exactly if reading its bytes fails in a way that is neither malformed text
    nor a failure of the system. -/
theorem stops_iff {content : FileContent} {time : Int} (hplace : t.resolve p = .ok q)
    (hfile : t.stat q = .ok (.file content time)) :
    Stops t p ↔ ∃ f message, Yaml.Loader.file content.toBytes = .error (.fault f message) ∧ f.isSystem = false := by
  unfold Stops
  rw [fate_eq hplace, readEntries_of_file hfile]
  unfold entriesOf
  cases Yaml.Loader.file content.toBytes with
  | ok d => cases hvalue : d.value <;> simp [Except.map, hvalue]
  | error e =>
    cases e with
    | malformed => simp [Except.map]
    | fault f message => cases hsystem : f.isSystem <;> simp [Except.map, hsystem]

/-- Loading a file that is where it is known does not fail in a way that is not worded. -/
theorem not_stops_of_place (hplace : t.resolve p = .ok p)
    (h : (match readEntries t p (Place.text p) with
      | .error (.fault ..) => true
      | _ => false) = false) : ¬ Stops t p := by
  rintro ⟨f, message, hfate⟩
  rw [fate_eq hplace] at hfate
  cases hread : readEntries t p (Place.text p) with
  | ok entries => rw [hread] at hfate; cases hfate
  | error e =>
    rw [hread] at hfate h
    cases hfate
    cases h

/-! ## What levels hold afterwards -/

/-- What a level holds: its entries, where the mappings in them stand that have more than one place,
    and which of them have been put there and at other places. -/
abbrev Held := Option Mapping × Value.Sharing × List (List Spot)

/-- What a level holds. -/
def levelAt (c : Config κ) (u : Tier) : Held :=
  (c.contents u, c.shared u, (c.across.map fun group => group.filter (·.1 = u)).filter (· ≠ []))

/-- What a level gets from a known file, if it can be loaded. -/
def fresh? (t : FileTree) (p : Place) : Option Held :=
  (fate t p).toOption.map fun (q, entries) => (some (wrap entries), wrapSharing entries (readSharing t q), [])

/-- What a level gets from the last of its files that can be loaded, if there is one. -/
def lastFresh? (t : FileTree) (u : Tier) : List (Place × Tier) → Option Held
  | [] => none
  | e :: files => (lastFresh? t u files).or (if e.2 = u then fresh? t e.1 else none)

/-- What a file gives that is where it is known. -/
theorem fresh?_of_place (hplace : t.resolve p = .ok p) :
    fresh? t p = (readEntries t p (Place.text p)).toOption.map fun entries =>
      (some (wrap entries), wrapSharing entries (readSharing t p), []) := by
  rw [fresh?, fate_eq hplace]
  cases readEntries t p (Place.text p) <;> rfl

theorem lastFresh?_of_notMem (h : u ∉ files.map Prod.snd) : lastFresh? t u files = none := by
  induction files with
  | nil => rfl
  | cons e files ih =>
    rw [List.map_cons, List.mem_cons, not_or] at h
    rw [lastFresh?, ih h.2, if_neg (Ne.symm h.1)]
    rfl

/-- A level with one file gets what is in it. -/
theorem lastFresh?_of_nodup (h : (files.map Prod.snd).Nodup) {e : Place × Tier} (he : e ∈ files) :
    lastFresh? t e.2 files = fresh? t e.1 := by
  induction files with
  | nil => cases he
  | cons first files ih =>
    rw [List.map_cons, List.nodup_cons] at h
    rw [lastFresh?]
    rcases List.mem_cons.mp he with rfl | hmem
    · rw [lastFresh?_of_notMem h.1, if_pos rfl]
      rfl
    · have hne : first.2 ≠ e.2 := fun heq => h.1 (heq ▸ List.mem_map_of_mem hmem)
      rw [ih h.2 hmem, if_neg hne, Option.or_none]

theorem levelAt_taken (c : Config κ) (t : FileTree) (tier u : Tier) (found : Place × Mapping) :
    (c.taken t tier found).levelAt u =
      if u = tier then (some (wrap found.2), wrapSharing found.2 (readSharing t found.1), []) else c.levelAt u := by
  unfold levelAt taken noteTime loadEntries setLevel share
  by_cases hu : u = tier
  · simp [hu]
  · have hkept : ∀ group : List Spot, (group.filter (·.1 != tier)).filter (·.1 = u) = group.filter (·.1 = u) := by
      intro group
      rw [List.filter_filter]
      refine List.filter_congr fun spot _ => ?_
      by_cases hspot : spot.1 = u <;> simp [hspot, hu]
    simp only [if_neg hu, List.map_map, Function.comp_def, hkept]

/-- The configuration with a known file loaded again into a level, if it can be. -/
def reread (c : Config κ) (t : FileTree) (p : Place) (tier : Tier) : Config κ :=
  ((fate t p).toOption.map (c.taken t tier)).getD c

theorem watchers_reread (c : Config κ) (t : FileTree) (p : Place) (tier : Tier) :
    (c.reread t p tier).watchers = c.watchers := by
  unfold reread
  cases (fate t p).toOption <;> rfl

theorem levelAt_reread (c : Config κ) (t : FileTree) (p : Place) (tier u : Tier) :
    (c.reread t p tier).levelAt u = (if tier = u then fresh? t p else none).getD (c.levelAt u) := by
  unfold reread fresh?
  cases (fate t p).toOption with
  | none => split <;> rfl
  | some found =>
    show (c.taken t tier found).levelAt u = _
    rw [levelAt_taken]
    by_cases hu : tier = u
    · rw [if_pos hu, if_pos hu.symm]
      rfl
    · rw [if_neg hu, if_neg (Ne.symm hu)]
      rfl

/-! ## Loading known files again -/

/-- The warning that a file is refused, if it is. -/
def warning? (t : FileTree) (p : Place) : Option LogLine :=
  match fate t p with
  | .error (.config e) =>
    some (.ofCause .warning "Config reload failed, keeping previous values"
      [("file", Place.text p), ("error", e.message)] e.cause)
  | _ => none

/-- The warnings about the files that are refused. -/
def warnings (t : FileTree) (files : List (Place × Tier)) : List (Notice κ) :=
  (files.filterMap fun e => warning? t e.1).map .line

theorem warnings_cons (t : FileTree) (e : Place × Tier) (files : List (Place × Tier)) :
    (warnings t (e :: files) : List (Notice κ)) = ((warning? t e.1).map .line).toList ++ warnings t files := by
  unfold warnings
  rw [List.filterMap_cons]
  cases warning? t e.1 <;> rfl

variable [Stack]

/-- A file that does not stop the loading is loaded, or refused with a warning. -/
theorem reloadFrom_cons (h : ¬ Stops t p) (c : Config κ) (lines : List (Notice κ)) :
    c.reloadFrom t lines ((p, tier) :: files) =
      (c.reread t p tier).reloadFrom t (lines ++ ((warning? t p).map .line).toList) files := by
  rw [reloadFrom, reloadPlace_eq]
  unfold reread warning?
  cases hfate : fate t p with
  | ok found =>
    rw [Option.map_none, Option.toList_none, List.append_nil]
    rfl
  | error e =>
    cases e with
    | config e => rfl
    | fault f message => exact absurd ⟨f, message, hfate⟩ h

/-- The files up to the first one that stops it are loaded or refused, one after the other. -/
theorem reloadFrom_eq (t : FileTree) (files : List (Place × Tier)) (c : Config κ) (lines : List (Notice κ)) :
    ∃ heeded rest c', files = heeded ++ rest ∧ (∀ e ∈ heeded, ¬ Stops t e.1) ∧
      (∀ u, c'.levelAt u = (lastFresh? t u heeded).getD (c.levelAt u)) ∧ c'.watchers = c.watchers ∧
      (rest = [] ∧ c.reloadFrom t lines files = c'.announce (lines ++ warnings t heeded) ∨
        ∃ e more f message, rest = e :: more ∧ fate t e.1 = .error (.fault f message) ∧
          c.reloadFrom t lines files = (c', lines ++ warnings t heeded, .error (.fault f message))) := by
  -- By induction on the files: one that stops the loading ends it before the rest, any other one
  -- changes its level and leaves the rest to what it gives.
  induction files generalizing c lines with
  | nil => exact ⟨[], [], c, rfl, nofun, fun _ => rfl, rfl, .inl ⟨rfl, by rw [reloadFrom, warnings]; simp⟩⟩
  | cons e files ih =>
    obtain ⟨p, tier⟩ := e
    by_cases hstops : Stops t p
    · obtain ⟨f, message, hfate⟩ := hstops
      refine ⟨[], (p, tier) :: files, c, rfl, nofun, fun _ => rfl, rfl,
        .inr ⟨(p, tier), files, f, message, rfl, hfate, ?_⟩⟩
      rw [reloadFrom, reloadPlace_eq, hfate, warnings]
      simp [Except.map]
    · obtain ⟨heeded, rest, c', hfiles, hheeded, hlevels, hwatchers, hends⟩ :=
        ih (c.reread t p tier) (lines ++ ((warning? t p).map .line).toList)
      refine ⟨(p, tier) :: heeded, rest, c', by rw [hfiles]; rfl, List.forall_mem_cons.mpr ⟨hstops, hheeded⟩, ?_,
        hwatchers.trans (watchers_reread c t p tier), ?_⟩
      · intro u
        rw [hlevels, levelAt_reread, lastFresh?]
        cases lastFresh? t u heeded <;> rfl
      · rw [reloadFrom_cons hstops, warnings_cons, ← List.append_assoc lines]
        exact hends

/-- Loading all files of a configuration again, where each level has one file at most.  Up to the first
    file that stops it, the level of each file that can be loaded gets what is in the file, and the level
    of each other one keeps what it holds, with a warning; levels without a file among them keep what
    they hold.  If no file stops it, everybody is told of the merged configuration, unless there is no
    room for merging; if one does, the failure is that of the whole and nobody is told.  A file that is
    gone does not stop it, and one that is there does exactly if reading its bytes fails in a way that is
    neither malformed text nor a failure of the system. -/
theorem reload_levels (hlevels : (c.files.map Prod.snd).Nodup) (t : FileTree) :
    (∃ heeded rest c', c.files = heeded ++ rest ∧ (∀ e ∈ heeded, ¬ Stops t e.1) ∧
      (∀ e ∈ heeded, c'.levelAt e.2 = (fresh? t e.1).getD (c.levelAt e.2)) ∧
      (∀ u, u ∉ heeded.map Prod.snd → c'.levelAt u = c.levelAt u) ∧
      (rest = [] ∧
          (c'.getAll = .ok c'.merged ∧
              c.reload t = (c', warnings t heeded ++ c.watchers.map (.settings · c'.merged), .ok ()) ∨
            c'.getAll = .error .tooDeep ∧ c.reload t = (c', warnings t heeded, .error (.ofMerging .tooDeep))) ∨
        ∃ e more f message, rest = e :: more ∧ fate t e.1 = .error (.fault f message) ∧
          c.reload t = (c', warnings t heeded, .error (.fault f message)))) ∧
    ∀ p q, t.resolve p = .ok q →
      (t.stat q = .error .missing → ¬ Stops t p) ∧
      ∀ content time, t.stat q = .ok (.file content time) →
        (Stops t p ↔
          ∃ f message, Yaml.Loader.file content.toBytes = .error (.fault f message) ∧ f.isSystem = false) := by
  constructor
  · obtain ⟨heeded, rest, c', hfiles, hheeded, hafter, hwatchers, hends⟩ := reloadFrom_eq t c.files c []
    have hnodup : (heeded.map Prod.snd).Nodup := by
      rw [hfiles, List.map_append] at hlevels
      exact hlevels.of_append_left
    refine ⟨heeded, rest, c', hfiles, hheeded, fun e he => ?_, fun u hu => ?_, hends.imp_left ?_⟩
    · rw [hafter, lastFresh?_of_nodup hnodup he]
    · rw [hafter, lastFresh?_of_notMem hu]
      rfl
    · rintro ⟨hrest, hreload⟩
      refine ⟨hrest, c'.getAll_cases.imp (fun hroom => ⟨hroom, ?_⟩) fun hdeep => ⟨hdeep, ?_⟩⟩
      · rw [← hwatchers]
        exact hreload.trans (announce_of_getAll hroom _)
      · exact hreload.trans (announce_of_error hdeep _)
  · intro p q hplace
    refine ⟨fun hgone => ?_, fun content time hfile => stops_iff hplace hfile⟩
    rintro ⟨f, message, hfate⟩
    cases (fate_of_missing hplace hgone).symm.trans hfate

end

/-- Two configuration files. -/
def pairedFiles (a b : List UInt8) : FileTree where
  items := [(["a.yaml"], .file (.bytes a) 0), (["b.yaml"], .file (.bytes b) 0)]

theorem straight_pairedFiles (a b : List UInt8) :
    (pairedFiles a b).Straight ["a.yaml"] ∧ (pairedFiles a b).Straight ["b.yaml"] :=
  have h := FileTree.straight_nil (pairedFiles a b)
  ⟨h.concat (by decide) rfl nofun, h.concat (by decide) rfl nofun⟩

theorem resolve_pairedFiles (a b : List UInt8) :
    (pairedFiles a b).resolve ["a.yaml"] = .ok ["a.yaml"] ∧ (pairedFiles a b).resolve ["b.yaml"] = .ok ["b.yaml"] :=
  have ⟨ha, hb⟩ := straight_pairedFiles a b
  ⟨FileTree.resolve_of_meaningFrom ha.meaningFrom_eq rfl, FileTree.resolve_of_meaningFrom hb.meaningFrom_eq rfl⟩

attribute [local instance] Stack.usual Yaml.Loader.own

/-- A configuration with two files and somebody to be told of changes. -/
def paired : Config Unit :=
  ((initial.addWatcher ()).taken (pairedFiles [] []) .system (["a.yaml"], [])).taken (pairedFiles [] []) .user
    (["b.yaml"], [])

theorem loadAll_paired :
    (initial.addWatcher ()).loadAll (pairedFiles [] []) { folder := [], home := "/" } [("/a.yaml", .system), ("/b.yaml", .user)] =
      .ok paired := by
  obtain ⟨hplaceA, hplaceB⟩ := resolve_pairedFiles [] []
  have hfile : ∀ (c : Config Unit) (p : Place) (path : Text) (tier : Tier),
      Surroundings.resolve { folder := [], home := "/" } (pairedFiles [] []) path = .ok p →
      (readEntries (pairedFiles [] []) p path).toOption.any List.isEmpty = true →
      c.loadFile (pairedFiles [] []) { folder := [], home := "/" } path tier = .ok (c.taken (pairedFiles [] []) tier (p, [])) := by
    intro c p path tier hplace hempty
    unfold loadFile
    rw [hplace]
    show c.loadPlace _ p path tier = _
    rw [loadPlace_eq]
    cases hread : readEntries (pairedFiles [] []) p path with
    | error e => rw [hread] at hempty; cases hempty
    | ok entries =>
      rw [hread] at hempty
      obtain rfl : entries = [] := List.isEmpty_iff.mp hempty
      rfl
  have hfirst := hfile (initial.addWatcher ()) ["a.yaml"] "/a.yaml" .system hplaceA (by decide +kernel)
  have hsecond := hfile ((initial.addWatcher ()).taken (pairedFiles [] []) .system (["a.yaml"], [])) ["b.yaml"]
    "/b.yaml" .user hplaceB (by decide +kernel)
  rw [loadAll, List.foldlM_cons, hfirst]
  show List.foldlM _ (Config.taken _ _ _ _) _ = _
  rw [List.foldlM_cons, hsecond]
  rfl

theorem files_paired : paired.files = ([(["a.yaml"], .system), (["b.yaml"], .user)] : List (Place × Tier)) := by
  decide

/-- The bytes of a file that allows everything. -/
def allowing : List UInt8 := ("default_policy: allow" : Text).map UInt8.ofNat

/-- The text of one file is not in order, and the other one is loaded all the same. -/
theorem reload_levels_malformed :
    ∃ c', (paired.files.map Prod.snd).Nodup ∧
      paired.reload (pairedFiles [91] allowing) =
        (c', warnings (pairedFiles [91] allowing) paired.files ++ [.settings () c'.merged], .ok ()) ∧
      c'.levelAt .system = paired.levelAt .system ∧ (c'.contents .user).bind policyOf = some "allow" := by
  have hnodup : (paired.files.map Prod.snd).Nodup := by decide
  obtain ⟨hplaceA, hplaceB⟩ := resolve_pairedFiles [91] allowing
  obtain ⟨⟨heeded, rest, c', hfiles, -, hlevels, hothers, hends⟩, -⟩ :=
    reload_levels hnodup (pairedFiles [91] allowing)
  have hgoesOn : ∀ e ∈ paired.files, ¬ Stops (pairedFiles [91] allowing) e.1 := by
    intro e he
    simp only [files_paired, List.mem_cons, List.not_mem_nil, or_false] at he
    rcases he with rfl | rfl
    · exact not_stops_of_place hplaceA (by decide +kernel)
    · exact not_stops_of_place hplaceB (by decide +kernel)
  rcases hends with ⟨rfl, hends⟩ | ⟨e, more, f, message, rfl, hfate, -⟩
  · rw [List.append_nil] at hfiles
    subst hfiles
    have hsystem : c'.levelAt .system = paired.levelAt .system := by
      have hmalformed : (readEntries (pairedFiles [91] allowing) ["a.yaml"] (Place.text ["a.yaml"])).toOption.isNone =
          true := by decide +kernel
      rw [hlevels (["a.yaml"], .system) (by decide), fresh?_of_place hplaceA, Option.isNone_iff_eq_none.mp hmalformed]
      rfl
    have hsome : (readEntries (pairedFiles [91] allowing) ["b.yaml"] (Place.text ["b.yaml"])).toOption.isSome =
        true := by decide +kernel
    have huser : c'.contents .user =
        (readEntries (pairedFiles [91] allowing) ["b.yaml"] (Place.text ["b.yaml"])).toOption.map wrap := by
      have hlevel := hlevels (["b.yaml"], .user) (by decide)
      obtain ⟨entries, hentries⟩ := Option.isSome_iff_exists.mp hsome
      rw [fresh?_of_place hplaceB, hentries] at hlevel
      rw [hentries]
      exact congrArg Prod.fst hlevel
    have hcontents : c'.contents = fun u =>
        if u = .user then
          (readEntries (pairedFiles [91] allowing) ["b.yaml"] (Place.text ["b.yaml"])).toOption.map wrap
        else paired.contents u := by
      funext u
      cases u with
      | user => exact huser
      | system => exact congrArg Prod.fst hsystem
      | defaults => exact congrArg Prod.fst (hothers .defaults (by decide))
      | environment => exact congrArg Prod.fst (hothers .environment (by decide))
      | arguments => exact congrArg Prod.fst (hothers .arguments (by decide))
      | runtime => exact congrArg Prod.fst (hothers .runtime (by decide))
    have hroom : c'.getAll.toOption.isSome = true := by
      rw [getAll, hcontents]
      decide +kernel
    refine ⟨c', hnodup, ?_, hsystem, ?_⟩
    · rcases hends with ⟨-, hreload⟩ | ⟨hdeep, -⟩
      · exact hreload
      · rw [hdeep] at hroom
        cases hroom
    · rw [huser]
      decide +kernel
  · exact absurd ⟨f, message, hfate⟩ (hgoesOn e (hfiles ▸ List.mem_append_right _ List.mem_cons_self))

/-- The bytes of one file are no text: the loading fails, the other file is not loaded and nobody is told. -/
theorem reload_undecodable :
    (initial.addWatcher ()).loadAll (pairedFiles [] []) { folder := [], home := "/" }
        [("/a.yaml", .system), ("/b.yaml", .user)] = .ok paired ∧
      (paired.files.map Prod.snd).Nodup ∧ Loads (pairedFiles [255] allowing) ["b.yaml"] ∧
      ∃ message, paired.reload (pairedFiles [255] allowing) = (paired, [], .error (.fault .undecodable message)) := by
  refine ⟨loadAll_paired, by decide, loads_of_isSome (by decide +kernel), ?_⟩
  obtain ⟨hplace, -⟩ := resolve_pairedFiles [255] allowing
  have hbytes : (Encoding.utf8.readText [255]).toOption.isSome = false := by decide +kernel
  cases htext : Encoding.utf8.readText [255] with
  | ok text => rw [htext] at hbytes; cases hbytes
  | error message =>
    have hfate : fate (pairedFiles [255] allowing) ["a.yaml"] = .error (.fault .undecodable message) := by
      have hfile : (pairedFiles [255] allowing).stat ["a.yaml"] = .ok (.file (.bytes [255]) 0) := by rfl
      rw [fate_eq hplace, readEntries_of_file hfile]
      have hload : Yaml.Loader.file [255] = .error (.fault .undecodable message) := by
        show Yaml.loadBytes [255] = _
        unfold Yaml.loadBytes
        rw [htext]
        rfl
      show Except.map _ (entriesOf _ [255]) = _
      unfold entriesOf
      rw [hload]
      rfl
    refine ⟨message, ?_⟩
    rw [reload, files_paired, reloadFrom, reloadPlace_eq, hfate]
    rfl

end NoteAccess.Config
