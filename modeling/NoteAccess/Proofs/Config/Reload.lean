/-
  NoteAccess.Proofs.Config.Reload

  Loading all files again.  What a level holds after files have been loaded is what is
  in the last one of the level (`levelsAfter`), whether they are loaded by their paths or
  again as files that are known.

  The files that are known stand in the order of their first loads, each with the level
  of its last one (`knownAfter`), which is not how they were loaded: a level that a file has
  been loaded into before it went to another one keeps what it had, and of two files of
  one level the one that was loaded first and last comes first.  Where each level ends
  with the same file either way, loading all files again gives what loading them by
  their paths into a new configuration gives (`merged_reload`).
-/

import Mathlib.Data.List.Forall2
import NoteAccess.Config.File
import NoteAccess.Proofs.Config.Merging
import NoteAccess.Proofs.FileTree.Shape
import NoteAccess.Proofs.Outcome
import NoteAccess.Yaml.Document

namespace NoteAccess

namespace Config

open Value (Mapping)

variable {κ : Type} {c c' c'' c₀ : Config κ} {t t' : FileTree} {s : Surroundings} {p q : Place} {u tier : Tier}
  {shown : Text} {entries : Mapping} {files files' placed : List (Place × Tier)} {loads : List (Text × Tier)}

/-! ## The last files of levels -/

/-- The last file of a level. -/
def lastAt (u : Tier) (files : List (Place × Tier)) : Option Place :=
  (files.filter (·.2 = u)).getLast?.map Prod.fst

theorem lastAt_append (u : Tier) (files files' : List (Place × Tier)) :
    lastAt u (files ++ files') = (lastAt u files').or (lastAt u files) := by
  rw [lastAt, List.filter_append, List.getLast?_append, Option.map_or]
  rfl

theorem lastAt_singleton (u tier : Tier) (p : Place) : lastAt u [(p, tier)] = if tier = u then some p else none := by
  unfold lastAt
  by_cases hu : tier = u
  · rw [if_pos hu, List.filter_cons_of_pos (by simpa using hu)]
    rfl
  · rw [if_neg hu, List.filter_cons_of_neg (by simpa using hu)]
    rfl

/-! ## Files that are known -/

/-- The files that are known when files have been loaded. -/
def knownAfter (files : List (Place × Tier)) (before : List (Place × Tier)) : List (Place × Tier) :=
  files.foldl (fun known e => assign e.1 e.2 known) before

theorem fst_of_mem_assign {e : Place × Tier} (h : e ∈ assign p tier files) : e.1 = p ∨ ∃ e' ∈ files, e'.1 = e.1 := by
  unfold assign at h
  split at h
  · obtain ⟨old, hold, rfl⟩ := List.mem_map.mp h
    refine .inr ⟨old, hold, ?_⟩
    dsimp only
    split <;> rfl
  · rcases List.mem_append.mp h with h | h
    · exact .inr ⟨e, h, rfl⟩
    · exact .inl (congrArg Prod.fst (List.mem_singleton.mp h))

/-- Every file that is known has been loaded. -/
theorem exists_mem_of_knownAfter {e : Place × Tier} (h : e ∈ knownAfter files files') :
    ∃ e' ∈ files ++ files', e'.1 = e.1 := by
  induction files generalizing files' with
  | nil => exact ⟨e, h, rfl⟩
  | cons file files ih =>
    obtain ⟨e', hmem, he⟩ := ih h
    rcases List.mem_append.mp hmem with hmem | hmem
    · exact ⟨e', List.mem_cons_of_mem _ (List.mem_append_left _ hmem), he⟩
    · rcases fst_of_mem_assign hmem with hfile | ⟨old, hold, hfile⟩
      · exact ⟨file, List.mem_cons_self, hfile.symm.trans he⟩
      · exact ⟨old, List.mem_cons_of_mem _ (List.mem_append_right _ hold), hfile.trans he⟩

/-- Files of which none is loaded twice are known as they are loaded. -/
theorem knownAfter_of_nodup (h : ((files' ++ files).map Prod.fst).Nodup) :
    knownAfter files files' = files' ++ files := by
  induction files generalizing files' with
  | nil => exact (List.append_nil files').symm
  | cons e files ih =>
    -- A file that is not known yet comes last.
    have hlookup : files'.lookup e.1 = none := by
      rw [List.lookup_eq_none_iff]
      intro e' he'
      rw [List.map_append, List.nodup_append] at h
      have hne := h.2.2 e'.1 (List.mem_map_of_mem he') e.1 List.mem_cons_self
      simpa using Ne.symm hne
    have hassign : assign e.1 e.2 files' = files' ++ [e] := by
      rw [assign, hlookup]
      rfl
    show knownAfter files (assign e.1 e.2 files') = _
    rw [hassign, ih (by rwa [List.append_assoc]), List.append_assoc]
    rfl

/-! ## Telling of files that have been loaded -/

/-- The levels can be merged, and that is told. -/
theorem announce_of_getAll [Stack] {merged : Mapping} (h : c.getAll = .ok merged) (lines : List (Notice κ)) :
    c.announce lines = (c, lines ++ c.noticesOf merged, .ok ()) := by
  unfold announce notices
  rw [h]
  rfl

/-- There is no room for merging, and nobody is told. -/
theorem announce_of_error [Stack] {f : Fault} (h : c.getAll = .error f) (lines : List (Notice κ)) :
    c.announce lines = (c, lines, .error (.ofMerging f)) := by
  unfold announce notices
  rw [h]
  rfl

/-! ## Where loads lead -/

/-- The path of a load leads to a file, which is loaded into the same level. -/
def Leads (t : FileTree) (s : Surroundings) (load : Text × Tier) (file : Place × Tier) : Prop :=
  s.resolve t load.1 = .ok file.1 ∧ load.2 = file.2

theorem Leads.unique {load : Text × Tier} {file file' : Place × Tier} (h : Leads t s load file)
    (h' : Leads t s load file') : file = file' :=
  Prod.ext (Except.ok.inj (h.1.symm.trans h'.1)) (h.2.symm.trans h'.2)

section

variable [Yaml.Loader]

/-! ## What a file holds -/

/-- The path that is shown in messages has no effect on what is read. -/
theorem toOption_readEntries (t : FileTree) (p : Place) (shown shown' : Text) :
    (readEntries t p shown).toOption = (readEntries t p shown').toOption := by
  unfold readEntries
  refine toOption_bind_congr rfl fun there => ?_
  split
  · rfl
  refine toOption_bind_congr (by rw [toOption_mapError, toOption_mapError]) fun content => ?_
  unfold entriesOf
  cases (Yaml.Loader.file content.toBytes).map Yaml.Document.value with
  | error e => cases e <;> rfl
  | ok v => cases v <;> rfl

/-- The entries that a level has from the file at a place, if it can be loaded. -/
def entriesAt? (t : FileTree) (p : Place) : Option Mapping := (readEntries t p []).toOption.map wrap

/-- The file at a place can be loaded. -/
def Loads (t : FileTree) (p : Place) : Prop := ∃ entries, readEntries t p [] = .ok entries

theorem loads_of_isSome (h : (readEntries t p []).toOption.isSome = true) : Loads t p := by
  obtain ⟨entries, hentries⟩ := Option.isSome_iff_exists.mp h
  exact ⟨entries, eq_ok_of_toOption hentries⟩

/-! ## What levels hold -/

/-- What levels hold when files have been loaded: what is in the last one of the level, or what
    they held before. -/
def levelsAfter (t : FileTree) (files : List (Place × Tier)) (before : Tier → Option Mapping) (u : Tier) :
    Option Mapping :=
  match lastAt u files with
  | some p => entriesAt? t p
  | none => before u

theorem levelsAfter_append (before : Tier → Option Mapping) :
    levelsAfter t (files ++ files') before = levelsAfter t files' (levelsAfter t files before) := by
  funext u
  unfold levelsAfter
  rw [lastAt_append]
  cases lastAt u files' <;> rfl

/-- One configuration is the other one with files loaded, one after the other. -/
structure Loaded (t : FileTree) (files : List (Place × Tier)) (c c' : Config κ) : Prop where
  files_eq : c'.files = knownAfter files c.files
  contents_eq : c'.contents = levelsAfter t files c.contents

theorem Loaded.refl (t : FileTree) (c : Config κ) : Loaded t [] c c := ⟨rfl, rfl⟩

theorem Loaded.append (h : Loaded t files c c') (h' : Loaded t files' c' c'') : Loaded t (files ++ files') c c'' where
  files_eq := by
    rw [h'.files_eq, h.files_eq]
    exact List.foldl_append.symm
  contents_eq := by rw [h'.contents_eq, h.contents_eq, levelsAfter_append]

/-! ## Loading one file -/

/-- A file that can be read has a time. -/
theorem exists_time (h : readEntries t p shown = .ok entries) : ∃ time, t.time p = .ok time := by
  have hread : Gives (fun _ => ∃ time, t.time p = .ok time) (t.read p) := by
    unfold FileTree.read FileTree.time
    cases t.stat p with
    | error f => exact gives_error f
    | ok i =>
      cases i with
      | file content time => exact fun _ _ => ⟨time, rfl⟩
      | _ => exact gives_error _
  have hentries : Gives (fun _ => ∃ time, t.time p = .ok time) (readEntries t p shown) := by
    unfold readEntries
    refine gives_bind fun there => ?_
    split
    · exact gives_error _
    · exact hread.mapError.bind fun _ htime _ _ => htime
  exact hentries entries h

/-- A file that can be loaded is loaded. -/
theorem exists_loadPlace (h : Loads t p) (c : Config κ) (shown : Text) (tier : Tier) :
    ∃ c', c.loadPlace t p shown tier = .ok c' ∧ Loaded t [(p, tier)] c c' := by
  obtain ⟨entries, hread⟩ := h
  have hentries : entriesAt? t p = some (wrap entries) := by
    rw [entriesAt?, hread]
    rfl
  have hshown : readEntries t p shown = .ok entries := by
    refine eq_ok_of_toOption ?_
    rw [toOption_readEntries t p shown [], hread]
    rfl
  obtain ⟨time, htime⟩ := exists_time hshown
  unfold loadPlace
  rw [hshown, htime]
  refine ⟨_, rfl, rfl, ?_⟩
  funext u
  show (if u = tier then some (wrap entries) else c.contents u) = _
  rw [levelsAfter, lastAt_singleton]
  by_cases hu : u = tier
  · rw [if_pos hu, if_pos hu.symm]
    exact hentries.symm
  · rw [if_neg hu, if_neg (Ne.symm hu)]

theorem loaded_of_loadPlace (h : c.loadPlace t p shown tier = .ok c') : Loaded t [(p, tier)] c c' := by
  have hloads : Loads t p := by
    cases hread : readEntries t p shown with
    | error e =>
      unfold loadPlace at h
      rw [hread] at h
      cases h
    | ok entries =>
      refine ⟨entries, eq_ok_of_toOption ?_⟩
      rw [toOption_readEntries t p [] shown, hread]
      rfl
  obtain ⟨c'', hload, hloaded⟩ := exists_loadPlace hloads c shown tier
  cases h.symm.trans hload
  exact hloaded

/-! ## Loading files by their paths -/

/-- The configuration with files loaded into levels, one after the other. -/
def loadAll (c : Config κ) (t : FileTree) (s : Surroundings) (loads : List (Text × Tier)) :
    Except LoadError (Config κ) :=
  loads.foldlM (fun c load => c.loadFile t s load.1 load.2) c

theorem loaded_of_loadAll (h : c.loadAll t s loads = .ok c') :
    ∃ placed, List.Forall₂ (Leads t s) loads placed ∧ Loaded t placed c c' := by
  -- By induction on the loads: the first one leads to a file, the rest goes on from what it gives.
  induction loads generalizing c with
  | nil =>
    cases h
    exact ⟨[], .nil, .refl t _⟩
  | cons load loads ih =>
    rw [loadAll, List.foldlM_cons] at h
    cases hload : c.loadFile t s load.1 load.2 with
    | error e => rw [hload] at h; cases h
    | ok next =>
      rw [hload] at h
      obtain ⟨placed, hleads, hloaded⟩ := ih h
      unfold loadFile at hload
      cases hplace : s.resolve t load.1 with
      | error f => rw [hplace] at hload; cases hload
      | ok p =>
        rw [hplace] at hload
        exact ⟨(p, load.2) :: placed, .cons ⟨hplace, rfl⟩ hleads, (loaded_of_loadPlace hload).append hloaded⟩

/-- The path of a load leads to a file that can be loaded, and can be loaded again. -/
structure Ready (t : FileTree) (s : Surroundings) (load : Text × Tier) (file : Place × Tier) : Prop where
  leads : Leads t s load file
  self : t.resolve file.1 = .ok file.1
  loads : Loads t file.1

/-- Where a path leads, and that the place means itself, does not depend on what is in the files. -/
theorem Leads.ready {load : Text × Tier} {file : Place × Tier} (h : Leads t s load file) (hshape : t'.shape = t.shape)
    (hends : ∀ path, s.locate load.1 = .ok path → t.Ends path.segments) (hvalid : Loads t' file.1) :
    Ready t' s load file := by
  obtain ⟨hresolve, htier⟩ := h
  have hsame := FileTree.sameShape_of_shape hshape
  unfold Surroundings.resolve at hresolve
  cases hpath : s.locate load.1 with
  | error f => rw [hpath] at hresolve; cases hresolve
  | ok path =>
    rw [hpath] at hresolve
    change t.resolve path.segments = .ok file.1 at hresolve
    refine ⟨⟨?_, htier⟩, ?_, hvalid⟩
    · unfold Surroundings.resolve
      rw [hpath]
      exact (FileTree.resolve_congr hsame path.segments).trans hresolve
    · rw [FileTree.resolve_congr hsame]
      exact FileTree.resolve_resolve (hends path hpath) hresolve

theorem exists_loadAll (h : List.Forall₂ (Ready t s) loads placed) (c : Config κ) :
    ∃ c', c.loadAll t s loads = .ok c' ∧ Loaded t placed c c' := by
  induction h generalizing c with
  | nil => exact ⟨c, rfl, .refl t c⟩
  | @cons load file loads placed hready _ ih =>
    obtain ⟨hlead, -, hfile⟩ := hready
    obtain ⟨next, hload, hloaded⟩ := exists_loadPlace hfile c load.1 load.2
    obtain ⟨c', hall, hloadedAll⟩ := ih next
    refine ⟨c', ?_, ?_⟩
    · rw [loadAll, List.foldlM_cons, loadFile, hlead.1]
      show (c.loadPlace t file.1 load.1 load.2).bind _ = _
      rw [hload]
      exact hall
    · rw [hlead.2] at hloaded
      exact hloaded.append hloadedAll

/-! ## Loading known files again -/

variable [Stack]

theorem reloadFrom_of_loads (hself : ∀ e ∈ files, t.resolve e.1 = .ok e.1) (hloads : ∀ e ∈ files, Loads t e.1)
    (c : Config κ) (lines : List (Notice κ)) :
    ∃ c', c.reloadFrom t lines files = c'.announce lines ∧ Loaded t files c c' := by
  induction files generalizing c with
  | nil => exact ⟨c, rfl, .refl t c⟩
  | cons e files ih =>
    obtain ⟨hplace, hself⟩ := List.forall_mem_cons.mp hself
    obtain ⟨hfile, hloads⟩ := List.forall_mem_cons.mp hloads
    obtain ⟨next, hload, hloaded⟩ := exists_loadPlace hfile c (Place.text e.1) e.2
    obtain ⟨c', hrest, hloadedRest⟩ := ih hself hloads next
    refine ⟨c', ?_, hloaded.append hloadedRest⟩
    have hreload : c.reloadPlace t e.1 e.2 = .ok next := by
      unfold reloadPlace
      rw [hplace]
      exact hload
    rw [reloadFrom, hreload]
    exact hrest

/-- Loading all files of a configuration again, when they have been written anew. -/
theorem exists_reload (hnew : c₀.files = []) (hloaded : Loaded t placed c₀ c)
    (hready : List.Forall₂ (Ready t' s) loads placed) :
    ∃ again : Config κ, c.reload t' = again.announce [] ∧
      again.contents = levelsAfter t' (knownAfter placed []) (levelsAfter t placed c₀.contents) := by
  have hfiles : c.files = knownAfter placed [] := by rw [hloaded.files_eq, hnew]
  have hplaced : ∀ e ∈ placed, t'.resolve e.1 = .ok e.1 ∧ Loads t' e.1 := by
    have hboth : List.Forall₂ (fun e load => (t'.resolve e.1 = .ok e.1 ∧ Loads t' e.1) ∧ Leads t' s load e)
        placed loads :=
      (hready.imp fun _ _ h => ⟨⟨h.self, h.loads⟩, h.leads⟩).flip
    exact ((List.forall₂_and_left placed loads).mp hboth).1
  -- The files that are known are among those that were loaded, whatever their levels are.
  have hknown : ∀ e ∈ c.files, t'.resolve e.1 = .ok e.1 ∧ Loads t' e.1 := by
    intro e he
    rw [hfiles] at he
    obtain ⟨e', hmem, hfst⟩ := exists_mem_of_knownAfter he
    rw [List.append_nil] at hmem
    rw [← hfst]
    exact hplaced e' hmem
  obtain ⟨again, hreload, hagain⟩ :=
    reloadFrom_of_loads (fun e he => (hknown e he).1) (fun e he => (hknown e he).2) c []
  exact ⟨again, hreload, by rw [hagain.contents_eq, hfiles, hloaded.contents_eq]⟩

/-- Files are loaded by their paths into a new configuration and then written anew, so that they can
    still be loaded; the links on the way to them come to an end.  Then a new configuration can load
    them by the same paths, and so can the old one when it loads all files again, which it tells at the
    end.  In the new one a level holds what is in the last file that was loaded into it; in the other one
    what is in the last known file of the level, or, if no known file is of the level any more, what it
    held before.  If the last file of each level is the same among the known ones, the merged
    configurations are the same, and so are copies of them. -/
theorem merged_reload (hnew : c₀.files = []) (h : c₀.loadAll t s loads = .ok c) (hshape : t'.shape = t.shape)
    (hends : ∀ load ∈ loads, ∀ path, s.locate load.1 = .ok path → t.Ends path.segments)
    (hvalid : ∀ load ∈ loads, ∀ p, s.resolve t load.1 = .ok p → Loads t' p) :
    ∃ (placed : List (Place × Tier)) (fresh again : Config κ), List.Forall₂ (Leads t s) loads placed ∧
      c₀.loadAll t' s loads = .ok fresh ∧ c.reload t' = again.announce [] ∧
      fresh.contents = levelsAfter t' placed c₀.contents ∧
      again.contents = levelsAfter t' (knownAfter placed []) (levelsAfter t placed c₀.contents) ∧
      ((∀ u, lastAt u (knownAfter placed []) = lastAt u placed) →
        again.merged = fresh.merged ∧ again.getAll = fresh.getAll) := by
  obtain ⟨placed, hleads, hloaded⟩ := loaded_of_loadAll h
  -- Every file that was loaded is where it was, means itself and can be loaded.
  have hready : List.Forall₂ (Ready t' s) loads placed := by
    refine ((List.forall₂_and_left loads placed).mpr ⟨fun load hload => hload, hleads⟩).imp ?_
    rintro load file ⟨hload, hlead⟩
    exact hlead.ready hshape (hends load hload) (hvalid load hload file.1 hlead.1)
  obtain ⟨fresh, hall, hfresh⟩ := exists_loadAll hready c₀
  obtain ⟨again, hreload, hagain⟩ := exists_reload hnew hloaded hready
  refine ⟨placed, fresh, again, hleads, hall, hreload, hfresh.contents_eq, hagain, fun hlast => ?_⟩
  have hcontents : again.contents = fresh.contents := by
    rw [hagain, hfresh.contents_eq]
    funext u
    unfold levelsAfter
    rw [hlast u]
    cases lastAt u placed <;> rfl
  constructor
  · rw [merged, merged, hcontents]
  · rw [getAll, getAll, hcontents]

end

/-- A configuration file with a link to it, and another one. -/
def linkedFiles (text : Text) : FileTree where
  items := [
    (["a.yaml"], .file (.bytes ((Utf8.encode? text).getD [])) 0),
    (["b.yaml"], .link "a.yaml"),
    (["c.yaml"], .file (.bytes []) 0)]

theorem straight_linkedFiles (text : Text) :
    (linkedFiles text).Straight ["a.yaml"] ∧ (linkedFiles text).Straight ["c.yaml"] :=
  have h := FileTree.straight_nil (linkedFiles text)
  ⟨h.concat (by decide) rfl nofun, h.concat (by decide) rfl nofun⟩

theorem meaningFrom_linkedFiles (text : Text) :
    (linkedFiles text).meaningFrom (linkedFiles text).items.length [] [] ["b.yaml"] = .ok (["a.yaml"], true) := by
  have hlink : (linkedFiles text).item? (([] : Place) ++ [("b.yaml" : Text)]) = some (.link "a.yaml") := rfl
  exact FileTree.meaningFrom_link_end (by decide) rfl hlink rfl (straight_linkedFiles text).1.meaningFrom_eq

/-- The default policy of a merged configuration. -/
def policyOf (m : Mapping) : Option Text :=
  match Value.atPath? (namesOf "vaultgate.default_policy") (.dict m) with
  | some (.text policy) => some policy
  | _ => none

attribute [local instance] Stack.usual Yaml.Loader.own

/-- Two files, of which one is loaded by a link. -/
theorem merged_reload_linked :
    ∃ c fresh again : Config Unit, (initial : Config Unit).files = [] ∧
      initial.loadAll (linkedFiles "{}") { folder := [], home := "/" } [("/c.yaml", .system), ("/b.yaml", .user)] = .ok c ∧
      (linkedFiles "default_policy: allow").shape = (linkedFiles "{}").shape ∧
      initial.loadAll (linkedFiles "default_policy: allow") { folder := [], home := "/" } [("/c.yaml", .system), ("/b.yaml", .user)] =
        .ok fresh ∧
      c.reload (linkedFiles "default_policy: allow") = again.announce [] ∧
      again.merged = fresh.merged ∧ again.getAll = fresh.getAll := by
  obtain ⟨ha, hc⟩ := straight_linkedFiles "{}"
  have hb := meaningFrom_linkedFiles "{}"
  have hselfA : (linkedFiles "{}").resolve ["a.yaml"] = .ok ["a.yaml"] :=
    FileTree.resolve_of_meaningFrom ha.meaningFrom_eq rfl
  have hselfC : (linkedFiles "{}").resolve ["c.yaml"] = .ok ["c.yaml"] :=
    FileTree.resolve_of_meaningFrom hc.meaningFrom_eq rfl
  have hleadsC : Leads (linkedFiles "{}") { folder := [], home := "/" } ("/c.yaml", .system) (["c.yaml"], .system) := ⟨hselfC, rfl⟩
  have hleadsB : Leads (linkedFiles "{}") { folder := [], home := "/" } ("/b.yaml", .user) (["a.yaml"], .user) :=
    ⟨FileTree.resolve_of_meaningFrom hb rfl, rfl⟩
  have hready : List.Forall₂ (Ready (linkedFiles "{}") { folder := [], home := "/" }) [("/c.yaml", .system), ("/b.yaml", .user)]
      [(["c.yaml"], .system), (["a.yaml"], .user)] :=
    .cons ⟨hleadsC, hselfC, loads_of_isSome (by decide +kernel)⟩
      (.cons ⟨hleadsB, hselfA, loads_of_isSome (by decide +kernel)⟩ .nil)
  obtain ⟨c, hload, -⟩ := exists_loadAll hready (initial : Config Unit)
  have hshape : (linkedFiles "default_policy: allow").shape = (linkedFiles "{}").shape := rfl
  obtain ⟨placed, fresh, again, hleads, hfresh, hagain, -, -, hmerged⟩ := merged_reload rfl hload hshape
    (by
      simp only [List.forall_mem_cons, List.not_mem_nil, false_imp_iff, implies_true, and_true]
      refine ⟨fun path hpath => ?_, fun path hpath => ?_⟩
      · cases hpath
        exact ⟨_, hc.meaningFrom_eq⟩
      · cases hpath
        exact ⟨_, hb⟩)
    (by
      simp only [List.forall_mem_cons, List.not_mem_nil, false_imp_iff, implies_true, and_true]
      refine ⟨fun p hp => ?_, fun p hp => ?_⟩
      · cases hleadsC.1.symm.trans hp
        exact loads_of_isSome (by decide +kernel)
      · cases hleadsB.1.symm.trans hp
        exact loads_of_isSome (by decide +kernel))
  refine ⟨c, fresh, again, rfl, hload, hshape, hfresh, hagain, hmerged ?_⟩
  -- No file is loaded twice.
  cases hleads with
  | cons hfirst hrest =>
    cases hrest with
    | cons hsecond hrest =>
      cases hrest
      obtain rfl := hfirst.unique hleadsC
      obtain rfl := hsecond.unique hleadsB
      intro u
      rw [knownAfter_of_nodup (by decide)]
      rfl

/-- A file is loaded at two levels and then emptied.  Loading it again empties the level of its last
    load only, and what it gave at first holds on. -/
theorem reload_ne_of_twoLevels :
    ∃ c fresh again : Config Unit,
      initial.loadAll (linkedFiles "default_policy: allow") { folder := [], home := "/" } [("/a.yaml", .system), ("/a.yaml", .user)] =
        .ok c ∧
      (linkedFiles "{}").shape = (linkedFiles "default_policy: allow").shape ∧
      (linkedFiles "default_policy: allow").Ends ["a.yaml"] ∧ Loads (linkedFiles "{}") ["a.yaml"] ∧
      initial.loadAll (linkedFiles "{}") { folder := [], home := "/" } [("/a.yaml", .system), ("/a.yaml", .user)] = .ok fresh ∧
      c.reload (linkedFiles "{}") = (again, again.noticesOf again.merged, .ok ()) ∧
      again.getAll = .ok again.merged ∧ policyOf again.merged = some "allow" ∧
      fresh.getAll = .ok fresh.merged ∧ policyOf fresh.merged = some "deny" := by
  have hready : ∀ text : Text, Loads (linkedFiles text) ["a.yaml"] →
      List.Forall₂ (Ready (linkedFiles text) { folder := [], home := "/" })
      [("/a.yaml", .system), ("/a.yaml", .user)] [(["a.yaml"], .system), (["a.yaml"], .user)] := by
    intro text hloads
    have hself : (linkedFiles text).resolve ["a.yaml"] = .ok ["a.yaml"] :=
      FileTree.resolve_of_meaningFrom (straight_linkedFiles text).1.meaningFrom_eq rfl
    exact .cons ⟨⟨hself, rfl⟩, hself, hloads⟩ (.cons ⟨⟨hself, rfl⟩, hself, hloads⟩ .nil)
  have hallow : Loads (linkedFiles "default_policy: allow") ["a.yaml"] := loads_of_isSome (by decide +kernel)
  have hempty : Loads (linkedFiles "{}") ["a.yaml"] := loads_of_isSome (by decide +kernel)
  obtain ⟨c, hload, hloaded⟩ := exists_loadAll (hready _ hallow) (initial : Config Unit)
  obtain ⟨fresh, hfresh, hloadedFresh⟩ := exists_loadAll (hready _ hempty) (initial : Config Unit)
  obtain ⟨again, hagain, hlevels⟩ := exists_reload rfl hloaded (hready _ hempty)
  have hroom : again.getAll = .ok again.merged := by
    refine getAll_of_isSome ?_
    rw [getAll, hlevels]
    decide +kernel
  have hroomFresh : fresh.getAll = .ok fresh.merged := by
    refine getAll_of_isSome ?_
    rw [getAll, hloadedFresh.contents_eq]
    decide +kernel
  refine ⟨c, fresh, again, hload, rfl, ⟨_, (straight_linkedFiles _).1.meaningFrom_eq⟩, hempty, hfresh,
    hagain.trans (announce_of_getAll hroom []), hroom, ?_, hroomFresh, ?_⟩
  · rw [merged, hlevels]
    decide +kernel
  · rw [merged, hloadedFresh.contents_eq]
    decide +kernel

end Config

end NoteAccess
