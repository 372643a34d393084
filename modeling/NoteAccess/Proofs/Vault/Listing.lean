/-
  NoteAccess.Proofs.Vault.Listing

  The files that a vault lists, and what it answers about them.  A listed path leads to a file
  (`exists_place_of_mem_files`).  The lookups of tags and content know of the file exactly if it
  is in the vault (`found_iff_of_listed`): a link in the vault is listed wherever its file is, but
  a path that leads out of the vault is not found (`listed_not_found`).
-/

import NoteAccess.Proofs.FileTree.Walk
import NoteAccess.Proofs.Vault.Isolation

namespace NoteAccess.Vault

variable {v : Vault} {t : FileTree} {directory path : Text} {listed : List Text} {p q : Place} {i : FileItem}

/-! ## Listed paths -/

theorem mem_filterM {α ε : Type} {f : α → Except ε Bool} {xs ys : List α} {a : α} (h : xs.filterM f = .ok ys)
    (ha : a ∈ ys) : a ∈ xs ∧ f a = .ok true := by
  -- The auxiliary recursion keeps what it has found so far in reverse.
  have haux : ∀ acc zs, xs.filterAuxM f acc = .ok zs → a ∈ zs → a ∈ acc ∨ (a ∈ xs ∧ f a = .ok true) := by
    clear h ha
    induction xs with
    | nil =>
      intro acc zs hzs ha
      cases hzs
      exact .inl ha
    | cons x xs ih =>
      intro acc zs hzs ha
      unfold List.filterAuxM at hzs
      cases hx : f x with
      | error e => rw [hx] at hzs; cases hzs
      | ok keep =>
        rw [hx] at hzs
        rcases ih _ zs hzs ha with hacc | ⟨hmem, hf⟩
        · cases keep with
          | false => exact .inl hacc
          | true =>
            rcases List.mem_cons.mp hacc with rfl | hacc
            · exact .inr ⟨List.mem_cons_self, hx⟩
            · exact .inl hacc
        · exact .inr ⟨List.mem_cons_of_mem x hmem, hf⟩
  unfold List.filterM at h
  cases hzs : xs.filterAuxM f [] with
  | error e => rw [hzs] at h; cases h
  | ok zs =>
    rw [hzs] at h
    cases h
    exact (haux [] zs hzs (List.mem_reverse.mp ha)).resolve_left List.not_mem_nil

/-- The paths of the files in a place. -/
def filesIn (v : Vault) (t : FileTree) (base : Place) : Except Fault (List Text) := do
  if !(← t.isFolder base) then return []
  let within := (t.items.map (·.1)).filter fun p =>
    base.isPrefixOf p && !(p.drop v.root.length).dropLast.any isHidden
  let found ← within.filterM t.isFile
  return (found.mergeSort placeLe).map fun p => Text.join [CodePoint.slash] (p.drop v.root.length)

theorem files_eq (v : Vault) (t : FileTree) (directory : Text) :
    v.files t directory =
      (if directory.isEmpty then .ok (some v.root) else v.resolve t directory).bind fun base =>
        base.elim (.ok []) (v.filesIn t) := by
  unfold files
  split
  · rfl
  · cases v.resolve t directory with
    | error f => rfl
    | ok base => cases base <;> rfl

/-- A path of a file in a place is that of something in the place that leads to a file. -/
theorem mem_filesIn {base : Place} (h : v.filesIn t base = .ok listed) (hpath : path ∈ listed) :
    ∃ p ∈ t.items.map Prod.fst, base <+: p ∧ t.isFile p = .ok true ∧
      path = Text.join [CodePoint.slash] (p.drop v.root.length) := by
  unfold filesIn at h
  cases hfolder : t.isFolder base with
  | error f => rw [hfolder] at h; cases h
  | ok folder =>
    rw [hfolder] at h
    cases folder with
    | false => cases h; exact absurd hpath List.not_mem_nil
    | true =>
      dsimp only [bind, Except.bind] at h
      generalize hwithin : (t.items.map (·.1)).filter _ = within at h
      cases hfound : within.filterM t.isFile with
      | error f =>
        rw [if_neg (by decide), hfound] at h
        cases h
      | ok found =>
        rw [if_neg (by decide), hfound] at h
        cases h
        obtain ⟨p, hp, rfl⟩ := List.mem_map.mp hpath
        obtain ⟨hmem, hfile⟩ := mem_filterM hfound (List.mem_mergeSort.mp hp)
        rw [← hwithin, List.mem_filter, Bool.and_eq_true] at hmem
        exact ⟨p, hmem.1, List.isPrefixOf_iff_prefix.mp hmem.2.1, hfile, rfl⟩

/-- A listed path is that of something in the vault that leads to a file. -/
theorem exists_place_of_mem_files (h : v.files t directory = .ok listed) (hpath : path ∈ listed) :
    ∃ names, v.root ++ names ∈ t.items.map Prod.fst ∧ t.isFile (v.root ++ names) = .ok true ∧
      path = Text.join [CodePoint.slash] names := by
  have hbase : ∃ base, v.root <+: base ∧ v.filesIn t base = .ok listed := by
    rw [files_eq] at h
    split at h
    · exact ⟨v.root, List.prefix_refl v.root, h⟩
    · cases hresolve : v.resolve t directory with
      | error f => rw [hresolve] at h; cases h
      | ok base =>
        rw [hresolve] at h
        cases base with
        | none => cases h; exact absurd hpath List.not_mem_nil
        | some base => exact ⟨base, (resolve_eq_ok_some hresolve).2, h⟩
  obtain ⟨base, hroot, hfiles⟩ := hbase
  obtain ⟨p, hmem, hprefix, hfile, rfl⟩ := mem_filesIn hfiles hpath
  obtain ⟨names, rfl⟩ := hroot.trans hprefix
  exact ⟨names, hmem, hfile, by rw [List.drop_left]⟩

/-! ## Answers about listed paths -/

theorem tags_eq_notFound_iff [Yaml.Loader] [Stack] : v.tags t path = .ok .notFound ↔ v.find t path = .ok none := by
  unfold tags
  cases v.find t path with
  | error f => exact ⟨nofun, nofun⟩
  | ok place =>
    cases place with
    | none => exact ⟨fun _ => rfl, fun _ => rfl⟩
    | some p =>
      refine iff_of_false (fun h => ?_) nofun
      dsimp only [bind, Except.bind, Except.mapError] at h
      split at h
      · cases h
      split at h
      · cases h
      split at h
      · cases h
      · cases h
      · split at h
        · cases h
        · cases h

theorem content_eq_notFound_iff : v.content t path = .ok .notFound ↔ v.find t path = .ok none := by
  unfold content
  cases v.find t path with
  | error f => exact ⟨nofun, nofun⟩
  | ok place =>
    cases place with
    | none => exact ⟨fun _ => rfl, fun _ => rfl⟩
    | some p =>
      refine iff_of_false (fun h => ?_) nofun
      dsimp only [bind, Except.bind, Except.mapError] at h
      split at h
      · cases h
      split at h
      · cases h
      · cases h

theorem stat_of_isFile (h : t.isFile p = .ok true) : ∃ content time, t.stat p = .ok (.file content time) := by
  unfold FileTree.isFile FileTree.leadsTo at h
  cases hstat : t.stat p with
  | error f =>
    rw [hstat] at h
    cases f <;> cases h
  | ok i =>
    rw [hstat] at h
    cases i with
    | file content time => exact ⟨content, time, rfl⟩
    | folder => cases h
    | link target => cases h

/-- A vault with a note, a link to it, and a link to a file next to the vault. -/
def linkedTree : FileTree where
  items := [(["vault"], .folder), (["vault", "in.md"], .link "note.md"),
    (["vault", "note.md"], .file (.bytes [35, 97]) 0), (["vault", "out.md"], .link "../secret.md"),
    (["secret.md"], .file (.bytes [35, 98]) 0)]

theorem wellFormed_linkedTree : linkedTree.WellFormed := by
  refine FileTree.wellFormed_of_items fun p i h => ?_
  simp only [linkedTree, List.mem_cons, List.not_mem_nil, or_false, Prod.mk.injEq] at h
  rcases h with ⟨rfl, rfl⟩ | ⟨rfl, rfl⟩ | ⟨rfl, rfl⟩ | ⟨rfl, rfl⟩ | ⟨rfl, rfl⟩
  · exact ⟨by decide, rfl, nofun⟩
  · refine ⟨by decide, rfl, fun target h => ?_⟩
    cases h
    decide
  · exact ⟨by decide, rfl, nofun⟩
  · refine ⟨by decide, rfl, fun target h => ?_⟩
    cases h
    decide
  · exact ⟨by decide, rfl, nofun⟩

theorem files_linkedTree : folderVault.files linkedTree [] = .ok ["in.md", "note.md", "out.md"] := by
  let found : List Place := [["vault", "in.md"], ["vault", "note.md"], ["vault", "out.md"]]
  have hsorted : found.mergeSort placeLe = found := List.mergeSort_of_pairwise (by decide)
  have hfiles : folderVault.files linkedTree [] =
      .ok ((found.mergeSort placeLe).map fun p => Text.join [CodePoint.slash] (p.drop 1)) := rfl
  rw [hfiles, hsorted]
  rfl

/-- A listed path leads to a file.  It is resolved to the place of the file if this is in the vault,
    and to none otherwise, and only then its tags and its content are not found. -/
theorem found_iff_of_listed [Yaml.Loader] [Stack] (ht : t.WellFormed) (h : v.files t directory = .ok listed)
    (hpath : path ∈ listed) :
    ∃ p content time, t.locate (v.root ++ FilePath.segmentsOf path) = .ok (p, some (.file content time)) ∧
      v.resolve t path = .ok (if v.root.isPrefixOf p then some p else none) ∧
      (v.tags t path = .ok .notFound ↔ ¬ v.root <+: p) ∧ (v.content t path = .ok .notFound ↔ ¬ v.root <+: p) := by
  obtain ⟨names, hmem, hfile, rfl⟩ := exists_place_of_mem_files h hpath
  have hnames : FilePath.segmentsOf (Text.join [CodePoint.slash] names) = names :=
    FilePath.segmentsOf_join fun n hn => ht.isName_of_mem hmem n (List.mem_append_right _ hn)
  obtain ⟨content, time, hstat⟩ := stat_of_isFile hfile
  obtain ⟨p, hlocate⟩ := FileTree.locate_of_stat hstat
  obtain ⟨hresolve, hthere⟩ := FileTree.resolve_of_locate ht hlocate
  have hplace : v.resolve t (Text.join [CodePoint.slash] names) =
      .ok (if v.root.isPrefixOf p then some p else none) := by
    rw [resolve, FilePath.segmentsOf_dropWhile, hnames, hresolve]
    rfl
  have hfind : v.find t (Text.join [CodePoint.slash] names) = .ok none ↔ ¬ v.root <+: p := by
    rw [find, hplace]
    by_cases hroot : v.root <+: p
    · -- The file is there, though its path may be too long to be opened.
      rw [if_pos (List.isPrefixOf_iff_prefix.mpr hroot)]
      refine iff_of_false (fun h => ?_) (not_not_intro hroot)
      dsimp only [bind, Except.bind] at h
      unfold FileTree.exists? FileTree.leadsTo at h
      rcases hthere with hthere | hthere
      · rw [hthere] at h
        cases h
      · rw [hthere] at h
        cases h
    · rw [if_neg (mt List.isPrefixOf_iff_prefix.mp hroot)]
      exact iff_of_true rfl hroot
  refine ⟨p, content, time, hnames.symm ▸ hlocate, hplace, ?_, ?_⟩
  · rw [tags_eq_notFound_iff, hfind]
  · rw [content_eq_notFound_iff, hfind]

attribute [local instance] Stack.usual Yaml.Loader.own

/-- A link in the vault to a note in the vault. -/
theorem found_iff_of_listed_link :
    linkedTree.WellFormed ∧ folderVault.files linkedTree [] = .ok ["in.md", "note.md", "out.md"] ∧
      ("in.md" : Text) ∈ (["in.md", "note.md", "out.md"] : List Text) ∧
      ∃ p content time, linkedTree.locate (folderVault.root ++ FilePath.segmentsOf "in.md") =
          .ok (p, some (.file content time)) ∧
        folderVault.resolve linkedTree "in.md" = .ok (if folderVault.root.isPrefixOf p then some p else none) ∧
        (folderVault.tags linkedTree "in.md" = .ok .notFound ↔ ¬ folderVault.root <+: p) ∧
        (folderVault.content linkedTree "in.md" = .ok .notFound ↔ ¬ folderVault.root <+: p) := by
  have hmem : ("in.md" : Text) ∈ (["in.md", "note.md", "out.md"] : List Text) := by decide
  exact ⟨wellFormed_linkedTree, files_linkedTree, hmem, found_iff_of_listed wellFormed_linkedTree files_linkedTree hmem⟩

/-- A link in the vault to a file outside is listed, and what it leads to is not found. -/
theorem listed_not_found :
    linkedTree.WellFormed ∧ folderVault.files linkedTree [] = .ok ["in.md", "note.md", "out.md"] ∧
      folderVault.resolve linkedTree "out.md" = .ok none ∧ folderVault.tags linkedTree "out.md" = .ok .notFound ∧
      folderVault.content linkedTree "out.md" = .ok .notFound := by
  have hlocate : linkedTree.locate ["vault", "out.md"] = .ok (["secret.md"], some (.file (.bytes [35, 98]) 0)) := rfl
  have hplace : folderVault.root ++ FilePath.segmentsOf (("out.md" : Text).dropWhile (· == CodePoint.slash)) =
      (["vault", "out.md"] : Place) := rfl
  have hresolve : folderVault.resolve linkedTree "out.md" = .ok none := by
    rw [resolve, hplace, (FileTree.resolve_of_locate wellFormed_linkedTree hlocate).1]
    rfl
  have hfind : folderVault.find linkedTree "out.md" = .ok none := by
    rw [find, hresolve]
    rfl
  exact ⟨wellFormed_linkedTree, files_linkedTree, hresolve, tags_eq_notFound_iff.mpr hfind,
    content_eq_notFound_iff.mpr hfind⟩

end NoteAccess.Vault
