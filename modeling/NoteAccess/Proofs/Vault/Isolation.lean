/-
  NoteAccess.Proofs.Vault.Isolation

  What is in files outside a vault makes no difference to what the vault answers.  What a
  path means is found without looking into files, and a place in the vault with no link on
  the way to it is opened as itself, so that all that is read is read there
  (`lookups_eq_of_agree`).

  A path can mean a place with a link on the way to it only if a link in the path leads back
  to itself and `..` stands behind it.  Such a path does lead out of the vault
  (`content_past_loop`).
-/

import NoteAccess.Proofs.FileTree
import NoteAccess.Proofs.FileTree.Shape
import NoteAccess.Proofs.FileTree.Walk
import NoteAccess.Vault
import NoteAccess.Yaml.Document

namespace NoteAccess

/-! ## Trees that agree in a folder -/

namespace FileTree

variable {t t' : FileTree} {folder path p : Place} {i : FileItem}

/-- The same folders, links and files stand in two trees, and what is in the files of a folder
    is the same. -/
structure AgreeIn (t t' : FileTree) (folder : Place) : Prop where
  shape : SameShape t t'
  inside : ∀ p, folder <+: p → t'.item? p = t.item? p

/-- A file that is written outside a folder leaves the folder as it was. -/
theorem agreeIn_put {content content' : FileContent} {time time' : Int} (h : t.item? p = some (.file content time))
    (hp : ¬ folder <+: p) : AgreeIn t (t.put p (.file content' time')) folder where
  shape q := by
    rw [item?_put_file h]
    split
    · next hq =>
      rw [hq, h]
      rfl
    · rfl
  inside q hq := by
    rw [item?_put_file h, if_neg]
    rintro rfl
    exact hp hq

/-- There is no link on the way to a place. -/
def LinkFree (t : FileTree) (p : Place) : Prop := ∀ q target, q <+: p → t.item? q ≠ some (.link target)

/-- A path means a place without links on the way if its links come to an end. -/
theorem linkFree_of_ends (hends : t.Ends path) (h : t.resolve path = .ok p) : t.LinkFree p := by
  obtain ⟨q, hq⟩ := hends
  have hstraight := straight_of_meaningFrom (straight_nil t) hq
  have hself : t.resolve q = .ok p := by
    rwa [resolve, hstraight.meaning_eq, ← meaning_of_meaningFrom hq]
  rw [resolve_eq hstraight.dots hstraight.links hself]
  exact hstraight.links

theorem dots_not_mem_of_resolve (h : t.resolve path = .ok p) : (".." : Text) ∉ p := by
  unfold resolve meaning at h
  cases hwalk : t.meaningFrom t.items.length [] [] path with
  | error f => rw [hwalk] at h; cases h
  | ok q =>
    rw [hwalk] at h
    dsimp only [bind, Except.bind, Except.map] at h
    split at h
    · cases h
    · cases h
    · cases h
    · cases h
      exact fun hmem => (FilePath.mem_of_mem_foldDots hmem).2 rfl

/-- A place without links on the way is opened as itself. -/
theorem item?_of_stat (hdots : (".." : Text) ∉ p) (hlinks : t.LinkFree p) (h : t.stat p = .ok i) :
    t.item? p = some i := by
  obtain ⟨q, hlocate⟩ := locate_of_stat h
  obtain ⟨hnames, hfollow⟩ := locate_eq_ok hlocate
  have hstraight : t.Straight p := ⟨hdots, hlinks, forM_checkName_eq_ok.mp hnames⟩
  rw [← hstraight.eq_of_follow hfollow]
  exact item?_of_locate hlocate

/-- Such a place in the folder leads to what it led to. -/
theorem AgreeIn.stat_eq (h : AgreeIn t t' folder) (hp : folder <+: p) (hdots : (".." : Text) ∉ p)
    (hlinks : t.LinkFree p) : t'.stat p = t.stat p := by
  have hlinks' : t'.LinkFree p := by
    intro q target hq
    rw [Ne, item?_eq_iff h.shape (fun _ _ => FileItem.noConfusion) q]
    exact hlinks q target hq
  rcases stat_cases h.shape p with ⟨f, hf', hf⟩ | ⟨i', i, hi', hi, -⟩
  · rw [hf', hf]
  · have hitem := h.inside p hp
    rw [item?_of_stat hdots hlinks hi, item?_of_stat hdots hlinks' hi'] at hitem
    rw [hi', hi, Option.some.inj hitem]

end FileTree

/-! ## Answers of a vault -/

namespace Vault

open FileTree

variable {v : Vault} {t t' : FileTree} {path : Text} {p : Place}

theorem resolve_eq_ok_some (h : v.resolve t path = .ok (some p)) :
    t.resolve (v.root ++ FilePath.segmentsOf path) = .ok p ∧ v.root <+: p := by
  unfold resolve at h
  rw [FilePath.segmentsOf_dropWhile] at h
  cases hp : t.resolve (v.root ++ FilePath.segmentsOf path) with
  | error f => rw [hp] at h; cases h
  | ok q =>
    rw [hp] at h
    dsimp only [bind, Except.bind, pure, Except.pure] at h
    split at h
    · next hroot =>
      cases h
      exact ⟨rfl, List.isPrefixOf_iff_prefix.mp hroot⟩
    · cases h

theorem resolve_of_find (h : v.find t path = .ok (some p)) : v.resolve t path = .ok (some p) := by
  unfold find at h
  cases hresolve : v.resolve t path with
  | error f => rw [hresolve] at h; cases h
  | ok place =>
    rw [hresolve] at h
    cases place with
    | none => cases h
    | some q =>
      dsimp only [bind, Except.bind] at h
      cases hthere : t.exists? q with
      | error f => rw [hthere] at h; cases h
      | ok there =>
        rw [hthere] at h
        cases there with
        | false => cases h
        | true => cases h; rfl

/-- A vault looks at what a path means and, if this is a place in the vault, at what it leads to. -/
theorem lookups_congr [Yaml.Loader] [Stack] (hresolve : v.resolve t' path = v.resolve t path)
    (hincident : v.incident t' path = v.incident t path)
    (hplace : ∀ p, v.resolve t path = .ok (some p) → t'.stat p = t.stat p ∧ t'.item? p = t.item? p) :
    v.tags t' path = v.tags t path ∧ v.content t' path = v.content t path := by
  have hfind : v.find t' path = v.find t path := by
    unfold find
    rw [hresolve]
    cases hp : v.resolve t path with
    | error f => rfl
    | ok place =>
      cases place with
      | none => rfl
      | some p =>
        dsimp only [bind, Except.bind]
        rw [exists?, exists?, leadsTo, leadsTo, (hplace p hp).1]
  have hread : ∀ p, v.find t path = .ok (some p) →
      v.readText t' p = v.readText t p ∧ t'.item? p = t.item? p := by
    intro p hp
    obtain ⟨hstat, hitem⟩ := hplace p (resolve_of_find hp)
    refine ⟨?_, hitem⟩
    rw [readText, readText, FileTree.read, FileTree.read, hstat]
  rw [tags, tags, content, content, hfind, hincident]
  cases hp : v.find t path with
  | error f => exact ⟨rfl, rfl⟩
  | ok place =>
    cases place with
    | none => exact ⟨rfl, rfl⟩
    | some p =>
      obtain ⟨htext, hitem⟩ := hread p hp
      dsimp only [bind, Except.bind, Except.mapError]
      rw [htext, hitem]
      exact ⟨rfl, rfl⟩

/-- If two trees differ in what is in files outside the vault only, and a path means a place with no
    link on the way, then the vault gives the same answers about it, be they tags and contents or
    failures. -/
theorem lookups_eq_of_agree [Yaml.Loader] [Stack] (hagree : AgreeIn t t' v.root)
    (hlinks : ∀ p, t.resolve (v.root ++ FilePath.segmentsOf path) = .ok p → t.LinkFree p) :
    v.tags t' path = v.tags t path ∧ v.content t' path = v.content t path := by
  have hresolve : v.resolve t' path = v.resolve t path := by
    rw [resolve, resolve, FileTree.resolve_congr hagree.shape]
  have hincident : v.incident t' path = v.incident t path := by
    funext f
    rw [incident, incident, resolveIncident, resolveIncident, meaning_congr hagree.shape]
  refine lookups_congr hresolve hincident fun p hp => ?_
  obtain ⟨hplace, hroot⟩ := resolve_eq_ok_some hp
  exact ⟨hagree.stat_eq hroot (dots_not_mem_of_resolve hplace) (hlinks p hplace), hagree.inside p hroot⟩

/-- A vault in the folder of this name. -/
def folderVault : Vault where
  root := ["vault"]

/-- A note that a chain of links leads to, out of the vault and back into it, and a file next to
    the vault. -/
def chainTree (secret : List UInt8) : FileTree where
  items := [(["vault"], .folder), (["vault", "note.md"], .file (.bytes [35, 97]) 0),
    (["vault", "a.md"], .link "../b.md"), (["b.md"], .link "vault/note.md"), (["secret.md"], .file (.bytes secret) 0)]

theorem walk_chainTree (secret : List UInt8) :
    (chainTree secret).Walk 2 [] ["vault", "a.md"] ["vault", "note.md"] := by
  have hnote : (chainTree secret).Walk 0 [] ["vault", "note.md"] ["vault", "note.md"] :=
    .step (by decide) rfl nofun (.step (by decide) rfl nofun (.done _))
  have hlink : (chainTree secret).Walk 1 ["vault"] [(".." : Text), ("b.md" : Text)] ["vault", "note.md"] :=
    .up (.link (by decide) rfl rfl hnote (.done _))
  exact .step (by decide) rfl nofun (.link (by decide) rfl rfl hlink (.done _))

attribute [local instance] Stack.usual Yaml.Loader.own

/-- What is written next to the vault does not show at the end of the chain. -/
theorem lookups_eq_of_agree_chain :
    AgreeIn (chainTree [35, 98]) (chainTree [35, 99]) folderVault.root ∧
      (∀ p, (chainTree [35, 98]).resolve (folderVault.root ++ FilePath.segmentsOf "a.md") = .ok p →
        (chainTree [35, 98]).LinkFree p) ∧
      folderVault.tags (chainTree [35, 99]) "a.md" = folderVault.tags (chainTree [35, 98]) "a.md" ∧
      folderVault.content (chainTree [35, 99]) "a.md" = folderVault.content (chainTree [35, 98]) "a.md" := by
  have hold : (chainTree [35, 98]).item? ["secret.md"] = some (.file (.bytes [35, 98]) 0) := rfl
  have hagree : AgreeIn (chainTree [35, 98]) (chainTree [35, 99]) folderVault.root := agreeIn_put hold (by decide)
  have hends : (chainTree [35, 98]).Ends (folderVault.root ++ FilePath.segmentsOf "a.md") :=
    ⟨_, (walk_chainTree [35, 98]).meaningFrom_eq (behind_nil _ 2) (card_unopened_le _ [])⟩
  have hlinks := fun p hp => linkFree_of_ends (p := p) hends hp
  exact ⟨hagree, hlinks, lookups_eq_of_agree hagree hlinks⟩

/-- A vault with a link to itself and a link to a file next to the vault. -/
def loopTree (secret : List UInt8) : FileTree where
  items := [(["vault"], .folder), (["vault", "loop"], .link "loop"), (["vault", "x.md"], .link "../secret.md"),
    (["secret.md"], .file (.bytes secret) 0)]

theorem resolve_loopTree (secret : List UInt8) :
    folderVault.resolve (loopTree secret) "loop/../x.md" = .ok (some ["vault", "x.md"]) := by
  have hloop : (loopTree secret).item? ((["vault"] : Place) ++ [("loop" : Text)]) = some (.link "loop") := rfl
  have hagain : (loopTree secret).meaningFrom 3 [["vault", "loop"]] ["vault"] (FilePath.segmentsOf "loop") =
      .ok (["vault", "loop"], false) := meaningFrom_link (by decide) rfl hloop 3
  have hwalk : (loopTree secret).meaningFrom 4 [] ["vault"] ["loop", "..", "x.md"] =
      .ok (["vault", "loop", "..", "x.md"], false) := meaningFrom_link_loop (by decide) rfl hloop rfl hagain
  have hmeaning : (loopTree secret).meaning ["vault", "loop", "..", "x.md"] = .ok ["vault", "x.md"] := by
    have hfirst : (loopTree secret).meaningFrom (loopTree secret).items.length [] []
        ["vault", "loop", "..", "x.md"] = (loopTree secret).meaningFrom 4 [] ["vault"] ["loop", "..", "x.md"] := by
      rw [meaningFrom]
      rfl
    rw [meaning, hfirst, hwalk]
    rfl
  have hplace : folderVault.root ++ FilePath.segmentsOf (("loop/../x.md" : Text).dropWhile (· == CodePoint.slash)) =
      (["vault", "loop", "..", "x.md"] : Place) := rfl
  rw [resolve, hplace, FileTree.resolve, hmeaning]
  rfl

/-- The condition on links is needed: behind a link to itself `..` is taken as it is written, and the link
    that comes then is opened only when the file is read. -/
theorem content_past_loop :
    AgreeIn (loopTree [35, 98]) (loopTree [35, 99]) folderVault.root ∧
      folderVault.content (loopTree [35, 98]) "loop/../x.md" = .ok (.found "#b") ∧
      folderVault.content (loopTree [35, 99]) "loop/../x.md" = .ok (.found "#c") := by
  have hold : (loopTree [35, 98]).item? ["secret.md"] = some (.file (.bytes [35, 98]) 0) := rfl
  have hagree : AgreeIn (loopTree [35, 98]) (loopTree [35, 99]) folderVault.root := agreeIn_put hold (by decide)
  refine ⟨hagree, ?_, ?_⟩
  · rw [content, find, resolve_loopTree]
    rfl
  · rw [content, find, resolve_loopTree]
    rfl

end Vault

end NoteAccess
