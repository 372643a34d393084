/-
  NoteAccess.Proofs.Vault.Spelling

  Different spellings of one note.  In a vault without links a path leads where
  its names lead, so the paths of one place have the same names, and the normal
  form of each is these names, alone or with a separator behind them.

  The vault answers by the names of a path (`tags_congr`, `content_congr`).  So
  the separator at the end, which marks a folder, is all that the rules can tell
  two spellings of a note by (`tagFirst_eq_of_alike`), and they can: a rule about
  the note itself does not match its path with a separator behind it.
-/

import Mathlib.Data.List.Basic
import NoteAccess.Proofs.FileTree.Meaning
import NoteAccess.Proofs.Policy.Stages
import NoteAccess.Proofs.VaultPath
import NoteAccess.Vault
import NoteAccess.Yaml.Document

namespace NoteAccess

/-! ## Vaults without links -/

namespace Vault

variable {v : Vault} {t : FileTree} {path path' : Text}

/-- There is no link on the way to the vault nor in it, and the path of its root is
    resolved. -/
structure LinkFree (v : Vault) (t : FileTree) : Prop where
  dots : (".." : Text) ∉ v.root
  above : ∀ p target, p <+: v.root → t.item? p ≠ some (.link target)
  below : ∀ p target, v.root <+: p → t.item? p ≠ some (.link target)

theorem LinkFree.not_link (hv : v.LinkFree t) {names : List Text} {p : Place}
    (hp : p <+: v.root ++ names) (target : Text) : t.item? p ≠ some (.link target) := by
  rcases List.prefix_or_prefix_of_prefix hp (List.prefix_append _ _) with hp | hp
  · exact hv.above p target hp
  · exact hv.below p target hp

/-- A path that leads to a place in such a vault has the names of the place. -/
theorem segmentsOf_of_resolve (hv : v.LinkFree t) {names : List Text}
    (hdots : (".." : Text) ∉ FilePath.segmentsOf path)
    (h : v.resolve t path = .ok (some (v.root ++ names))) : FilePath.segmentsOf path = names := by
  unfold resolve at h
  rw [FilePath.segmentsOf_dropWhile] at h
  cases hp : t.resolve (v.root ++ FilePath.segmentsOf path) with
  | error f => rw [hp] at h; cases h
  | ok p =>
    have hplace : p = v.root ++ FilePath.segmentsOf path := by
      refine FileTree.resolve_eq ?_ (fun q target hq => hv.not_link hq target) hp
      rw [List.mem_append, not_or]
      exact ⟨hv.dots, hdots⟩
    rw [hp] at h
    dsimp only [bind, Except.bind, pure, Except.pure] at h
    split at h
    · rw [hplace, Except.ok.injEq, Option.some.injEq] at h
      exact List.append_cancel_left h
    · cases h

/-- The answers about a path depend on its names only. -/
theorem resolve_congr (h : FilePath.segmentsOf path = FilePath.segmentsOf path') :
    v.resolve t path = v.resolve t path' := by
  rw [resolve, resolve, FilePath.segmentsOf_dropWhile, FilePath.segmentsOf_dropWhile, h]

theorem find_congr (h : FilePath.segmentsOf path = FilePath.segmentsOf path') :
    v.find t path = v.find t path' := by
  rw [find, find, resolve_congr h]

theorem incident_congr (h : FilePath.segmentsOf path = FilePath.segmentsOf path') :
    v.incident t path = v.incident t path' := by
  funext f
  rw [incident, incident, h]

theorem tags_congr [Yaml.Loader] [Stack] (h : FilePath.segmentsOf path = FilePath.segmentsOf path') :
    v.tags t path = v.tags t path' := by
  rw [tags, tags, find_congr h, incident_congr h]

theorem content_congr (h : FilePath.segmentsOf path = FilePath.segmentsOf path') :
    v.content t path = v.content t path' := by
  rw [content, content, find_congr h, incident_congr h]

end Vault

/-! ## Rules about paths -/

namespace Snapshot

open Matching

/-- The rules about paths and names match two paths alike. -/
structure Alike [Stack] (s : Snapshot) (path path' : Text) : Prop where
  folder : ∀ r ∈ s.rules.folder, r.enabled = true →
    (patternMatches r path).result = (patternMatches r path').result
  name : ∀ r ∈ s.rules.name, r.enabled = true →
    (patternMatches r (VaultPath.basename path)).result =
      (patternMatches r (VaultPath.basename path')).result

variable {s : Snapshot} {v : Vault} {t : FileTree} {path path' : Text}

theorem tagAnswer_congr [Yaml.Loader] [Stack] (h : FilePath.segmentsOf path = FilePath.segmentsOf path') :
    (v.sources t).tagAnswer path = (v.sources t).tagAnswer path' := by
  simp only [Sources.tagAnswer, Vault.sources, Vault.tags_congr h]

theorem contentAnswer_congr [Yaml.Loader] [Stack] (h : FilePath.segmentsOf path = FilePath.segmentsOf path') :
    (v.sources t).contentAnswer path = (v.sources t).contentAnswer path' := by
  simp only [Sources.contentAnswer, Vault.sources, Vault.content_congr h]

/-- Behind the guards, paths with the same names that the rules match alike are decided
    alike. -/
theorem tagFirst_eq_of_alike [Yaml.Loader] [Stack] {m : Option Method}
    (h : FilePath.segmentsOf path = FilePath.segmentsOf path') (halike : s.Alike path path') :
    (s.tagFirst (v.sources t) m path).result = (s.tagFirst (v.sources t) m path').result := by
  refine tagFirst_congr rfl rfl rfl (tagAnswer_congr h) ?_
  intro k
  cases k with
  | folder => exact byFirst_congr halike.folder
  | name => exact byFirst_congr halike.name
  | tag => rw [opinion, opinion, tagAnswer_congr h]
  | keyword => rw [opinion, opinion, contentAnswer_congr h]

/-- In a vault without links, all spellings of a note are decided like its path in the
    vault, except that a separator at the end may matter to rules about paths and names:
    a spelling that has none in its normal form is always decided alike, and one that has
    is if these rules match the path with the separator and without it alike. -/
theorem evaluate_spelling [Yaml.Loader] [Stack] {names : List Text} (hv : v.LinkFree t)
    (hguard : VaultPath.check (VaultPath.normalize path) = .ok ())
    (hplace : v.resolve t (VaultPath.normalize path) = .ok (some (v.root ++ names))) :
    (VaultPath.normalize path = Text.join [CodePoint.slash] names ∨
      VaultPath.normalize path = Text.join [CodePoint.slash] names ++ [CodePoint.slash]) ∧
    ∀ (s : Snapshot) (request : Request),
      (VaultPath.normalize path = Text.join [CodePoint.slash] names ∨
        s.Alike (Text.join [CodePoint.slash] names ++ [CodePoint.slash])
          (Text.join [CodePoint.slash] names)) →
      (s.evaluate (v.sources t) request (.text path)).result =
        (s.evaluate (v.sources t) request (.text (Text.join [CodePoint.slash] names))).result := by
  have hnames := Vault.segmentsOf_of_resolve hv (VaultPath.dots_not_mem_segmentsOf hguard) hplace
  have hspelling := VaultPath.normalize_eq_or path
  have hself := VaultPath.normalize_join_segmentsOf path
  rw [hnames] at hspelling hself
  refine ⟨hspelling, ?_⟩
  intro s request hsame
  rw [result_evaluate, result_evaluate]
  rcases hspelling with hspelling | hspelling
  · rw [decide_congr (hspelling.trans hself.symm)]
  · -- The names are the same, so the vault answers alike; only folder and name rules see the
    -- separator.
    rcases hsame with hsame | halike
    · rw [decide_congr (hsame.trans hself.symm)]
    · have hcheck : VaultPath.check (VaultPath.normalize (Text.join [CodePoint.slash] names)) = .ok () := by
        rw [hself]
        exact VaultPath.check_of_check_append (hspelling ▸ hguard)
      refine result_decide_congr rfl rfl (hguard.trans hcheck.symm) ?_
      intro m _
      rw [hself, hspelling]
      exact tagFirst_eq_of_alike (FilePath.segmentsOf_append_slash _) halike

/-! ## A note written as a folder -/

/-- A tree with one note, in a folder of a vault. -/
def noteTree : FileTree where
  items := [(["vault"], .folder), (["vault", "Private"], .folder),
    (["vault", "Private", "a.md"], .file (.bytes []) 0)]

/-- The vault of that note. -/
def noteVault : Vault where
  root := ["vault"]

/-- The place of the note in its vault. -/
def noteNames : Place := ["Private", "a.md"]

theorem noteVault_linkFree : noteVault.LinkFree noteTree := by
  have hitem : ∀ p target, noteTree.item? p ≠ some (.link target) := by
    intro p target h
    unfold FileTree.item? at h
    split at h
    · cases h
    · obtain ⟨before, after, hitems, -⟩ := List.lookup_eq_some_iff.mp h
      have hmem : (p, FileItem.link target) ∈ noteTree.items := by
        rw [hitems]
        exact List.mem_append_right _ (List.mem_cons_self ..)
      simp [noteTree] at hmem
  exact ⟨by decide, fun p target _ => hitem p target, fun p target _ => hitem p target⟩

/-- A path with the names of the note leads to it. -/
theorem resolve_note {path : Text} (h : FilePath.segmentsOf path = noteNames) :
    noteVault.resolve noteTree path = .ok (some (noteVault.root ++ noteNames)) := by
  have hmeaning : noteTree.meaning (noteVault.root ++ noteNames) = .ok (noteVault.root ++ noteNames) := by
    rw [FileTree.meaning_eq (by decide) fun p target hp => noteVault_linkFree.not_link hp target]
    rfl
  rw [Vault.resolve, FilePath.segmentsOf_dropWhile, h, FileTree.resolve, hmeaning]
  rfl

attribute [local instance] Stack.usual Yaml.Loader.own

/-- A rule about everything in a folder matches a note in it in every spelling. -/
theorem evaluate_spelling_below :
    noteVault.LinkFree noteTree ∧
      VaultPath.check (VaultPath.normalize "\\Private//./a.md/.") = .ok () ∧
      noteVault.resolve noteTree (VaultPath.normalize "\\Private//./a.md/.") =
        .ok (some (noteVault.root ++ noteNames)) ∧
      (Snapshot.evaluate { rules := { folder := [{ mode := .deny, pattern := "Private/**" }] } }
          (noteVault.sources noteTree) (.assumed .get) (.text "\\Private//./a.md/.")).result =
        (Snapshot.evaluate { rules := { folder := [{ mode := .deny, pattern := "Private/**" }] } }
          (noteVault.sources noteTree) (.assumed .get) (.text "Private/a.md")).result := by
  have hguard : VaultPath.check (VaultPath.normalize "\\Private//./a.md/.") = .ok () := by rfl
  have hplace : noteVault.resolve noteTree (VaultPath.normalize "\\Private//./a.md/.") =
      .ok (some (noteVault.root ++ noteNames)) := resolve_note rfl
  have halike : Snapshot.Alike { rules := { folder := [{ mode := .deny, pattern := "Private/**" }] } }
      "Private/a.md/" "Private/a.md" := by
    constructor
    · intro r hr _
      rw [List.mem_singleton.mp hr]
      cbv
    · intro r hr
      exact absurd hr List.not_mem_nil
  exact ⟨noteVault_linkFree, hguard, hplace,
    (evaluate_spelling noteVault_linkFree hguard hplace).2 _ (.assumed .get) (.inr halike)⟩

/-- A rule about the note itself. -/
def noteRule : Rule := { mode := .deny, pattern := "Private/a.md" }

/-- The policy that allows everything but the note. -/
def notePolicy : Snapshot where
  rules := { folder := [noteRule] }
  defaultPolicy := .allow

/-- With a separator at its end the path of a note that is refused leads to the same file,
    and it is allowed: a rule about the note does not match the path of a folder. -/
theorem evaluate_note_as_folder :
    noteVault.LinkFree noteTree ∧
      noteTree.item? (noteVault.root ++ noteNames) = some (.file (.bytes []) 0) ∧
      Text.join [CodePoint.slash] noteNames = "Private/a.md" ∧
      VaultPath.check (VaultPath.normalize "Private/a.md/") = .ok () ∧
      noteVault.resolve noteTree (VaultPath.normalize "Private/a.md/") =
        .ok (some (noteVault.root ++ noteNames)) ∧
      (notePolicy.evaluate (noteVault.sources noteTree) (.given none)
        (.text "Private/a.md")).result = .ok (.rule .folder noteRule) ∧
      (notePolicy.evaluate (noteVault.sources noteTree) (.given none)
        (.text "Private/a.md/")).result = .ok (.byDefault .allow) ∧
      (Decision.rule .folder noteRule).allowed = false ∧ (Decision.byDefault .allow).allowed = true := by
  refine ⟨noteVault_linkFree, rfl, rfl, rfl, resolve_note rfl, ?_, ?_, rfl, rfl⟩
  · rw [result_evaluate]
    cbv
  · rw [result_evaluate]
    cbv

end Snapshot

end NoteAccess
