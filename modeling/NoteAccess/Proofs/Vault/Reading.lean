/-
  NoteAccess.Proofs.Vault.Reading

  What a vault answers about the tags of a file, by what is in the file.  The bytes of a
  note are read as text (`ReadsAs`), its front matter is loaded, and the tags of both its
  parts are collected.

  A file that cannot be read as text and front matter that is malformed make the tags
  unavailable.  What else the loader fails with does not, and neither does a tag that cannot
  be written: the lookup fails with it, and with nothing else (`tags_of_file`).  A day that
  is not in the calendar makes it fail so (`tags_impossibleDay`).
-/

import NoteAccess.Proofs.Note.FrontMatter
import NoteAccess.Proofs.Value.Writing
import NoteAccess.Proofs.Vault.Listing

namespace NoteAccess

/-! ## Tags of a text -/

namespace FrontMatter

variable [Yaml.Loader] [Stack]

/-- A tag among entries cannot be written, and it is the first one. -/
def IsUnwritten (entries : Entries) (f : Fault) : Prop :=
  ∃ before raw after, rawTags entries = before ++ raw :: after ∧ (∀ raw' ∈ before, ∃ t, tagText raw' = .ok t) ∧
    tagText raw = .error f

theorem tags_eq_error_iff {entries : Entries} {f : Fault} : tags entries = .error f ↔ IsUnwritten entries f := by
  refine Iff.trans ?_ mapM_eq_error_iff
  unfold tags
  cases (rawTags entries).mapM tagText with
  | error f' => exact Iff.rfl
  | ok texts => exact iff_of_false nofun nofun

/-- A word of a text is written as it is, and a value fails as values do. -/
theorem failsAs_tagText (raw : RawTag) : FailsAs Fault.IsOfWriting (tagText raw) := by
  cases raw with
  | inl t => exact failsAs_ok t
  | inr v =>
    unfold tagText
    dsimp only
    split
    · exact failsAs_ok _
    · exact Layered.failsAs_written v

theorem IsUnwritten.isOfWriting {entries : Entries} {f : Fault} (h : IsUnwritten entries f) : f.IsOfWriting := by
  obtain ⟨before, raw, after, -, -, hraw⟩ := h
  exact failsAs_tagText raw f hraw

end FrontMatter

namespace Note

open FrontMatter

variable [Yaml.Loader] [Stack]

/-- All that can be wrong with a note is that its front matter cannot be loaded, or that a tag in it
    cannot be written. -/
theorem tags_eq_error_iff {note : Text} {e : Yaml.Failure} :
    tags note = .error e ↔ ∃ block body, cut? note = some (block, body) ∧
      (Yaml.Loader.note block = .error e ∨ ∃ value f, Yaml.Loader.note block = .ok value ∧
        IsUnwritten (entriesOf value) f ∧ e = .fault f (Layered.complaint f)) := by
  cases hcut : cut? note with
  | none =>
    have hsplit : FrontMatter.split note = .ok ([], note) := by
      rw [FrontMatter.split, hcut]
    refine iff_of_false (fun h => ?_) ?_
    · rw [tags, hsplit] at h
      cases h
    · rintro ⟨block, body, hparts, -⟩
      cases hparts
  | some parts =>
    obtain ⟨block, body⟩ := parts
    rw [tags_of_split (split_of_cut? hcut)]
    have hdeclared : ∀ value, (declared (entriesOf value)).map (· ++ InlineTags.ofBody body) = .error e ↔
        ∃ f, IsUnwritten (entriesOf value) f ∧ e = .fault f (Layered.complaint f) := by
      intro value
      simp only [← FrontMatter.tags_eq_error_iff]
      unfold declared
      cases FrontMatter.tags (entriesOf value) with
      | error f =>
        constructor
        · intro h
          cases h
          exact ⟨f, rfl, rfl⟩
        · rintro ⟨f', hf, rfl⟩
          cases hf
          rfl
      | ok texts =>
        refine iff_of_false (fun h => ?_) ?_
        · cases h
        · rintro ⟨f, hf, -⟩
          cases hf
    constructor
    · intro h
      refine ⟨block, body, rfl, ?_⟩
      cases hload : Yaml.Loader.note block with
      | error e' =>
        rw [hload] at h
        cases h
        exact .inl rfl
      | ok value =>
        rw [hload] at h
        obtain ⟨f, hf, he⟩ := (hdeclared value).mp h
        exact .inr ⟨value, f, rfl, hf, he⟩
    · rintro ⟨block', body', hparts, hload | ⟨value, f, hload, hf, he⟩⟩
      · cases hparts
        rw [hload]
        rfl
      · cases hparts
        rw [hload]
        exact (hdeclared value).mpr ⟨f, hf, he⟩

end Note

/-! ## Files -/

namespace FileTree

variable {t : FileTree} {p : Place} {i : FileItem}

/-- What can be opened at the place of a folder is this folder. -/
theorem WellFormed.eq_folder_of_stat (ht : t.WellFormed) (hdots : (".." : Text) ∉ p)
    (hfolder : t.item? p = some .folder) (h : t.stat p = .ok i) : i = .folder := by
  have hlinks : t.LinkFree p := by
    rintro q target ⟨rest, rfl⟩ hlink
    by_cases hrest : rest = []
    · rw [hrest, List.append_nil, hlink] at hfolder
      cases hfolder
    · rw [ht.folder_of_append hrest hfolder] at hlink
      cases hlink
  have hitem := item?_of_stat hdots hlinks h
  rw [hfolder] at hitem
  exact (Option.some.inj hitem).symm

end FileTree

namespace Vault

variable {v : Vault} {t : FileTree} {path : Text} {p : Place} {content : FileContent} {time : Int}

theorem find_of_stat {i : FileItem} (h : v.resolve t path = .ok (some p)) (hstat : t.stat p = .ok i) :
    v.find t path = .ok (some p) := by
  have hthere : t.exists? p = .ok true := by
    rw [FileTree.exists?, FileTree.leadsTo, hstat]
  rw [find, h]
  dsimp only [bind, Except.bind]
  rw [hthere]
  rfl

/-- The bytes of a file are this text to a vault: they are few enough, and this is what they stand for. -/
def ReadsAs (v : Vault) (content : FileContent) (text : Text) : Prop :=
  content.size ≤ maxContentSize ∧ v.encoding.readText content.toBytes = .ok text

theorem readText_eq_ok_iff {text : Text} (hfile : t.stat p = .ok (.file content time)) :
    v.readText t p = .ok text ↔ v.ReadsAs content text := by
  have hread : t.read p = .ok content := by
    rw [FileTree.read, hfile]
    rfl
  unfold readText
  rw [hread]
  dsimp only [bind, Except.bind, Except.mapError]
  by_cases hsize : maxContentSize < content.size
  · rw [if_pos hsize]
    constructor
    · intro h
      cases h
    · exact fun h => absurd h.1 (Nat.not_le.mpr hsize)
  · rw [if_neg hsize]
    cases hdecode : v.encoding.readText content.toBytes with
    | error cause =>
      constructor
      · intro h
        cases h
      · intro h
        cases hdecode.symm.trans h.2
    | ok text' =>
      constructor
      · intro h
        cases h
        exact ⟨Nat.not_lt.mp hsize, hdecode⟩
      · intro h
        cases hdecode.symm.trans h.2
        rfl

theorem ReadsAs.unique {text text' : Text} (h : v.ReadsAs content text) (h' : v.ReadsAs content text') :
    text = text' := by
  cases h.2.symm.trans h'.2
  rfl

/-! ## Answers about a file -/

/-- What there is to answer about the tags of a file, by the name of its place and what is in it. -/
inductive Answer [Yaml.Loader] [Stack] (v : Vault) (p : Place) (content : FileContent) :
    Except Incident TagLookup → Prop where
  | attachment : isNote p = false → Answer v p content (.ok (.found []))
  | unreadable : isNote p = true → (∀ text, ¬ v.ReadsAs content text) → Answer v p content (.ok (.unavailable ()))
  | malformed {text : Text} : isNote p = true → v.ReadsAs content text → Note.tags text = .error .malformed →
      Answer v p content (.ok (.unavailable ()))
  | unread {text : Text} {f : Fault} {message : Text} : isNote p = true → v.ReadsAs content text →
      Note.tags text = .error (.fault f message) → isReadFault f = true → Answer v p content (.ok (.unavailable ()))
  | fault {text : Text} {f : Fault} {message : Text} : isNote p = true → v.ReadsAs content text →
      Note.tags text = .error (.fault f message) → isReadFault f = false →
      Answer v p content (.error (.ofFault f message))
  | found {text : Text} {raw : List Text} : isNote p = true → v.ReadsAs content text → Note.tags text = .ok raw →
      Answer v p content (.ok (.found (Tag.normalizeAll raw)))

/-- There is one answer only. -/
theorem Answer.unique [Yaml.Loader] [Stack] {x y : Except Incident TagLookup} (h : v.Answer p content x) (h' : v.Answer p content y) :
    x = y := by
  cases h with
  | attachment hno =>
    cases h' with
    | attachment => rfl
    | unreadable hnote | malformed hnote | unread hnote | fault hnote | found hnote => cases hno.symm.trans hnote
  | unreadable hnote hnone =>
    cases h' with
    | attachment hno => cases hno.symm.trans hnote
    | unreadable => rfl
    | malformed _ hreads | unread _ hreads | fault _ hreads | found _ hreads => exact absurd hreads (hnone _)
  | malformed hnote hreads htags | unread hnote hreads htags | fault hnote hreads htags | found hnote hreads htags =>
    -- The text is the same, and so is what comes of its tags.
    cases h' with
    | attachment hno => cases hno.symm.trans hnote
    | unreadable _ hnone => exact absurd hreads (hnone _)
    | malformed _ hreads' htags' | unread _ hreads' htags' | fault _ hreads' htags' | found _ hreads' htags' =>
      obtain rfl := hreads.unique hreads'
      cases htags.symm.trans htags'
      -- A failure is one of reading or is not one.
      all_goals first
        | rfl
        | cases ‹isReadFault _ = true›.symm.trans ‹isReadFault _ = false›

/-- This is what is answered about a path that leads to the file. -/
theorem answer_tags [Yaml.Loader] [Stack] (ht : t.WellFormed) (h : v.resolve t path = .ok (some p))
    (hfile : t.stat p = .ok (.file content time)) : v.Answer p content (v.tags t path) := by
  have hfolder : t.item? p ≠ some .folder := by
    intro hfolder
    cases ht.eq_folder_of_stat (FileTree.dots_not_mem_of_resolve (resolve_eq_ok_some h).1) hfolder hfile
  have hbeq : (t.item? p == some .folder) = false := beq_eq_false_iff_ne.mpr hfolder
  unfold tags
  rw [find_of_stat h hfile]
  dsimp only [bind, Except.bind, Except.mapError]
  rw [hbeq, Bool.false_or]
  cases hnote : isNote p with
  | false => exact .attachment hnote
  | true =>
    rw [if_neg (by decide)]
    cases hread : v.readText t p with
    | error e =>
      refine .unreadable hnote fun text htext => ?_
      cases hread.symm.trans ((readText_eq_ok_iff hfile).mpr htext)
    | ok text =>
      have hreads : v.ReadsAs content text := (readText_eq_ok_iff hfile).mp hread
      dsimp only
      cases htags : Note.tags text with
      | ok raw => exact .found hnote hreads htags
      | error e =>
        cases e with
        | malformed => exact .malformed hnote hreads htags
        | fault f message =>
          dsimp only
          cases hfault : isReadFault f with
          | true => exact .unread hnote hreads htags hfault
          | false => exact .fault hnote hreads htags hfault

/-- Writing a value does not fail as reading a file does. -/
theorem isReadFault_of_isOfWriting {f : Fault} (h : f.IsOfWriting) : isReadFault f = false := by
  rcases h with rfl | rfl <;> rfl

/-- A path that leads to a file of the vault is found.  What is no note has no tags.  Those of a note
    are unavailable exactly if its bytes cannot be read as text, or its front matter is malformed or makes the
    loader fail as reading a file does; the lookup fails exactly if the loader fails in another way, or if a tag
    cannot be written, and with this failure; and otherwise the tags of the text are found. -/
theorem tags_of_file [Yaml.Loader] [Stack] (ht : t.WellFormed) (h : v.resolve t path = .ok (some p))
    (hfile : t.stat p = .ok (.file content time)) :
    v.tags t path ≠ .ok .notFound ∧
      (v.tags t path = .ok (.unavailable ()) ↔ isNote p = true ∧ ((∀ text, ¬ v.ReadsAs content text) ∨
        ∃ text block body, v.ReadsAs content text ∧ FrontMatter.cut? text = some (block, body) ∧
          (Yaml.Loader.note block = .error .malformed ∨
            ∃ f message, Yaml.Loader.note block = .error (.fault f message) ∧ isReadFault f = true))) ∧
      (∀ e, v.tags t path = .error e ↔ isNote p = true ∧ ∃ text block body f message,
        v.ReadsAs content text ∧ FrontMatter.cut? text = some (block, body) ∧ e = .ofFault f message ∧
          ((Yaml.Loader.note block = .error (.fault f message) ∧ isReadFault f = false) ∨
            ∃ value, Yaml.Loader.note block = .ok value ∧
              FrontMatter.IsUnwritten (FrontMatter.entriesOf value) f ∧ message = Layered.complaint f)) ∧
      ∀ found, v.tags t path = .ok (.found found) ↔ (isNote p = false ∧ found = []) ∨
        (isNote p = true ∧ ∃ text raw, v.ReadsAs content text ∧ Note.tags text = .ok raw ∧
          found = Tag.normalizeAll raw) := by
  have hanswer := answer_tags ht h hfile
  generalize v.tags t path = x at hanswer
  refine ⟨?_, ⟨?_, ?_⟩, fun e => ⟨?_, ?_⟩, fun found => ⟨?_, ?_⟩⟩
  · rintro rfl
    cases hanswer
  · rintro rfl
    cases hanswer with
    | unreadable hnote hnone => exact ⟨hnote, .inl hnone⟩
    | malformed hnote hreads htags =>
      obtain ⟨block, body, hcut, hload | ⟨value, f, -, -, he⟩⟩ := Note.tags_eq_error_iff.mp htags
      · exact ⟨hnote, .inr ⟨_, block, body, hreads, hcut, .inl hload⟩⟩
      · cases he
    | unread hnote hreads htags hfault =>
      obtain ⟨block, body, hcut, hload | ⟨value, f, -, hunwritten, he⟩⟩ := Note.tags_eq_error_iff.mp htags
      · exact ⟨hnote, .inr ⟨_, block, body, hreads, hcut, .inr ⟨_, _, hload, hfault⟩⟩⟩
      · cases he
        cases hfault.symm.trans (isReadFault_of_isOfWriting hunwritten.isOfWriting)
  · rintro ⟨hnote, hnone | ⟨text, block, body, hreads, hcut, hload | ⟨f, message, hload, hfault⟩⟩⟩
    · exact hanswer.unique (.unreadable hnote hnone)
    · exact hanswer.unique (.malformed hnote hreads (Note.tags_eq_error_iff.mpr ⟨block, body, hcut, .inl hload⟩))
    · exact hanswer.unique
        (.unread hnote hreads (Note.tags_eq_error_iff.mpr ⟨block, body, hcut, .inl hload⟩) hfault)
  · rintro rfl
    cases hanswer with
    | fault hnote hreads htags hfault =>
      obtain ⟨block, body, hcut, hload | ⟨value, f, hload, hunwritten, he⟩⟩ := Note.tags_eq_error_iff.mp htags
      · exact ⟨hnote, _, block, body, _, _, hreads, hcut, rfl, .inl ⟨hload, hfault⟩⟩
      · cases he
        exact ⟨hnote, _, block, body, _, _, hreads, hcut, rfl, .inr ⟨value, hload, hunwritten, rfl⟩⟩
  · rintro ⟨hnote, text, block, body, f, message, hreads, hcut, rfl, ⟨hload, hfault⟩ | ⟨value, hload, hunwritten, rfl⟩⟩
    · exact hanswer.unique
        (.fault hnote hreads (Note.tags_eq_error_iff.mpr ⟨block, body, hcut, .inl hload⟩) hfault)
    · have htags := Note.tags_eq_error_iff.mpr ⟨block, body, hcut, .inr ⟨value, f, hload, hunwritten, rfl⟩⟩
      exact hanswer.unique (.fault hnote hreads htags (isReadFault_of_isOfWriting hunwritten.isOfWriting))
  · rintro rfl
    cases hanswer with
    | attachment hnote => exact .inl ⟨hnote, rfl⟩
    | found hnote hreads htags => exact .inr ⟨hnote, _, _, hreads, htags, rfl⟩
  · rintro (⟨hnote, rfl⟩ | ⟨hnote, text, raw, hreads, htags, rfl⟩)
    · exact hanswer.unique (.attachment hnote)
    · exact hanswer.unique (.found hnote hreads htags)

attribute [local instance] Stack.usual Yaml.Loader.own

/-- A link to a note is answered about by the tag of the note. -/
theorem tags_of_file_link :
    linkedTree.WellFormed ∧ folderVault.resolve linkedTree "in.md" = .ok (some ["vault", "note.md"]) ∧
      linkedTree.stat ["vault", "note.md"] = .ok (.file (.bytes [35, 97]) 0) ∧
      folderVault.tags linkedTree "in.md" = .ok (.found ["#a"]) := by
  have hlocate : linkedTree.locate ["vault", "in.md"] = .ok (["vault", "note.md"], some (.file (.bytes [35, 97]) 0)) :=
    rfl
  have hplace : folderVault.root ++ FilePath.segmentsOf (("in.md" : Text).dropWhile (· == CodePoint.slash)) =
      (["vault", "in.md"] : Place) := rfl
  have hresolve : folderVault.resolve linkedTree "in.md" = .ok (some ["vault", "note.md"]) := by
    rw [resolve, hplace, (FileTree.resolve_of_locate wellFormed_linkedTree hlocate).1]
    rfl
  have hfile : linkedTree.stat ["vault", "note.md"] = .ok (.file (.bytes [35, 97]) 0) := rfl
  have hreads : folderVault.ReadsAs (.bytes [35, 97]) "#a" := ⟨by decide, rfl⟩
  have hbody : InlineTags.ofBody "#a" = [("a" : Text)] := by decide +kernel
  have hraw : Note.tags "#a" = .ok [("a" : Text)] := by
    have hsplit : FrontMatter.split "#a" = .ok ([], "#a") := rfl
    rw [Note.tags, hsplit, ← hbody]
    rfl
  obtain ⟨-, -, -, hfound⟩ := tags_of_file wellFormed_linkedTree hresolve hfile
  exact ⟨wellFormed_linkedTree, hresolve, hfile, (hfound _).mpr (.inr ⟨by decide +kernel, _, _, hreads, hraw, rfl⟩)⟩

/-- A note whose front matter has a month that no year has. -/
def datedNote : Text := "---\ndate: 2024-13-01\n---\n#b"

/-- A vault with this note. -/
def datedTree : FileTree where
  items := [(["vault"], .folder), (["vault", "a.md"], .file (.bytes (datedNote.map UInt8.ofNat)) 0)]

theorem wellFormed_datedTree : datedTree.WellFormed := by
  refine FileTree.wellFormed_of_items fun p i h => ?_
  simp only [datedTree, List.mem_cons, List.not_mem_nil, or_false, Prod.mk.injEq] at h
  rcases h with ⟨rfl, rfl⟩ | ⟨rfl, rfl⟩
  · exact ⟨by decide, rfl, nofun⟩
  · exact ⟨by decide, rfl, nofun⟩

theorem load_impossibleDay :
    Yaml.load "date: 2024-13-01" = .error (.fault .badValue "month must be in 1..12") := by
  have htokens : Yaml.Token.ofText "date: 2024-13-01" =
      .ok [.blockMappingStart, .key, .scalar true "date", .value, .scalar true "2024-13-01", .blockEnd] := by
    decide +kernel
  have hkey : Yaml.Meaning.ofPlain "date" = .text := by decide +kernel
  have hday : Yaml.Meaning.ofPlain "2024-13-01" = .time := by decide +kernel
  have hroot : Yaml.Node.ofText "date: 2024-13-01" = .ok (some (.mapping .mapping 5
      [(.scalar (.ofPlain "date") "date", .scalar (.ofPlain "2024-13-01") "2024-13-01")])) := by
    rw [Yaml.Node.ofText, htokens]
    rfl
  rw [Yaml.load, hroot, hkey, hday]
  rfl

/-- The lookup fails on a day that is not in the calendar, though the note is there, can be read, and
    has a tag in its body. -/
theorem tags_impossibleDay :
    datedTree.WellFormed ∧ folderVault.resolve datedTree "a.md" = .ok (some ["vault", "a.md"]) ∧
      datedTree.stat ["vault", "a.md"] = .ok (.file (.bytes (datedNote.map UInt8.ofNat)) 0) ∧
      isNote ["vault", "a.md"] = true ∧ folderVault.ReadsAs (.bytes (datedNote.map UInt8.ofNat)) datedNote ∧
      folderVault.tags datedTree "a.md" = .error (.ofFault .badValue "month must be in 1..12") := by
  have hlocate : datedTree.locate ["vault", "a.md"] =
      .ok (["vault", "a.md"], some (.file (.bytes (datedNote.map UInt8.ofNat)) 0)) := rfl
  have hplace : folderVault.root ++ FilePath.segmentsOf (("a.md" : Text).dropWhile (· == CodePoint.slash)) =
      (["vault", "a.md"] : Place) := rfl
  have hresolve : folderVault.resolve datedTree "a.md" = .ok (some ["vault", "a.md"]) := by
    rw [resolve, hplace, (FileTree.resolve_of_locate wellFormed_datedTree hlocate).1]
    rfl
  have hfile : datedTree.stat ["vault", "a.md"] = .ok (.file (.bytes (datedNote.map UInt8.ofNat)) 0) := rfl
  have hnote : isNote ["vault", "a.md"] = true := by decide +kernel
  have hreads : folderVault.ReadsAs (.bytes (datedNote.map UInt8.ofNat)) datedNote := ⟨by decide, rfl⟩
  have hcut : FrontMatter.cut? datedNote = some (("date: 2024-13-01" : Text), ("#b" : Text)) := rfl
  have htags := Note.tags_eq_error_iff.mpr ⟨_, _, hcut, .inl load_impossibleDay⟩
  exact ⟨wellFormed_datedTree, hresolve, hfile, hnote, hreads,
    (answer_tags wellFormed_datedTree hresolve hfile).unique (.fault hnote hreads htags rfl)⟩

end Vault

end NoteAccess
