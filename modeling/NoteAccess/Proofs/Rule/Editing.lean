/-
  NoteAccess.Proofs.Rule.Editing

  Editing a rules file is editing the list of its rules.

  `Edit.Takes` says what an edit does to a list of entries.  The step is
  `takes_onText` for the entries of a text and `change_eq_ok` for the file; the
  induction over a sequence of edits (`load_performAll`) carries the text of the
  file along (`Holds`).
-/

import NoteAccess.Proofs.FileTree
import NoteAccess.Proofs.Rule.LineEdit

namespace NoteAccess

/-- The entries of a text. -/
def Listing.entriesOf (text : Text) : List RuleEntry := entriesFrom 0 (text.pieces CodePoint.newline)

namespace RulesFile

/-! ## Edits -/

/-- A change of a rules file. -/
inductive Edit where
  | append (k : Kind) (r : Rule)
  | remove (n : Int)
  | toggle (n : Int) (enabled : Bool)

namespace Edit

/-- The tree with the file changed. -/
def perform (path : FilePath) (t : FileTree) : Edit → FileTree × Except Error Unit
  | append k r => RulesFile.append t path k.word r
  | remove n => RulesFile.remove t path n
  | toggle n b => RulesFile.toggle t path n b

/-- The lines after an edit. -/
def onLines (lines : List Text) : Edit → List Text
  | append k r => appendLine (r.write k) lines
  | remove n => removeLine n lines
  | toggle n b => toggleLine n b lines

/-- The text after an edit. -/
def onText (text : Text) (e : Edit) : Text :=
  Text.join [CodePoint.newline] (e.onLines (text.pieces CodePoint.newline))

theorem perform_eq_change (path : FilePath) (t : FileTree) (e : Edit) :
    e.perform path t = change (onLines · e) t path := by
  cases e <;> rfl

/-- The edit adds a rule whose line is a single one and gives the rule back, or it is about
    the line of an entry or about no line at all. -/
def Fits (text : Text) : Edit → Prop
  | append k r => r.tidy = r ∧ r.Writable ∧ (r.write k).IsWrittenLine
  | remove n | toggle n _ =>
    (∃ e ∈ Listing.entriesOf text, e.lineNumber = n) ∨ n < 0 ∨ (text.pieces CodePoint.newline).length ≤ n

/-- What an edit makes of a list of entries. -/
def Takes (before after : List RuleEntry) : Edit → Prop
  | append k r => ∃ n : Int, (∀ e ∈ before, e.lineNumber < n) ∧
      after = before ++ [⟨k, n, { r with sourceLine := n }⟩]
  | remove n =>
    after = if ∃ e ∈ before, e.lineNumber = n then before.filterMap (RuleEntry.withoutLine n) else before
  | toggle n b => after = before.map (RuleEntry.toggledOn n b)

end Edit

/-! ## Edits of lines and of entries -/

/-- Lines that are joined have their entries in the text. -/
theorem entriesOf_join {lines : List Text} (h : ∀ line ∈ lines, CodePoint.newline ∉ line) :
    Listing.entriesOf (Text.join [CodePoint.newline] lines) = Listing.entriesFrom 0 lines := by
  cases lines with
  | nil => rfl  -- Without lines there is one empty line, which has no entry.
  | cons line rest => rw [Listing.entriesOf, Text.pieces_join h (List.cons_ne_nil _ _)]

theorem isWrittenLine_onLines {lines : List Text} {e : Edit} (hlines : ∀ line ∈ lines, line.IsWrittenLine)
    (happend : ∀ k r, e = .append k r → (r.write k).IsWrittenLine) :
    ∀ line ∈ e.onLines lines, line.IsWrittenLine := by
  cases e with
  | append k r =>
    have hkept : ∀ kept : List Text, (∀ line ∈ kept, line.IsWrittenLine) →
        ∀ line ∈ kept ++ [r.write k, []], line.IsWrittenLine := by
      intro kept h
      refine List.forall_mem_append.mpr ⟨h, ?_⟩
      simpa [Text.IsWrittenLine, Text.IsWritten] using happend k r rfl
    rw [Edit.onLines, appendLine]
    split
    · split
      · exact hkept _ fun line hline => hlines line (List.dropLast_subset _ hline)
      · exact hkept _ hlines
    · exact hkept [] (by simp)
  | remove n =>
    rw [Edit.onLines, removeLine]
    split
    · exact hlines
    · exact fun line hline => hlines line (List.mem_of_mem_eraseIdx hline)
  | toggle n b =>
    rw [Edit.onLines, toggleLine]
    split
    · exact hlines
    · -- A line is one of the lines before, or one of these with its rule toggled.
      intro line hline
      obtain ⟨i, hi⟩ := List.mem_iff_getElem?.mp hline
      rw [List.getElem?_modify] at hi
      obtain ⟨line', hline', rfl⟩ := Option.map_eq_some_iff.mp hi
      have hwritten := hlines line' (List.mem_of_getElem? hline')
      split
      · exact isWrittenLine_toggled b hwritten
      · exact hwritten

/-- The lines of a text change as the entries of the text do. -/
theorem takes_onLines {text : Text} {e : Edit} (h : e.Fits text) :
    e.Takes (Listing.entriesOf text) (Listing.entriesFrom 0 (e.onLines (text.pieces CodePoint.newline))) := by
  cases e with
  | append k r =>
    obtain ⟨htidy, hwritable, -⟩ := h
    obtain ⟨n, hbefore, hafter⟩ :=
      Listing.entriesFrom_appendLine (r.write k) (text.pieces CodePoint.newline)
    refine ⟨n, hbefore, ?_⟩
    rw [Edit.onLines, hafter, Listing.entryOf_write k htidy hwritable]
    rfl
  | remove n => exact Listing.entriesFrom_removeLine h
  | toggle n b => exact Listing.entriesFrom_toggleLine b h

/-- The text after a fitting edit can be written, and its entries are those before as the
    edit takes them. -/
theorem takes_onText {text : Text} {e : Edit} (htext : text.IsWritten) (h : e.Fits text) :
    (e.onText text).IsWritten ∧ e.Takes (Listing.entriesOf text) (Listing.entriesOf (e.onText text)) := by
  have hlines : ∀ line ∈ e.onLines (text.pieces CodePoint.newline), line.IsWrittenLine := by
    refine isWrittenLine_onLines (fun line => Text.isWrittenLine_of_mem_pieces htext) ?_
    rintro k r rfl
    exact h.2.2
  refine ⟨Text.isWritten_join hlines, ?_⟩
  rw [Edit.onText, entriesOf_join fun line hline => (hlines line hline).2]
  exact takes_onLines h

/-! ## Edits of a file -/

/-- There is a file with a text. -/
def Holds (t : FileTree) (path : FilePath) (text : Text) : Prop :=
  t.exists? path.segments = .ok true ∧
    ∃ content, t.read path.segments = .ok content ∧ Encoding.utf8.readText content.toBytes = .ok text

theorem Holds.isWritten {t : FileTree} {path : FilePath} {text : Text} (h : Holds t path text) :
    text.IsWritten := by
  obtain ⟨-, content, -, htext⟩ := h
  exact Text.isWritten_of_readText htext

theorem bind_mapError_of_ok {ε ε' α β : Type} {x : Except ε α} {a : α} (h : x = .ok a) (f : ε → ε')
    (next : α → Except ε' β) : (x.mapError f >>= next) = next a := by
  rw [h]
  rfl

/-- A text that can be written is what the file then has. -/
theorem change_eq_ok {t : FileTree} {path : FilePath} {text : Text} {f : List Text → List Text}
    (h : Holds t path text)
    (hf : (Text.join [CodePoint.newline] (f (text.pieces CodePoint.newline))).IsWritten) :
    ∃ t', change f t path = (t', .ok ()) ∧
      Holds t' path (Text.join [CodePoint.newline] (f (text.pieces CodePoint.newline))) := by
  obtain ⟨hexists, content, hread, htext⟩ := h
  have hchange : textToChange t path = .ok text := by
    unfold textToChange
    dsimp only
    rw [bind_mapError_of_ok hexists, if_pos rfl, bind_mapError_of_ok hread, htext]
    rfl
  obtain ⟨bytes, hencode, hdecode⟩ := Text.readText_encode hf
  obtain ⟨t', hwrite, hread', hexists'⟩ := FileTree.read_of_write hread bytes
  refine ⟨t', ?_, hexists', _, hread', hdecode⟩
  rw [change, hchange]
  dsimp only
  rw [hencode, Option.getD_some, hwrite]
  rfl

/-- A file of a text is read unless it is too large. -/
theorem load_of_holds {t : FileTree} {path : FilePath} {text : Text} (h : Holds t path text)
    {content : FileContent} (hread : t.read path.segments = .ok content) (hsize : content.size ≤ maxSize)
    {l : Listing} (hl : (Listing.ofText text).result = .ok l) :
    (load t path).result = .ok (some l) ∧ l.entries = Listing.entriesOf text := by
  obtain ⟨hexists, content', hread', htext⟩ := h
  obtain rfl : content = content' := Except.ok.inj (hread.symm.trans hread')
  have hreadText : readText t path = .ok (some text) := by
    unfold readText
    rw [bind_mapError_of_ok hexists, if_neg (by simp), bind_mapError_of_ok hread, if_neg (Nat.not_lt.mpr hsize),
      htext]
    rfl
  exact ⟨load_eq_ok_some.mpr ⟨text, hreadText, hl⟩, (Listing.ofText_eq_ok hl).2.1⟩

/-! ## Sequences of edits -/

/-- The tree after edits, up to the first that fails. -/
def performAll (path : FilePath) (t : FileTree) : List Edit → FileTree × Except Error Unit
  | [] => (t, .ok ())
  | e :: edits =>
    match e.perform path t with
    | (t', .ok ()) => performAll path t' edits
    | (t', .error failure) => (t', .error failure)

/-- The text after edits. -/
def textAfter (text : Text) (edits : List Edit) : Text := edits.foldl Edit.onText text

/-- Each edit fits the text that it finds. -/
def FitAll (text : Text) : List Edit → Prop
  | [] => True
  | e :: edits => e.Fits text ∧ FitAll (e.onText text) edits

/-- What edits make of a list of entries, one after the other. -/
def Yields (entries : List RuleEntry) (edits : List Edit) (after : List RuleEntry) : Prop :=
  match edits with
  | [] => after = entries
  | e :: edits => ∃ next, e.Takes entries next ∧ Yields next edits after

/-- Edits that fit succeed, and what they make of the entries are the entries of the text
    that the file then has. -/
theorem holds_performAll {t : FileTree} {path : FilePath} {text : Text} (h : Holds t path text)
    {edits : List Edit} (hfit : FitAll text edits) :
    ∃ t', performAll path t edits = (t', .ok ()) ∧ Holds t' path (textAfter text edits) ∧
      Yields (Listing.entriesOf text) edits (Listing.entriesOf (textAfter text edits)) := by
  -- The text is what ties the tree to the entries, so the induction is for all of both.
  induction edits generalizing t text with
  | nil => exact ⟨t, rfl, h, rfl⟩
  | cons e edits ih =>
    obtain ⟨hfits, hrest⟩ := hfit
    obtain ⟨hwritten, htakes⟩ := takes_onText h.isWritten hfits
    obtain ⟨t₁, hperform, hholds⟩ := change_eq_ok (f := (e.onLines ·)) h hwritten
    obtain ⟨t', hperformAll, hholds', hyields⟩ := ih hholds hrest
    refine ⟨t', ?_, hholds', _, htakes, hyields⟩
    rw [performAll, Edit.perform_eq_change, hperform]
    exact hperformAll

/-- Editing a rules file is editing the list of its entries: edits that fit succeed, and what
    they make of the entries is what is loaded then, unless the file has grown too large or
    cannot be parsed. -/
theorem load_performAll {t : FileTree} {path : FilePath} {text : Text} (h : Holds t path text)
    {edits : List Edit} (hfit : FitAll text edits) :
    ∃ t' entries, performAll path t edits = (t', .ok ()) ∧ Holds t' path (textAfter text edits) ∧
      Yields (Listing.entriesOf text) edits entries ∧
      ∀ content l, t'.read path.segments = .ok content → content.size ≤ maxSize →
        (Listing.ofText (textAfter text edits)).result = .ok l →
        (load t' path).result = .ok (some l) ∧ l.entries = entries := by
  obtain ⟨t', hperform, hholds, hyields⟩ := holds_performAll h hfit
  refine ⟨t', _, hperform, hholds, hyields, ?_⟩
  intro content l hread hsize hl
  exact load_of_holds hholds hread hsize hl

/-- A tree with one file, of a text in ASCII. -/
def treeOf (name text : Text) : FileTree :=
  { items := [([name], .file (.bytes (text.map UInt8.ofNat)) 0)] }

/-- A comment, a padded rule and a last line without its end: one rule is added, the first
    disabled and then removed, and places that there are not make no difference. -/
theorem load_performAll_comment :
    let text : Text := "# A\n  deny folder A  \nallow name B"
    let t := treeOf "rules" text
    let path : FilePath := ⟨"/", ["rules"]⟩
    let edits : List Edit :=
      [.append .tag ⟨.allow, "#x y", false, none, some [.get], true, -1⟩, .toggle 1 false, .remove 1,
        .toggle (-1) true, .remove 9]
    Holds t path text ∧ FitAll text edits ∧
      ∃ t' entries, performAll path t edits = (t', .ok ()) ∧ Holds t' path (textAfter text edits) ∧
        Yields (Listing.entriesOf text) edits entries ∧
        ∀ content l, t'.read path.segments = .ok content → content.size ≤ maxSize →
          (Listing.ofText (textAfter text edits)).result = .ok l →
          (load t' path).result = .ok (some l) ∧ l.entries = entries := by
  intro text t path edits
  have hholds : Holds t path text := ⟨rfl, _, rfl, rfl⟩
  have hfit : FitAll text edits := by
    refine ⟨⟨rfl, ⟨by decide, .inl ⟨rfl, by decide, rfl⟩⟩, by decide⟩, ?_, ?_, ?_, ?_, trivial⟩
    · exact .inl (by decide +kernel)
    · exact .inl (by decide +kernel)
    · exact .inr (.inl (by decide))
    · exact .inr (.inr (by decide +kernel))
  exact ⟨hholds, hfit, load_performAll hholds hfit⟩

/-- A rule with a code point that has no encoding is not added, though its line gives it back
    and is a single one. -/
theorem append_surrogate :
    let text : Text := "allow folder A\n"
    let t := treeOf "rules" text
    let path : FilePath := ⟨"/", ["rules"]⟩
    let r : Rule := ⟨.deny, [0xD800], false, none, none, true, -1⟩
    Holds t path text ∧
      (∃ l, (load t path).result = .ok (some l) ∧ l.entries = Listing.entriesOf text) ∧
      r.tidy = r ∧ r.Writable ∧ CodePoint.carriageReturn ∉ r.write .folder ∧
      CodePoint.newline ∉ r.write .folder ∧
      (∃ failure, ((Edit.append .folder r).perform path t).2 = .error failure) ∧
      ∀ l, (load ((Edit.append .folder r).perform path t).1 path).result = .ok (some l) →
        ¬ (Edit.append .folder r).Takes (Listing.entriesOf text) l.entries := by
  intro text t path r
  refine ⟨⟨rfl, _, rfl, rfl⟩, ⟨_, rfl, rfl⟩, rfl, ⟨by decide, .inl ⟨rfl, by decide, rfl⟩⟩, by decide, by decide,
    ⟨_, rfl⟩, ?_⟩
  rintro l hl ⟨n, -, hentries⟩
  cases hl
  cases hentries

end RulesFile

end NoteAccess
