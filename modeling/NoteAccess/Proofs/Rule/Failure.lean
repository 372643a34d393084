/-
  NoteAccess.Proofs.Rule.Failure

  What edits of a rules file that fail leave behind.  A change opens the file, which
  empties it, before its new text is encoded.  So a change that fails leaves the files
  as they are, unless the new text has no encoding (`change_eq_error`).

  What has been read from the file can be written to it, so this happens only to a
  new line with a surrogate in it; then the rules that were there are gone
  (`failed_edit`, `append_surrogate_empties`).
-/

import NoteAccess.Proofs.Rule.Addition

namespace NoteAccess

theorem Utf8.encode?_eq_none_iff {t : Text} : encode? t = none ↔ ∃ c ∈ t, c.isSurrogate = true := by
  rw [encode?, ← List.any_eq_true]
  cases t.any CodePoint.isSurrogate <;> simp

namespace RulesFile

variable {t t' : FileTree} {path : FilePath} {failure : Error}

/-- A change that fails leaves the files as they are, or its text has no encoding and the file is
    empty then. -/
theorem change_eq_error {f : List Text → List Text} (h : change f t path = (t', .error failure)) :
    t' = t ∨ ∃ text, textToChange t path = .ok text ∧
      Utf8.encode? (Text.join [CodePoint.newline] (f (text.pieces CodePoint.newline))) = none ∧
      t.write path.segments [] = .ok t' := by
  unfold change at h
  cases htext : textToChange t path with
  | error e =>
    rw [htext] at h
    exact .inl (Prod.mk.inj h).1.symm
  | ok text =>
    rw [htext] at h
    dsimp only at h
    split at h
    · exact .inl (Prod.mk.inj h).1.symm
    · exact .inl (Prod.mk.inj h).1.symm
    · exact .inl (Prod.mk.inj h).1.symm
    · next written hwrite =>
      obtain ⟨rfl, hresult⟩ := Prod.mk.inj h
      cases hencode : Utf8.encode? (Text.join [CodePoint.newline] (f (text.pieces CodePoint.newline))) with
      | none =>
        rw [hencode] at hwrite
        exact .inr ⟨text, rfl, hencode, hwrite⟩
      | some bytes =>
        rw [hencode] at hresult
        cases hresult

/-- A change whose text has no encoding empties the file, if it can be opened. -/
theorem change_of_encode?_eq_none {f : List Text → List Text} {text : Text} (htext : textToChange t path = .ok text)
    (hencode : Utf8.encode? (Text.join [CodePoint.newline] (f (text.pieces CodePoint.newline))) = none)
    (hwrite : t.write path.segments [] = .ok t') : ∃ failure, change f t path = (t', .error failure) := by
  unfold change
  rw [htext]
  dsimp only
  rw [hencode, Option.getD_none, hwrite]
  exact ⟨_, rfl⟩

/-- What is read to be changed can be written. -/
theorem isWritten_of_textToChange {text : Text} (h : textToChange t path = .ok text) : text.IsWritten := by
  obtain hholds | ⟨-, rfl⟩ := textToChange_cases h
  · exact hholds.isWritten
  · exact fun _ hc => absurd hc List.not_mem_nil

/-- Lines that can be written have an encoding together. -/
theorem encode?_ne_none {lines : List Text} (h : ∀ line ∈ lines, line.IsWrittenLine) :
    Utf8.encode? (Text.join [CodePoint.newline] lines) ≠ none := by
  rw [Ne, Utf8.encode?_eq_none_iff]
  rintro ⟨c, hc, hsurrogate⟩
  rw [(Text.isWritten_join h c hc).1.2] at hsurrogate
  cases hsurrogate

/-- Removing and toggling lines of a text that can be written gives such a text. -/
theorem encode?_onLines_ne_none {text : Text} (htext : text.IsWritten) {e : Edit} (he : ∀ k r, e ≠ .append k r) :
    Utf8.encode? (Text.join [CodePoint.newline] (e.onLines (text.pieces CodePoint.newline))) ≠ none :=
  encode?_ne_none (isWrittenLine_onLines (fun _ => Text.isWrittenLine_of_mem_pieces htext)
    fun k r h => absurd h (he k r))

/-- A text with one more line has no encoding exactly if the line has a surrogate in it. -/
theorem encode?_appendLine_eq_none_iff {text line : Text} (htext : text.IsWritten) :
    Utf8.encode? (Text.join [CodePoint.newline] (appendLine line (text.pieces CodePoint.newline))) = none ↔
      ∃ c ∈ line, c.isSurrogate = true := by
  rw [Utf8.encode?_eq_none_iff]
  constructor
  · rintro ⟨c, hjoined, hsurrogate⟩
    obtain hnewline | ⟨line', hline', hc⟩ := Text.mem_join hjoined
    · rw [List.mem_singleton.mp hnewline] at hsurrogate
      cases hsurrogate
    rcases mem_of_mem_appendLine hline' with hold | rfl | rfl
    · rw [(htext c (Text.mem_of_mem_pieces hold hc)).1.2] at hsurrogate
      cases hsurrogate
    · exact ⟨c, hc, hsurrogate⟩
    · cases hc
  · rintro ⟨c, hc, hsurrogate⟩
    exact ⟨c, Text.mem_join_of_mem (mem_appendLine _ _) hc, hsurrogate⟩

/-- An edit that fails leaves the files as they are, with one exception: a line with a surrogate in it
    that is to be added to a file that can be read and opened leaves the file empty. -/
theorem failed_edit (t : FileTree) (path : FilePath) :
    (∀ word r t' failure, append t path word r = (t', .error failure) →
      t' = t ∨ (∃ c ∈ r.writeAs word, c.isSurrogate = true) ∧ t.write path.segments [] = .ok t') ∧
    (∀ word r text t', textToChange t path = .ok text → t.write path.segments [] = .ok t' →
      (∃ c ∈ r.writeAs word, c.isSurrogate = true) →
      (∃ failure, append t path word r = (t', .error failure)) ∧ t'.read path.segments = .ok (.bytes [])) ∧
    (∀ n t' failure, remove t path n = (t', .error failure) → t' = t) ∧
    ∀ n enabled t' failure, toggle t path n enabled = (t', .error failure) → t' = t := by
  have hkept : ∀ (e : Edit) (t' : FileTree) (failure : Error), (∀ k r, e ≠ .append k r) →
      e.perform path t = (t', .error failure) → t' = t := by
    intro e t' failure he h
    rw [Edit.perform_eq_change] at h
    rcases change_eq_error h with rfl | ⟨text, htext, hencode, -⟩
    · rfl
    · exact absurd hencode (encode?_onLines_ne_none (isWritten_of_textToChange htext) he)
  refine ⟨fun word r t' failure h => ?_, fun word r text t' htext hwrite hline => ?_, fun n t' failure h => ?_,
    fun n enabled t' failure h => ?_⟩
  · refine (change_eq_error h).imp_right ?_
    rintro ⟨text, htext, hencode, hwrite⟩
    exact ⟨(encode?_appendLine_eq_none_iff (isWritten_of_textToChange htext)).mp hencode, hwrite⟩
  · have hencode := (encode?_appendLine_eq_none_iff (isWritten_of_textToChange htext)).mpr hline
    exact ⟨change_of_encode?_eq_none htext hencode hwrite, (FileTree.read_after_write hwrite).1⟩
  · exact hkept (.remove n) t' failure nofun h
  · exact hkept (.toggle n enabled) t' failure nofun h

/-- A file with a byte that begins no encoding. -/
def undecodableTree : FileTree := { items := [(["rules"], .file (.bytes [0x61, 0xFF]) 0)] }

/-- A rule whose pattern is a lone surrogate. -/
def surrogateRule : Rule where
  mode := .deny
  pattern := [0xD800]

/-- All edits of a file that cannot be decoded fail, and a surrogate empties a file of rules. -/
theorem failed_edit_undecodable :
    let path : FilePath := ⟨"/", ["rules"]⟩
    let u := undecodableTree
    (∃ t' failure, append u path "folder" surrogateRule = (t', .error failure) ∧
        (t' = u ∨ (∃ c ∈ surrogateRule.writeAs "folder", c.isSurrogate = true) ∧ u.write path.segments [] = .ok t')) ∧
      (∃ t' failure, remove u path 0 = (t', .error failure) ∧ t' = u) ∧
      (∃ t' failure, toggle u path 0 false = (t', .error failure) ∧ t' = u) ∧
      ∃ text t' failure, textToChange (treeOf "rules" "allow folder A") path = .ok text ∧
        (treeOf "rules" "allow folder A").write path.segments [] = .ok t' ∧
        (∃ c ∈ surrogateRule.writeAs "folder", c.isSurrogate = true) ∧
        append (treeOf "rules" "allow folder A") path "folder" surrogateRule = (t', .error failure) ∧
        t'.read path.segments = .ok (.bytes []) := by
  intro path u
  obtain ⟨happend, -, hremove, htoggle⟩ := failed_edit u path
  obtain ⟨-, hemptied, -, -⟩ := failed_edit (treeOf "rules" "allow folder A") path
  have hline : ∃ c ∈ surrogateRule.writeAs "folder", c.isSurrogate = true := by decide
  obtain ⟨⟨failure, hfails⟩, hread⟩ := hemptied "folder" surrogateRule _ _ rfl rfl hline
  exact ⟨⟨_, _, rfl, happend _ _ _ _ rfl⟩, ⟨_, _, rfl, hremove 0 _ _ rfl⟩, ⟨_, _, rfl, htoggle 0 false _ _ rfl⟩,
    _, _, failure, rfl, rfl, hline, hfails, hread⟩

/-- Adding a rule with a surrogate in its pattern fails, and the rule that was in the file is gone. -/
theorem append_surrogate_empties :
    ∃ t' failure,
      append (treeOf "rules" "allow folder A") ⟨"/", ["rules"]⟩ "folder" surrogateRule = (t', .error failure) ∧
      t'.read ["rules"] = .ok (.bytes []) ∧
      (treeOf "rules" "allow folder A").read ["rules"] ≠ .ok (.bytes []) :=
  ⟨_, _, rfl, rfl, by decide⟩

end RulesFile

end NoteAccess
