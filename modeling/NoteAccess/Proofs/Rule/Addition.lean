/-
  NoteAccess.Proofs.Rule.Addition

  A rule that is added to a rules file.  The file is a list of lines, so a rule
  whose pattern holds the end of a line is torn apart: what is read from a line has
  no code points but those of the line (`pattern_subset_of_entryOf`), and no line
  that is read holds an end of a line.  Every other rule that has been made is on
  one line of the file (`isWrittenLine_write`) and comes back from it.

  So adding a rule adds exactly its entry if and only if its pattern is on one line
  (`append_takes_iff`), whether or not the file was there before.
-/

import NoteAccess.Proofs.Rule.Concatenation
import NoteAccess.Proofs.Rule.Editing

namespace NoteAccess

open RuleLine

/-! ## What is read from a line -/

namespace RuleLine

theorem rest_subset_of_wordThenBlank? {t word rest : Text} (h : wordThenBlank? t = some (word, rest)) :
    rest ⊆ t := by
  unfold wordThenBlank? at h
  dsimp only at h
  split at h
  · cases h
  · cases h
    exact List.Sublist.subset ((List.dropWhile_sublist _).trans (List.dropWhile_sublist _))

theorem rest_subset_of_leadingFields? {t mode kind rest : Text} (h : leadingFields? t = some (mode, kind, rest)) :
    rest ⊆ t := by
  obtain ⟨⟨word, after⟩, hword, h⟩ := Option.bind_eq_some_iff.mp h
  obtain ⟨⟨word', after'⟩, hword', h⟩ := Option.bind_eq_some_iff.mp h
  cases h
  exact List.Subset.trans (rest_subset_of_wordThenBlank? hword') (rest_subset_of_wordThenBlank? hword)

/-- A text between quotation marks is read without some of its backslashes. -/
theorem subset_of_closeQuote? {t inner after : Text} (h : closeQuote? t = some (inner, after)) : inner ⊆ t := by
  -- By the cases of `closeQuote?`: one code point, one behind a backslash, the mark, and another.
  induction t using closeQuote?.induct generalizing inner with
  | case1 => cases h
  | case2 =>
    cases h
    exact List.nil_subset _
  | case3 c hquote =>
    rw [closeQuote?, if_neg hquote] at h
    cases h
  | case4 c d rest hescape ih =>
    rw [closeQuote?, if_pos hescape] at h
    obtain ⟨⟨inner', after'⟩, h', he⟩ := Option.map_eq_some_iff.mp h
    cases he
    exact List.subset_cons_of_subset _ (List.cons_subset_cons _ (ih h'))
  | case5 d rest hescape =>
    rw [closeQuote?, if_neg hescape, if_pos rfl] at h
    cases h
    exact List.nil_subset _
  | case6 c d rest hescape hquote ih =>
    rw [closeQuote?, if_neg hescape, if_neg hquote] at h
    obtain ⟨⟨inner', after'⟩, h', he⟩ := Option.map_eq_some_iff.mp h
    cases he
    exact List.cons_subset_cons _ (ih h')

theorem pattern_subset_of_splitPattern {t pattern methods : Text} (h : splitPattern t = .ok (pattern, methods)) :
    pattern ⊆ t := by
  unfold splitPattern at h
  cases t with
  | nil =>
    cases h
    exact List.nil_subset _
  | cons c rest =>
    dsimp only at h
    split at h
    · cases hclose : closeQuote? rest with
      | none => rw [hclose] at h; cases h
      | some found =>
        rw [hclose] at h
        cases h
        exact List.subset_cons_of_subset _ (subset_of_closeQuote? hclose)
    · cases h
      exact List.Sublist.subset ((List.takeWhile_sublist _).trans (List.dropWhile_sublist _))

theorem body_subset_of_splitFlags? {t body letters : Text} (h : splitFlags? t = some (body, letters)) :
    body ⊆ t := by
  induction t generalizing body with
  | nil => cases h
  | cons c rest ih =>
    rw [splitFlags?] at h
    split at h
    · cases h
      exact List.nil_subset _
    · obtain ⟨⟨body', letters'⟩, h', he⟩ := Option.map_eq_some_iff.mp h
      cases he
      exact List.cons_subset_cons _ (ih h')

end RuleLine

namespace RuleEntry

/-- The pattern of a rule is part of the field that it is made of. -/
theorem pattern_subset_of_ofFields {mode kind pattern methods : Text} {enabled : Bool} {n : Int}
    {e : RuleEntry} (h : ofFields mode kind pattern methods enabled n = .ok e) : e.rule.pattern ⊆ pattern := by
  obtain ⟨m, k, ms, ⟨-, -, rfl⟩ | ⟨t, body, flags, rfl, -, hsplit, rfl⟩⟩ := ofFields_cases h
  · exact List.Subset.refl _
  rcases hsplit with ⟨letters, hs, -⟩ | ⟨-, rfl, -⟩
  · exact List.subset_cons_of_subset _ (body_subset_of_splitFlags? hs)
  · exact List.subset_cons_of_subset _ (List.Subset.refl _)

theorem pattern_subset_of_ofContent {enabled : Bool} {content : Text} {n : Int} {e : RuleEntry}
    (h : ofContent enabled content n = .ok e) : e.rule.pattern ⊆ content := by
  unfold ofContent at h
  cases hfields : leadingFields? content with
  | none => rw [hfields] at h; cases h
  | some fields =>
    obtain ⟨mode, kind, rest⟩ := fields
    rw [hfields] at h
    dsimp only at h
    cases hsplit : splitPattern rest.strip with
    | error e => rw [hsplit] at h; cases h
    | ok parts =>
      obtain ⟨pattern, methods⟩ := parts
      rw [hsplit] at h
      intro c hc
      have hpattern : c ∈ rest.strip := pattern_subset_of_splitPattern hsplit (pattern_subset_of_ofFields h hc)
      exact rest_subset_of_leadingFields? hfields (Text.mem_of_mem_strip hpattern)

end RuleEntry

/-- The pattern of an entry is part of its line. -/
theorem Listing.pattern_subset_of_entryOf {line : Text} {index : Nat} {e : RuleEntry}
    (h : entryOf line index = some e) : e.rule.pattern ⊆ line := by
  intro c hc
  rw [entryOf_eq_some] at h
  cases hmark : Text.dropLead? disabledMark line.strip with
  | some rest =>
    rw [RuleEntry.ofLine_of_mark hmark] at h
    have hrest : c ∈ rest := Text.mem_of_mem_strip (RuleEntry.pattern_subset_of_ofContent h hc)
    refine Text.mem_of_mem_strip ?_
    rw [Text.eq_append_of_dropLead? hmark]
    exact List.mem_append_right _ hrest
  | none =>
    rw [RuleEntry.ofLine_of_no_mark hmark] at h
    exact Text.mem_of_mem_strip (RuleEntry.pattern_subset_of_ofContent h hc)

/-! ## What is written on a line -/

namespace Text

/-- Whether a file can hold a text on a line is a matter of its code points. -/
theorem isWrittenLine_iff {t : Text} : t.IsWrittenLine ↔ ∀ c ∈ t, IsWrittenLine [c] := by
  constructor
  · intro h c hc
    refine ⟨List.forall_mem_singleton.mpr (h.1 c hc), fun he => h.2 ?_⟩
    rwa [List.mem_singleton.mp he]
  · intro h
    exact ⟨fun c hc => (h c hc).1 c (List.mem_singleton_self c), fun hc => (h _ hc).2 (List.mem_singleton_self _)⟩

theorem isWrittenLine_append {s t : Text} (hs : s.IsWrittenLine) (ht : t.IsWrittenLine) :
    (s ++ t).IsWrittenLine := by
  rw [isWrittenLine_iff] at hs ht ⊢
  exact List.forall_mem_append.mpr ⟨hs, ht⟩

theorem isWrittenLine_cons {c : CodePoint} {t : Text} (hc : IsWrittenLine [c]) (ht : t.IsWrittenLine) :
    IsWrittenLine (c :: t) :=
  isWrittenLine_append hc ht

theorem isWrittenLine_join {sep : Text} {ps : List Text} (hsep : sep.IsWrittenLine)
    (h : ∀ p ∈ ps, p.IsWrittenLine) : (join sep ps).IsWrittenLine := by
  rw [isWrittenLine_iff] at hsep ⊢
  intro c hc
  rcases mem_join hc with hc | ⟨p, hp, hc⟩
  · exact hsep c hc
  · exact isWrittenLine_iff.mp (h p hp) c hc

end Text

theorem RuleLine.isWrittenLine_quote {t : Text} (h : t.IsWrittenLine) : (quote t).IsWrittenLine := by
  rw [quote_eq]
  refine Text.isWrittenLine_cons (by decide) (Text.isWrittenLine_append ?_ (by decide))
  rw [Text.isWrittenLine_iff] at h ⊢
  intro c hc
  -- Each code point is written as it is, or behind a backslash.
  obtain ⟨d, hd, hc⟩ := List.mem_flatMap.mp hc
  split at hc
  · rcases List.mem_pair.mp hc with rfl | rfl
    · decide
    · exact h _ hd
  · rw [List.mem_singleton.mp hc]
    exact h d hd

namespace Rule

theorem isWrittenLine_bareField {r : Rule} (hw : r.Writable) (h : r.pattern.IsWrittenLine) :
    r.bareField.IsWrittenLine := by
  obtain ⟨-, ⟨hregex, -, -⟩ | ⟨hregex, hflags⟩⟩ := hw
  · rw [bareField, hregex]
    exact h
  · rw [bareField, if_pos hregex]
    refine Text.isWrittenLine_append (Text.isWrittenLine_cons (by decide) h) ?_
    rcases hflags with ⟨letters, hletters, hmem⟩ | ⟨hnone, -⟩
    · have hline : letters.IsWrittenLine := by
        have hletter : ∀ c ∈ flagLetters, Text.IsWrittenLine [c] := by decide
        rw [Text.isWrittenLine_iff]
        exact fun c hc => hletter c (hmem c hc)
      rw [hletters]
      dsimp only
      split
      · decide
      · exact Text.isWrittenLine_cons (by decide) hline
    · rw [hnone]
      decide

theorem isWrittenLine_patternField {r : Rule} (hw : r.Writable) (h : r.pattern.IsWrittenLine) :
    r.patternField.IsWrittenLine := by
  have hbare := isWrittenLine_bareField hw h
  unfold patternField
  split
  · exact isWrittenLine_quote hbare
  · exact hbare

/-- A pattern that a file can hold on a line is on one line with the rest of its rule. -/
theorem isWrittenLine_write (k : Kind) {r : Rule} (hw : r.Writable) (h : r.pattern.IsWrittenLine) :
    (r.write k).IsWrittenLine := by
  have hmark : Text.IsWrittenLine (if r.enabled then [] else disabledMark) := by
    cases r.enabled <;> decide
  have hmode : r.mode.word.IsWrittenLine := by
    cases r.mode <;> decide
  have hkind : k.word.IsWrittenLine := by
    cases k <;> decide
  have hgap : Text.IsWrittenLine fieldGap := by decide
  have hmethods : r.methodsTail.IsWrittenLine := by
    have hname : ∀ m : Method, m.name.IsWrittenLine := by
      intro m
      cases m <;> decide
    unfold methodsTail methodsField
    split
    · decide
    · refine Text.isWrittenLine_append hgap (Text.isWrittenLine_join (by decide) ?_)
      intro w hmem
      obtain ⟨m, -, rfl⟩ := List.mem_map.mp hmem
      exact hname m
  rw [write_eq]
  exact Text.isWrittenLine_append hmark (Text.isWrittenLine_append hmode (Text.isWrittenLine_append hgap
    (Text.isWrittenLine_append hkind (Text.isWrittenLine_append hgap
      (Text.isWrittenLine_append (isWrittenLine_patternField hw h) hmethods)))))

end Rule

/-! ## The file -/

namespace RulesFile

/-- The text that is changed is that of the file, or empty if there is none. -/
theorem textToChange_cases {t : FileTree} {path : FilePath} {text : Text} (h : textToChange t path = .ok text) :
    Holds t path text ∨ (t.exists? path.segments = .ok false ∧ text = []) := by
  unfold textToChange at h
  dsimp only at h
  cases hexists : t.exists? path.segments with
  | error f => rw [hexists] at h; cases h
  | ok there =>
    rw [bind_mapError_of_ok hexists] at h
    cases there with
    | false =>
      cases h
      exact .inr ⟨rfl, rfl⟩
    | true =>
      rw [if_pos rfl] at h
      cases hread : t.read path.segments with
      | error f => rw [hread] at h; cases h
      | ok content =>
        rw [bind_mapError_of_ok hread] at h
        cases htext : Encoding.utf8.readText content.toBytes with
        | error e => rw [htext] at h; cases h
        | ok text' =>
          rw [htext] at h
          cases h
          exact .inl ⟨hexists, content, hread, htext⟩

/-- A change that succeeds has written a text that has an encoding. -/
theorem written_of_change {f : List Text → List Text} {t t' : FileTree} {path : FilePath}
    (h : change f t path = (t', .ok ())) :
    ∃ text bytes, textToChange t path = .ok text ∧
      Utf8.encode? (Text.join [CodePoint.newline] (f (text.pieces CodePoint.newline))) = some bytes ∧
      t'.read path.segments = .ok (.bytes bytes) ∧ t'.exists? path.segments = .ok true := by
  unfold change at h
  cases htext : textToChange t path with
  | error e => rw [htext] at h; cases h
  | ok text =>
    rw [htext] at h
    dsimp only at h
    split at h
    · cases h
    · cases h
    · cases h
    · next t₁ hwrite =>
      obtain ⟨rfl, hresult⟩ := Prod.mk.inj h
      cases hencode : Utf8.encode? (Text.join [CodePoint.newline] (f (text.pieces CodePoint.newline))) with
      | none => rw [hencode] at hresult; cases hresult
      | some bytes =>
        rw [hencode] at hwrite
        exact ⟨text, bytes, rfl, hencode, FileTree.read_after_write hwrite⟩

/-- What is read is the text of the file, and nothing if there is none. -/
theorem readText_cases {t : FileTree} {path : FilePath} {found : Option Text} (h : readText t path = .ok found) :
    (∃ text, found = some text ∧ Holds t path text) ∨ (t.exists? path.segments = .ok false ∧ found = none) := by
  unfold readText at h
  cases hexists : t.exists? path.segments with
  | error f => rw [hexists] at h; cases h
  | ok there =>
    rw [bind_mapError_of_ok hexists] at h
    cases there with
    | false =>
      cases h
      exact .inr ⟨rfl, rfl⟩
    | true =>
      rw [if_neg (by simp)] at h
      cases hread : t.read path.segments with
      | error f => rw [hread] at h; cases h
      | ok content =>
        rw [bind_mapError_of_ok hread] at h
        split at h
        · cases h
        · cases htext : Encoding.utf8.readText content.toBytes with
          | error e => rw [htext] at h; cases h
          | ok text =>
            rw [htext] at h
            cases h
            exact .inl ⟨text, rfl, hexists, content, hread, htext⟩

/-- The rules that are loaded, which are none if there is no file, are those of the text that is
    changed, and this text can be parsed. -/
theorem entries_of_load {t : FileTree} {path : FilePath} {text : Text} {found : Option Listing}
    (htext : textToChange t path = .ok text) (h : (load t path).result = .ok found) :
    found.elim [] Listing.entries = Listing.entriesOf text ∧ (Listing.ofText text).Succeeds := by
  cases found with
  | some l =>
    obtain ⟨text', hread, hl⟩ := load_eq_ok_some.mp h
    obtain ⟨_, hsome, hexists, content, hcontent, hdecode⟩ | ⟨-, hnone⟩ := readText_cases hread
    · cases hsome
      obtain ⟨-, content', hcontent', hdecode'⟩ | ⟨hmissing, -⟩ := textToChange_cases htext
      · cases hcontent.symm.trans hcontent'
        cases hdecode.symm.trans hdecode'
        exact ⟨(Listing.ofText_eq_ok hl).2.1, l, hl⟩
      · cases hexists.symm.trans hmissing
    · cases hnone
  | none =>
    unfold load at h
    obtain ⟨content?, hread, h⟩ := Run.bind_eq_ok.mp h
    obtain ⟨text', rfl, -⟩ | ⟨hmissing, -⟩ := readText_cases hread
    · obtain ⟨l, -, h⟩ := Run.bind_eq_ok.mp h
      cases h
    · obtain ⟨hexists, -⟩ | ⟨-, rfl⟩ := textToChange_cases htext
      · cases hexists.symm.trans hmissing
      · exact ⟨rfl, _, rfl⟩

/-- The line that is added is there. -/
theorem mem_appendLine (line : Text) (lines : List Text) : line ∈ appendLine line lines := by
  unfold appendLine
  split <;> simp

/-- Besides the line that is added there are lines from before, and an empty one. -/
theorem mem_of_mem_appendLine {line line' : Text} {lines : List Text} (h : line' ∈ appendLine line lines) :
    line' ∈ lines ∨ line' = line ∨ line' = [] := by
  unfold appendLine at h
  split at h
  · rw [List.mem_append, List.mem_pair] at h
    refine h.imp_left fun hkept => ?_
    split at hkept
    · exact List.dropLast_subset _ hkept
    · exact hkept
  · exact .inr (List.mem_pair.mp h)

/-- A rule whose line has an encoding has a pattern that a file can hold, but for ends of lines. -/
theorem isWrittenLine_of_encode {k : Kind} {r : Rule} {lines : List Text} {bytes : List UInt8} (htidy : r.tidy = r)
    (hwritable : r.Writable) (hpoints : ∀ c ∈ r.pattern, c < 0x110000)
    (hencode : Utf8.encode? (Text.join [CodePoint.newline] (appendLine (r.write k) lines)) = some bytes)
    (hnewline : CodePoint.newline ∉ r.pattern) (hreturn : CodePoint.carriageReturn ∉ r.pattern) :
    r.pattern.IsWrittenLine := by
  have hpattern : r.pattern ⊆ r.write k :=
    Listing.pattern_subset_of_entryOf (Listing.entryOf_write k htidy hwritable 0)
  have hsurrogate : ∀ c ∈ r.pattern, c.isSurrogate = false := by
    intro c hc
    unfold Utf8.encode? at hencode
    split at hencode
    · cases hencode
    · next hnone =>
      rw [Bool.not_eq_true, List.any_eq_false] at hnone
      simpa using hnone c (Text.mem_join_of_mem (mem_appendLine _ _) (hpattern hc))
  refine ⟨fun c hc => ⟨⟨hpoints c hc, hsurrogate c hc⟩, ?_⟩, hnewline⟩
  rintro rfl
  exact hreturn hc

/-- A text that is parsed is parsed with the line of a rule as well. -/
theorem succeeds_appendLine {text : Text} {k : Kind} {r : Rule} (htidy : r.tidy = r) (hwritable : r.Writable)
    (hcompiles : r.Compiles) (hline : CodePoint.newline ∉ r.write k) (h : (Listing.ofText text).Succeeds) :
    (Listing.ofText ((Edit.append k r).onText text)).Succeeds := by
  rw [Listing.succeeds_ofText_iff] at h ⊢
  have hends : ∀ line ∈ appendLine (r.write k) (text.pieces CodePoint.newline), CodePoint.newline ∉ line := by
    intro line hmem
    rcases mem_of_mem_appendLine hmem with hold | rfl | rfl
    · exact Text.not_mem_of_mem_pieces hold
    · exact hline
    · exact List.not_mem_nil
  have hne : appendLine (r.write k) (text.pieces CodePoint.newline) ≠ [] := by
    unfold appendLine
    split <;> simp
  rw [Edit.onText, Edit.onLines, Text.pieces_join hends hne]
  intro line hmem e he
  rcases mem_of_mem_appendLine hmem with hold | rfl | rfl
  · exact h line hold e he
  · rw [Listing.entryOf_write k htidy hwritable] at he
    cases he
    exact hcompiles
  · cases he

/-- Adding a rule that has been made adds its entry to those that are loaded, and nothing else,
    exactly if the pattern is on one line. -/
theorem append_takes_iff {t t' : FileTree} {path : FilePath} {before : Option Listing} {k : Kind} {r : Rule}
    (htidy : r.tidy = r) (hwritable : r.Writable) (hcompiles : r.Compiles) (hpoints : ∀ c ∈ r.pattern, c < 0x110000)
    (happend : append t path k.word r = (t', .ok ())) (hload : (load t path).result = .ok before)
    (hsize : ∀ content, t'.read path.segments = .ok content → content.size ≤ maxSize) :
    (CodePoint.newline ∉ r.pattern ∧ CodePoint.carriageReturn ∉ r.pattern) ↔
      ∃ l, (load t' path).result = .ok (some l) ∧
        (Edit.append k r).Takes (before.elim [] Listing.entries) l.entries := by
  obtain ⟨text, bytes, htext, hencode, hread, hexists⟩ := written_of_change happend
  obtain ⟨hentries, hparsed⟩ := entries_of_load htext hload
  constructor
  · rintro ⟨hnewline, hreturn⟩
    have hpattern := isWrittenLine_of_encode htidy hwritable hpoints hencode hnewline hreturn
    have hline := Rule.isWrittenLine_write k hwritable hpattern
    have hwritten : text.IsWritten := by
      obtain hholds | ⟨-, rfl⟩ := textToChange_cases htext
      · exact hholds.isWritten
      · exact fun _ hc => absurd hc List.not_mem_nil
    obtain ⟨hafter, htakes⟩ := takes_onText (e := .append k r) hwritten ⟨htidy, hwritable, hline⟩
    -- What has been written is the text with one more line, so this is what is read.
    obtain ⟨bytes', hencode', hdecode⟩ := Text.readText_encode hafter
    obtain rfl : bytes = bytes' := Option.some.inj (hencode.symm.trans hencode')
    have hholds : Holds t' path ((Edit.append k r).onText text) := ⟨hexists, _, hread, hdecode⟩
    obtain ⟨l, hl⟩ := succeeds_appendLine htidy hwritable hcompiles hline.2 hparsed
    obtain ⟨hloaded, hlisted⟩ := load_of_holds hholds hread (hsize _ hread) hl
    exact ⟨l, hloaded, by rwa [hentries, hlisted]⟩
  · rintro ⟨l, hl, n, -, hafter⟩
    -- The entry of the rule stands on a line of what is read, and the line has the pattern in it.
    obtain ⟨text', hread', hlisting⟩ := load_eq_ok_some.mp hl
    obtain ⟨_, hsome, hholds⟩ | ⟨-, hnone⟩ := readText_cases hread'
    · cases hsome
      have hmem : (⟨k, n, { r with sourceLine := n }⟩ : RuleEntry) ∈ Listing.entriesOf text' := by
        rw [Listing.entriesOf, ← (Listing.ofText_eq_ok hlisting).2.1, hafter]
        simp
      obtain ⟨⟨line, index⟩, hitem, hentry⟩ := List.mem_filterMap.mp hmem
      have hline : line ∈ text'.pieces CodePoint.newline := List.fst_mem_of_mem_zipIdx hitem
      obtain ⟨hpoints', hnewline⟩ := Text.isWrittenLine_of_mem_pieces hholds.isWritten hline
      have hpattern : r.pattern ⊆ line := Listing.pattern_subset_of_entryOf hentry
      exact ⟨fun hc => hnewline (hpattern hc), fun hc => (hpoints' _ (hpattern hc)).2 rfl⟩
    · cases hnone

end RulesFile

end NoteAccess
