/-
  NoteAccess.Proofs.Rule.LineEdit

  What changes of lines mean for the entries.  The mark in front of a rule is all
  that tells a disabled rule from an enabled one (`entryOf_toggled`), and the line
  of a rule gives its entry (`entryOf_write`).

  So adding, removing and toggling lines adds, removes and toggles entries, and the
  entries of later lines move with their lines (`entriesFrom_appendLine`,
  `entriesFrom_removeLine`, `entriesFrom_toggleLine`).
-/

import NoteAccess.Proofs.Rule.Listing
import NoteAccess.Proofs.Rule.RoundTrip
import NoteAccess.Proofs.Text.Encoding

namespace NoteAccess

open RuleLine RulesFile

namespace Text

/-! ## Stripped texts -/

theorem trimmed_strip (t : Text) : t.strip.Trimmed := by
  have hhead : ∀ u : Text, ∀ c ∈ (u.dropWhile CodePoint.isBlank).head?, c.isBlank = false := by
    intro u c hc
    have h := List.head?_dropWhile_not CodePoint.isBlank u
    rw [Option.mem_def.mp hc] at h
    exact h
  have hreverse : t.strip.reverse = t.stripLeft.reverse.dropWhile CodePoint.isBlank := by
    rw [strip, dropRightWhile, List.reverse_reverse]
  constructor
  · -- What is left on the right of it is a beginning of the text without the blanks on its left.
    obtain ⟨blanks, hblanks⟩ : t.strip <+: t.stripLeft := by
      rw [← List.reverse_suffix, hreverse]
      exact List.dropWhile_suffix _
    intro c hc
    refine hhead t c ?_
    have hleft : t.stripLeft = t.dropWhile CodePoint.isBlank := rfl
    rw [← hleft, ← hblanks, List.head?_append, Option.mem_def.mp hc]
    rfl
  · intro c hc
    rw [← List.head?_reverse, hreverse] at hc
    exact hhead _ c hc

theorem strip_strip (t : Text) : t.strip.strip = t.strip := (trimmed_strip t).strip

end Text

/-! ## Lines with and without their mark -/

/-- A trimmed line stays trimmed behind the mark. -/
theorem RuleLine.trimmed_mark {t : Text} (ht : t.Trimmed) (hne : t ≠ []) : (disabledMark ++ t).Trimmed :=
  Text.Trimmed.append (s := "#!disabled") [CodePoint.space] ⟨by decide, by decide⟩ ht (by decide) hne

namespace RuleEntry

/-- The entry of what stands behind the mark of a disabled rule, or of a whole line without
    the mark. -/
def ofContent (enabled : Bool) (content : Text) (n : Int) : Except LineError RuleEntry :=
  match leadingFields? content with
  | none => .error .tooFewFields
  | some (mode, kind, rest) =>
    (splitPattern rest.strip).bind fun (pattern, methods) => ofFields mode kind pattern methods enabled n

theorem ofLine_of_mark {line rest : Text} (h : Text.dropLead? disabledMark line = some rest) (n : Int) :
    ofLine line n = ofContent false rest.strip n := by
  unfold ofLine ofContent
  rw [h]
  dsimp only
  cases leadingFields? rest.strip <;> rfl

theorem ofLine_of_no_mark {line : Text} (h : Text.dropLead? disabledMark line = none) (n : Int) :
    ofLine line n = ofContent true line n := by
  unfold ofLine ofContent
  rw [h]
  dsimp only
  cases leadingFields? line <;> rfl

theorem ofContent_setEnabled (a b : Bool) (content : Text) (n : Int) :
    ofContent b content n = (ofContent a content n).map (·.setEnabled b) := by
  unfold ofContent
  cases leadingFields? content with
  | none => rfl
  | some fields =>
    obtain ⟨mode, kind, rest⟩ := fields
    dsimp only
    cases splitPattern rest.strip with
    | error e => rfl
    | ok parts =>
      obtain ⟨pattern, methods⟩ := parts
      dsimp only [Except.bind]
      rw [ofFields_eq_map _ _ _ _ a, ofFields_eq_map _ _ _ _ b]
      cases ofFields mode kind pattern methods true 0 <;> rfl

theorem setEnabled_of_ofContent {enabled : Bool} {content : Text} {n : Int} {e : RuleEntry}
    (h : ofContent enabled content n = .ok e) : e.setEnabled enabled = e := by
  have hsame := ofContent_setEnabled enabled enabled content n
  rw [h] at hsame
  exact (Except.ok.inj hsame).symm

/-- The first word of a line begins as the line does. -/
theorem head?_of_leadingFields? {c : CodePoint} {line mode kind rest : Text}
    (h : leadingFields? (c :: line) = some (mode, kind, rest)) : mode.head? = some c := by
  obtain ⟨⟨word, after⟩, hword, h⟩ := Option.bind_eq_some_iff.mp h
  obtain ⟨⟨word', after'⟩, -, h⟩ := Option.bind_eq_some_iff.mp h
  cases h
  unfold wordThenBlank? at hword
  dsimp only at hword
  split at hword
  · cases hword
  · next hne =>
    obtain ⟨rfl, -⟩ := Prod.mk.inj (Option.some.inj hword)
    rw [List.takeWhile_cons] at hne ⊢
    split
    · rfl
    · next hblank =>
      rw [if_neg hblank] at hne
      exact absurd rfl hne

/-- A rule begins with the word of its verdict, so not like a comment. -/
theorem head?_of_ofContent {enabled : Bool} {content : Text} {n : Int} {e : RuleEntry}
    (h : ofContent enabled content n = .ok e) : content ≠ [] ∧ content.head? ≠ some CodePoint.hash := by
  cases content with
  | nil => cases h
  | cons c rest =>
    refine ⟨List.cons_ne_nil _ _, fun hc => ?_⟩
    obtain rfl : c = CodePoint.hash := by simpa using hc
    -- A word that begins so is no verdict.
    have hmode : ∀ w : Text, Mode.ofWord? (Text.lower (CodePoint.hash :: w)) = none := by
      intro w
      have hlower : Text.lower (CodePoint.hash :: w) = CodePoint.hash :: Text.lower.go [CodePoint.hash] w := rfl
      rw [hlower]
      have hallow : ¬ (97 : CodePoint) = CodePoint.hash := by decide
      have hdeny : ¬ (100 : CodePoint) = CodePoint.hash := by decide
      simp [Mode.ofWord?, Mode.word, hallow, hdeny]
    unfold ofContent at h
    cases hfields : leadingFields? (CodePoint.hash :: rest) with
    | none => rw [hfields] at h; cases h
    | some fields =>
      obtain ⟨mode, kind, after⟩ := fields
      obtain ⟨w, rfl⟩ := List.head?_eq_some_iff.mp (head?_of_leadingFields? hfields)
      rw [hfields] at h
      dsimp only at h
      cases hsplit : splitPattern after.strip with
      | error e => rw [hsplit] at h; cases h
      | ok parts =>
        obtain ⟨pattern, methods⟩ := parts
        rw [hsplit] at h
        dsimp only [Except.bind] at h
        cases pattern with
        | nil => cases h
        | cons c t => simp [ofFields, hmode] at h

end RuleEntry

namespace RuleEntry

/-! ## Entries of changed lists -/

/-- What is left of an entry when a line is removed: the entries of later lines move up. -/
def withoutLine (n : Int) (e : RuleEntry) : Option RuleEntry :=
  if e.lineNumber = n then none
  else if n < e.lineNumber then some (e.onLine (e.lineNumber - 1))
  else some e

/-- The entry when the rule on a line is enabled or disabled. -/
def toggledOn (n : Int) (b : Bool) (e : RuleEntry) : RuleEntry :=
  if e.lineNumber = n then e.setEnabled b else e

end RuleEntry

/-- The line of a rule that can be written is trimmed. -/
theorem Rule.trimmed_write (k : Kind) {r : Rule} (hw : r.Writable) : (r.write k).Trimmed := by
  obtain ⟨hend, hendne⟩ := Rule.trimmed_end hw.1
  have hcontent : Text.Trimmed (r.mode.word ++ (fieldGap ++ (k.word ++ (fieldGap ++
      (r.patternField ++ r.methodsTail))))) := by
    have hmode := Text.trimmed_of_hasBlank_eq_false r.mode.hasBlank_word
    simpa only [List.append_assoc] using
      hmode.append (fieldGap ++ (k.word ++ fieldGap)) hend r.mode.word_ne_nil hendne
  rw [Rule.write_eq]
  split
  · exact hcontent
  · exact trimmed_mark hcontent (List.append_ne_nil_of_left_ne_nil r.mode.word_ne_nil _)

namespace Listing

/-! ## Entries of changed lines -/

theorem isSilent_iff {line : Text} :
    isSilent line = true ↔ line = [] ∨ (line.head? = some CodePoint.hash ∧
      Text.dropLead? disabledMark line = none) := by
  simp [isSilent, Text.startsWith]

theorem isSilent_of_ofLine {line : Text} {n : Int} {e : RuleEntry} (h : RuleEntry.ofLine line n = .ok e) :
    isSilent line = false := by
  rw [Bool.eq_false_iff]
  intro hsilent
  rcases isSilent_iff.mp hsilent with rfl | ⟨hhash, hmark⟩
  · cases h
  · rw [RuleEntry.ofLine_of_no_mark hmark] at h
    exact (RuleEntry.head?_of_ofContent h).2 hhash

theorem entryOf_eq_some {line : Text} {index : Nat} {e : RuleEntry} :
    entryOf line index = some e ↔ RuleEntry.ofLine line.strip index = .ok e := by
  unfold entryOf
  constructor
  · intro h
    split at h
    · cases h
    · cases hline : RuleEntry.ofLine line.strip index with
      | error e => rw [hline] at h; cases h
      | ok e' =>
        rw [hline] at h
        exact congrArg Except.ok (Option.some.inj h)
  · intro h
    rw [isSilent_of_ofLine h, h]
    rfl

theorem entryOf_of_blank {line : Text} (h : line.strip = []) (index : Nat) : entryOf line index = none := by
  unfold entryOf
  rw [h]
  rfl

theorem head?_of_dropLead?_mark {t rest : Text} (h : Text.dropLead? disabledMark t = some rest) :
    t.head? = some CodePoint.hash := by
  cases t with
  | nil => cases h
  | cons c t =>
    have hcons : Text.dropLead? disabledMark (c :: t) =
        if CodePoint.hash = c then Text.dropLead? "!disabled " t else none := rfl
    rw [hcons] at h
    split at h
    · next hc => exact congrArg some hc.symm
    · cases h

/-- A line whose content is that of a rule has its entry. -/
theorem entryOf_of_no_mark {line : Text} {index : Nat} {e : RuleEntry}
    (h : RuleEntry.ofContent true line.strip index = .ok e) : entryOf line index = some e := by
  have hmark : Text.dropLead? disabledMark line.strip = none := by
    by_contra hmark
    obtain ⟨rest, hrest⟩ := Option.ne_none_iff_exists'.mp hmark
    exact (RuleEntry.head?_of_ofContent h).2 (head?_of_dropLead?_mark hrest)
  rw [entryOf_eq_some, RuleEntry.ofLine_of_no_mark hmark, h]

/-- A line with its rule enabled or disabled has the entry enabled or disabled. -/
theorem entryOf_toggled {line : Text} {index : Nat} {e : RuleEntry} (h : entryOf line index = some e)
    (b : Bool) : entryOf (toggled b line) index = some (e.setEnabled b) := by
  have hline := entryOf_eq_some.mp h
  unfold toggled
  dsimp only
  cases hmark : Text.dropLead? disabledMark line.strip with
  | some rest =>
    rw [RuleEntry.ofLine_of_mark hmark] at hline
    cases b with
    | true =>
      -- The rest of the line is that of the rule without the mark.
      rw [if_pos rfl]
      refine entryOf_of_no_mark ?_
      rw [Option.getD_some, RuleEntry.ofContent_setEnabled false true, hline]
      rfl
    | false =>
      rw [if_neg Bool.false_ne_true, if_pos (by simp [head?_of_dropLead?_mark hmark]), h,
        RuleEntry.setEnabled_of_ofContent hline]
  | none =>
    rw [RuleEntry.ofLine_of_no_mark hmark] at hline
    cases b with
    | true => rw [if_pos rfl, Option.getD_none, h, RuleEntry.setEnabled_of_ofContent hline]
    | false =>
      -- A rule does not begin like a comment, so the mark is put in front of it.
      obtain ⟨hne, hhead⟩ := RuleEntry.head?_of_ofContent hline
      rw [if_neg Bool.false_ne_true, if_neg (by simp [hne, hhead]), entryOf_eq_some,
        (trimmed_mark (Text.trimmed_strip line) hne).strip,
        RuleEntry.ofLine_of_mark (Text.dropLead?_append _ _), Text.strip_strip,
        RuleEntry.ofContent_setEnabled true false, hline]
      rfl

theorem entryOf_write (k : Kind) {r : Rule} (ht : r.tidy = r) (hw : r.Writable) (index : Nat) :
    entryOf (r.write k) index = some ⟨k, index, { r with sourceLine := index }⟩ := by
  rw [entryOf_eq_some, (Rule.trimmed_write k hw).strip, Rule.ofLine_write k ht hw]

/-! ## Entries of changed lists of lines -/

/-- The entries of lines that start one line further. -/
theorem entriesFrom_succ (first : Nat) (lines : List Text) :
    entriesFrom (first + 1) lines =
      (entriesFrom first lines).map fun e => e.onLine (e.lineNumber + 1) := by
  induction lines generalizing first with
  | nil => rfl
  | cons line rest ih =>
    rw [entriesFrom_cons, entriesFrom_cons, List.map_append, ih, entryOf_onLine line first (first + 1)]
    congr 1
    cases hline : entryOf line first with
    | none => rfl
    | some e =>
      have hplace := lineNumber_of_entryOf hline
      simp [hplace]

/-- A new line at the end adds its entry behind the others. -/
theorem entriesFrom_appendLine (line : Text) (lines : List Text) :
    ∃ n : Nat, (∀ e ∈ entriesFrom 0 lines, e.lineNumber < n) ∧
      entriesFrom 0 (appendLine line lines) = entriesFrom 0 lines ++ (entryOf line n).toList := by
  have hadded : ∀ kept : List Text, entriesFrom 0 (kept ++ [line, []]) =
      entriesFrom 0 kept ++ (entryOf line kept.length).toList := by
    intro kept
    have hnil : ∀ index, entryOf [] index = none := entryOf_of_blank rfl
    rw [entriesFrom_append, entriesFrom_cons, entriesFrom_cons, hnil, Nat.zero_add]
    simp
  have hbefore : ∀ (kept : List Text), ∀ e ∈ entriesFrom 0 kept, e.lineNumber < kept.length := by
    intro kept e he
    have hlast := (lineNumber_of_mem he).2
    omega
  unfold appendLine
  rcases List.eq_nil_or_concat' lines with rfl | ⟨kept, last, rfl⟩
  · exact ⟨0, by simp, hadded []⟩
  rw [List.getLast?_concat]
  dsimp only
  split
  · next hblank =>
    -- The blank line that gives way has no entry.
    have hnone : entriesFrom 0 (kept ++ [last]) = entriesFrom 0 kept := by
      rw [entriesFrom_append, entriesFrom_cons, entryOf_of_blank (List.isEmpty_iff.mp hblank)]
      simp
    refine ⟨kept.length, ?_, ?_⟩
    · rw [hnone]
      exact hbefore kept
    · rw [List.dropLast_concat, hadded, hnone]
  · exact ⟨_, hbefore _, hadded _⟩

/-- Without a line its entry is missing, and those of later lines are one line before. -/
theorem entriesFrom_eraseIdx {lines : List Text} {i : Nat} (hi : i < lines.length) (first : Nat) :
    entriesFrom first (lines.eraseIdx i) =
      (entriesFrom first lines).filterMap (RuleEntry.withoutLine (first + i : Nat)) := by
  induction lines generalizing first i with
  | nil => exact absurd hi (Nat.not_lt_zero _)
  | cons line rest ih =>
    cases i with
    | zero =>
      -- This line goes, and each line behind it takes the place of the one before.
      have hlater : (entriesFrom (first + 1) rest).filterMap (RuleEntry.withoutLine (first + 0 : Nat)) =
          entriesFrom first rest := by
        rw [entriesFrom_succ, List.filterMap_map]
        refine (List.filterMap_congr fun e he => ?_).trans List.filterMap_some
        have hplace := (lineNumber_of_mem he).1
        rw [Function.comp_apply, RuleEntry.withoutLine, RuleEntry.lineNumber_onLine, if_neg (by omega),
          if_pos (by omega), Int.add_sub_cancel, RuleEntry.onLine_onLine, onLine_of_mem he]
      rw [entriesFrom_cons, List.filterMap_append, hlater, List.eraseIdx_cons_zero]
      cases hline : entryOf line first with
      | none => rfl
      | some e =>
        have hplace := lineNumber_of_entryOf hline
        simp [RuleEntry.withoutLine, hplace]
    | succ i =>
      rw [List.eraseIdx_cons_succ, entriesFrom_cons, entriesFrom_cons, List.filterMap_append,
        ih (Nat.lt_of_succ_lt_succ hi), Nat.add_assoc first 1 i, Nat.add_comm 1 i]
      congr 1
      cases hline : entryOf line first with
      | none => rfl
      | some e =>
        have hplace := lineNumber_of_entryOf hline
        have hne : ¬ e.lineNumber = (first + (i + 1) : Nat) := by omega
        have hbefore : ¬ ((first + (i + 1) : Nat) : Int) < e.lineNumber := by omega
        rw [Option.toList_some, List.filterMap_cons, RuleEntry.withoutLine, if_neg hne, if_neg hbefore]
        rfl

/-- With the rule of a line enabled or disabled its entry is enabled or disabled. -/
theorem entriesFrom_modify_toggled (b : Bool) {lines : List Text} {i first : Nat}
    (h : ∃ e ∈ entriesFrom first lines, e.lineNumber = (first + i : Nat)) :
    entriesFrom first (lines.modify i (toggled b)) =
      (entriesFrom first lines).map (RuleEntry.toggledOn (first + i : Nat) b) := by
  obtain ⟨e, he, hplace⟩ := h
  induction lines generalizing first i with
  | nil => exact absurd he List.not_mem_nil
  | cons line rest ih =>
    rw [entriesFrom_cons, List.mem_append, Option.mem_toList] at he
    cases i with
    | zero =>
      -- No line behind this one has its number, so the entry is that of the line.
      have hline : entryOf line first = some e := by
        refine he.resolve_right fun hlater => ?_
        have hafter := (lineNumber_of_mem hlater).1
        omega
      have hlater : (entriesFrom (first + 1) rest).map (RuleEntry.toggledOn (first + 0 : Nat) b) =
          entriesFrom (first + 1) rest := by
        refine (List.map_congr_left fun e' he' => ?_).trans (List.map_id _)
        have hafter := (lineNumber_of_mem he').1
        rw [RuleEntry.toggledOn, if_neg (by omega)]
        rfl
      rw [List.modify_zero_cons, entriesFrom_cons, entriesFrom_cons, List.map_append, hlater,
        entryOf_toggled hline, hline]
      simp [RuleEntry.toggledOn, hplace]
    | succ i =>
      have hrest : e ∈ entriesFrom (first + 1) rest := by
        refine he.resolve_left fun hline => ?_
        have hfirst := lineNumber_of_entryOf hline
        omega
      rw [List.modify_succ_cons, entriesFrom_cons, entriesFrom_cons, List.map_append,
        ih hrest (by rw [hplace]; omega), Nat.add_assoc first 1 i, Nat.add_comm 1 i]
      congr 1
      cases hline : entryOf line first with
      | none => rfl
      | some e' =>
        have hfirst := lineNumber_of_entryOf hline
        rw [Option.toList_some, List.map_singleton, RuleEntry.toggledOn, if_neg (by omega)]

/-! ## Places of lines -/

section Places

variable {lines : List Text} {n : Int}

theorem exists_index (h : ∃ e ∈ entriesFrom 0 lines, e.lineNumber = n) :
    ∃ i : Nat, n = i ∧ i < lines.length := by
  obtain ⟨e, he, rfl⟩ := h
  have hrange := lineNumber_of_mem he
  exact ⟨e.lineNumber.toNat, by omega, by omega⟩

theorem not_exists_of_outside (h : n < 0 ∨ lines.length ≤ n) :
    ¬ ∃ e ∈ entriesFrom 0 lines, e.lineNumber = n := by
  intro hentry
  obtain ⟨i, rfl, hi⟩ := exists_index hentry
  omega

/-- The line of an entry is removed with the entry, and a place outside has no effect. -/
theorem entriesFrom_removeLine
    (h : (∃ e ∈ entriesFrom 0 lines, e.lineNumber = n) ∨ n < 0 ∨ lines.length ≤ n) :
    entriesFrom 0 (removeLine n lines) =
      if ∃ e ∈ entriesFrom 0 lines, e.lineNumber = n then
        (entriesFrom 0 lines).filterMap (RuleEntry.withoutLine n)
      else entriesFrom 0 lines := by
  rw [removeLine]
  rcases h with hentry | hout
  · obtain ⟨i, rfl, hi⟩ := exists_index hentry
    rw [if_pos hentry, if_neg (by omega), Int.toNat_natCast, entriesFrom_eraseIdx hi, Nat.zero_add]
  · rw [if_neg (not_exists_of_outside hout)]
    split
    · rfl
    · rw [List.eraseIdx_of_length_le (by omega)]

/-- The rule of an entry is enabled or disabled on its line, and a place outside has no
    effect. -/
theorem entriesFrom_toggleLine (b : Bool)
    (h : (∃ e ∈ entriesFrom 0 lines, e.lineNumber = n) ∨ n < 0 ∨ lines.length ≤ n) :
    entriesFrom 0 (toggleLine n b lines) = (entriesFrom 0 lines).map (RuleEntry.toggledOn n b) := by
  rw [toggleLine]
  rcases h with hentry | hout
  · obtain ⟨i, rfl, hi⟩ := exists_index hentry
    rw [if_neg (by omega), Int.toNat_natCast,
      entriesFrom_modify_toggled b (by rwa [Nat.zero_add]), Nat.zero_add]
  · have hsame : (entriesFrom 0 lines).map (RuleEntry.toggledOn n b) = entriesFrom 0 lines := by
      refine (List.map_congr_left fun e he => ?_).trans (List.map_id _)
      rw [RuleEntry.toggledOn, if_neg fun hn => not_exists_of_outside hout ⟨e, he, hn⟩]
      rfl
    rw [hsame]
    split
    · rfl
    · rw [List.modify_eq_self (by omega)]

end Places

end Listing

/-! ## Code points of changed lines -/

theorem Text.mem_of_mem_strip {c : CodePoint} {t : Text} (h : c ∈ t.strip) : c ∈ t := by
  have hleft : c ∈ t.stripLeft := by
    rw [strip, dropRightWhile, List.mem_reverse] at h
    exact List.mem_reverse.mp ((List.dropWhile_sublist _).subset h)
  exact (List.dropWhile_sublist _).subset hleft

/-- Nothing but the mark is added to a line whose rule is enabled or disabled. -/
theorem RulesFile.mem_of_mem_toggled {b : Bool} {line : Text} {c : CodePoint} (h : c ∈ toggled b line) :
    c ∈ line ∨ c ∈ disabledMark := by
  unfold toggled at h
  dsimp only at h
  split at h
  · cases hmark : Text.dropLead? disabledMark line.strip with
    | none =>
      rw [hmark] at h
      exact .inl h
    | some rest =>
      rw [hmark] at h
      refine .inl (Text.mem_of_mem_strip ?_)
      rw [Text.eq_append_of_dropLead? hmark]
      exact List.mem_append_right _ h
  · split at h
    · exact .inl h
    · exact (List.mem_append.mp h).symm.imp_left Text.mem_of_mem_strip

theorem RulesFile.isWrittenLine_toggled (b : Bool) {line : Text} (h : line.IsWrittenLine) :
    (toggled b line).IsWrittenLine := by
  have hmark : Text.IsWrittenLine disabledMark :=
    ⟨fun c hc => ⟨Utf8.isScalar_iff.mpr (by revert c; decide), by revert c; decide⟩, by decide⟩
  refine ⟨fun c hc => ?_, fun hc => ?_⟩
  · exact (mem_of_mem_toggled hc).elim (h.1 c) (hmark.1 c)
  · exact (mem_of_mem_toggled hc).elim h.2 hmark.2

end NoteAccess
