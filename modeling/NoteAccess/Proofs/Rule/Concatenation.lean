/-
  NoteAccess.Proofs.Rule.Concatenation

  Texts of rules are read line by line.  What a line gives depends on no other line,
  and on its own place only through the numbers that it bears (`result_readLine_add`).
  So the listing of two texts with a line feed between them is the listing of the
  first followed by that of the second, with the numbers of the second raised
  (`ofText_append`).

  Blank lines, comments, lines that are no rules and disabled rules have no active
  rule (`isInert`), so the active rules, apart from their places, are those of the
  other lines (`ofKind_map_unplaced`).
-/

import NoteAccess.Proofs.Rule.Listing
import NoteAccess.Proofs.Text

namespace NoteAccess

namespace Text

/-- There is one more piece than separators. -/
theorem length_pieces (sep : CodePoint) (t : Text) : (pieces sep t).length = t.count sep + 1 := by
  induction t with
  | nil => rfl
  | cons c t ih =>
    by_cases hc : c = sep
    · subst hc
      rw [pieces_sep_cons, List.length_cons, ih, List.count_cons_self]
    · obtain ⟨first, rest, hpieces⟩ := List.exists_cons_of_ne_nil (pieces_ne_nil sep t)
      rw [hpieces] at ih
      rw [pieces_cons_of_ne hc hpieces, List.count_cons_of_ne hc]
      exact ih

end Text

/-! ## Raised numbers -/

/-- The rule `n` lines below. -/
def Rule.raise (n : Nat) (r : Rule) : Rule := { r with sourceLine := r.sourceLine + n }

/-- The entry `n` lines below. -/
def RuleEntry.raise (n : Nat) (e : RuleEntry) : RuleEntry := ⟨e.kind, e.lineNumber + n, e.rule.raise n⟩

/-- The warning `n` lines below. -/
def RuleWarning.raise (n : Nat) (w : RuleWarning) : RuleWarning := { w with lineNumber := w.lineNumber + n }

/-- Where a line stands shows in its entry in the numbers alone. -/
theorem RuleEntry.ofLine_add (line : Text) (i n : Nat) :
    ofLine line (i + n : Nat) = (ofLine line i).map (raise n) := by
  rw [ofLine_onLine line 0 i, ofLine_onLine line 0 (i + n : Nat)]
  cases ofLine line 0 <;> rfl

namespace RuleSet

/-- The rules of each kind, followed by those of another set. -/
def append (s t : RuleSet) : RuleSet := ⟨s.folder ++ t.folder, s.name ++ t.name, s.tag ++ t.tag, s.keyword ++ t.keyword⟩

/-- The rules `n` lines below. -/
def raise (n : Nat) (s : RuleSet) : RuleSet :=
  ⟨s.folder.map (Rule.raise n), s.name.map (Rule.raise n), s.tag.map (Rule.raise n), s.keyword.map (Rule.raise n)⟩

theorem select_append (xs ys : List RuleEntry) (k : Kind) : select (xs ++ ys) k = select xs k ++ select ys k := by
  unfold select
  rw [List.filter_append, List.map_append]

theorem select_raise (n : Nat) (xs : List RuleEntry) (k : Kind) :
    select (xs.map (RuleEntry.raise n)) k = (select xs k).map (Rule.raise n) := by
  unfold select
  rw [List.filter_map, List.map_map, List.map_map]
  rfl

theorem ofEntries_append (xs ys : List RuleEntry) : ofEntries (xs ++ ys) = (ofEntries xs).append (ofEntries ys) := by
  unfold ofEntries append
  simp only [select_append]

theorem ofEntries_raise (n : Nat) (xs : List RuleEntry) :
    ofEntries (xs.map (RuleEntry.raise n)) = (ofEntries xs).raise n := by
  unfold ofEntries raise
  simp only [select_raise]

end RuleSet

namespace Listing

/-- A listing followed by another one. -/
def append (l m : Listing) : Listing :=
  ⟨l.ruleSet.append m.ruleSet, l.entries ++ m.entries, l.warnings ++ m.warnings⟩

/-- The listing `n` lines below. -/
def raise (n : Nat) (l : Listing) : Listing :=
  ⟨l.ruleSet.raise n, l.entries.map (RuleEntry.raise n), l.warnings.map (RuleWarning.raise n)⟩

/-! ## Lines and their places -/

/-- What is found on a line, `n` lines below. -/
def foundBelow (n : Nat) (x : Option RuleEntry × Option RuleWarning) : Option RuleEntry × Option RuleWarning :=
  (x.1.map (RuleEntry.raise n), x.2.map (RuleWarning.raise n))

/-- What a line gives depends on its place in the numbers alone. -/
theorem result_readLine_add (line : Text) (i n : Nat) :
    (readLine line (i + n)).result = (readLine line i).result.map (foundBelow n) := by
  unfold readLine
  dsimp only
  by_cases hsilent : isSilent line.strip = true
  · rw [if_pos hsilent, if_pos hsilent]
    rfl
  · rw [if_neg hsilent, if_neg hsilent, RuleEntry.ofLine_add]
    cases RuleEntry.ofLine line.strip i with
    | error e => rfl
    | ok entry =>
      -- It is the same pattern that is compiled, if any is.
      have hregex : (entry.raise n).rule.isRegex = entry.rule.isRegex := rfl
      have hpattern : (entry.raise n).rule.toPattern = entry.rule.toPattern := rfl
      dsimp only [Except.map]
      rw [hregex, hpattern]
      split
      · rw [Run.result_bind, Run.result_bind]
        cases (Run.compile entry.rule.toPattern).result with
        | error f => rfl
        | ok program =>
          show Except.ok _ = Except.ok _
          cases program.isValid <;> rfl
      · rfl

/-- A line can be read exactly if it is no rule, or one whose pattern has a program. -/
theorem succeeds_readLine_iff {line : Text} {i : Nat} :
    (readLine line i).Succeeds ↔ ∀ e ∈ entryOf line 0, e.rule.Compiles := by
  -- Where the line stands has no effect on the pattern.
  have hplaced : (∀ e ∈ entryOf line 0, e.rule.Compiles) ↔ ∀ e ∈ entryOf line i, e.rule.Compiles := by
    rw [entryOf_onLine line 0 i]
    cases entryOf line 0 with
    | none => exact Iff.rfl
    | some e =>
      simp only [Option.map_some, Option.mem_some_iff, forall_eq']
      exact Iff.rfl
  rw [hplaced]
  constructor
  · rintro ⟨found, h⟩
    obtain ⟨hentry, hcompiles⟩ := readLine_eq_ok h
    rwa [hentry] at hcompiles
  · intro h
    unfold entryOf at h
    unfold readLine
    dsimp only
    by_cases hsilent : isSilent line.strip = true
    · rw [if_pos hsilent]
      exact ⟨_, rfl⟩
    · rw [if_neg hsilent] at h ⊢
      cases hline : RuleEntry.ofLine line.strip i with
      | error e => exact ⟨_, rfl⟩
      | ok e =>
        rw [hline] at h
        obtain ⟨program, hprogram⟩ := h e rfl
        dsimp only
        split
        · exact ⟨_, Run.result_bind_of_ok ((Run.result_compile _).trans hprogram)⟩
        · exact ⟨_, rfl⟩

theorem Found.append {ls ms : List Text} {first : Nat} {xs ys : List (Option RuleEntry × Option RuleWarning)}
    (hx : Found ls first xs) (hy : Found ms (first + ls.length) ys) : Found (ls ++ ms) first (xs ++ ys) := by
  unfold Found
  rw [List.zipIdx_append]
  exact List.rel_append hx hy

theorem Found.below {ls : List Text} {first : Nat} {xs : List (Option RuleEntry × Option RuleWarning)}
    (h : Found ls first xs) (n : Nat) : Found ls (first + n) (xs.map (foundBelow n)) := by
  unfold Found
  rw [Nat.add_comm, ← List.map_snd_add_zipIdx_eq_zipIdx, List.forall₂_map_left_iff, List.forall₂_map_right_iff]
  refine List.Forall₂.imp ?_ h
  rintro ⟨line, i⟩ x hx
  show (readLine line (i + n)).result = .ok (foundBelow n x)
  rw [result_readLine_add, hx]
  rfl

/-! ## Texts one behind the other -/

theorem ofFound_append (xs ys : List (Option RuleEntry × Option RuleWarning)) :
    ofFound (xs ++ ys) = (ofFound xs).append (ofFound ys) := by
  unfold ofFound append
  simp only [List.filterMap_append, RuleSet.ofEntries_append]

theorem ofFound_below (n : Nat) (xs : List (Option RuleEntry × Option RuleWarning)) :
    ofFound (xs.map (foundBelow n)) = (ofFound xs).raise n := by
  have hentries : (xs.map (foundBelow n)).filterMap (·.1) = (xs.filterMap (·.1)).map (RuleEntry.raise n) := by
    rw [List.filterMap_map, List.map_filterMap]
    rfl
  have hwarnings : (xs.map (foundBelow n)).filterMap (·.2) = (xs.filterMap (·.2)).map (RuleWarning.raise n) := by
    rw [List.filterMap_map, List.map_filterMap]
    rfl
  unfold ofFound raise
  dsimp only
  rw [hentries, hwarnings, RuleSet.ofEntries_raise]

/-- The listing of two texts with a line feed between them is that of the first, followed by
    that of the second below the lines of the first. -/
theorem ofText_append {a b : Text} {l m : Listing} (hl : (ofText a).result = .ok l) (hm : (ofText b).result = .ok m) :
    (ofText (a ++ CodePoint.newline :: b)).result = .ok (l.append (m.raise (a.count CodePoint.newline + 1))) := by
  obtain ⟨xs, hxs, rfl⟩ := ofText_eq_ok_iff.mp hl
  obtain ⟨ys, hys, rfl⟩ := ofText_eq_ok_iff.mp hm
  rw [← Text.length_pieces, ← ofFound_below, ← ofFound_append]
  refine ofText_eq_ok_iff.mpr ⟨_, ?_, rfl⟩
  rw [Text.pieces_append]
  refine hxs.append ?_
  exact hys.below _

/-! ## Lines without active rules -/

/-- Whether a line has no active rule: it is blank or a comment, it is no rule, or its rule
    is disabled. -/
def isInert (line : Text) : Bool :=
  isSilent line.strip ||
    match RuleEntry.ofLine line.strip 0 with
    | .error _ => true
    | .ok e => !e.rule.enabled

/-- The other lines of a text. -/
def activeLines (t : Text) : List Text := (t.pieces CodePoint.newline).filter (!isInert ·)

/-- The active rule of a kind on a line, apart from its place. -/
def activeRule? (k : Kind) (line : Text) : Option Rule :=
  ((entryOf line 0).filter fun e => e.kind = k && e.rule.enabled).map (·.rule.unplaced)

theorem activeRule?_of_isInert {line : Text} (h : isInert line = true) (k : Kind) : activeRule? k line = none := by
  unfold isInert at h
  unfold activeRule? entryOf
  by_cases hsilent : isSilent line.strip = true
  · rw [if_pos hsilent]
    rfl
  · rw [if_neg hsilent]
    rw [Bool.not_eq_true] at hsilent
    rw [hsilent, Bool.false_or] at h
    cases hline : RuleEntry.ofLine line.strip 0 with
    | error e => rfl
    | ok e =>
      rw [hline] at h
      have hdisabled : e.rule.enabled = false := by simpa using h
      show ((some e).filter fun e => e.kind = k && e.rule.enabled).map _ = none
      rw [Option.filter_some_neg (by simp [hdisabled])]
      rfl

theorem select_entryOf (line : Text) (i : Nat) (k : Kind) :
    (RuleSet.select (entryOf line i).toList k).map Rule.unplaced = (activeRule? k line).toList := by
  rw [entryOf_onLine line 0 i]
  unfold activeRule? RuleSet.select
  cases entryOf line 0 with
  | none => rfl
  | some e =>
    have hactive : (decide ((e.onLine i).kind = k) && (e.onLine i).rule.enabled) =
        (decide (e.kind = k) && e.rule.enabled) := rfl
    rw [Option.map_some, Option.toList_some, List.filter_singleton, hactive, Option.filter_some]
    cases decide (e.kind = k) && e.rule.enabled <;> rfl

/-- The active rules of lines, apart from their places. -/
theorem select_entriesFrom (first : Nat) (lines : List Text) (k : Kind) :
    (RuleSet.select (entriesFrom first lines) k).map Rule.unplaced = lines.filterMap (activeRule? k) := by
  induction lines generalizing first with
  | nil => rfl
  | cons line rest ih =>
    rw [entriesFrom_cons, RuleSet.select_append, List.map_append, ih, select_entryOf, List.filterMap_cons]
    cases activeRule? k line <;> rfl

/-- The active rules of a text, apart from their places, are those of its active lines. -/
theorem ofKind_map_unplaced {t : Text} {l : Listing} (h : (ofText t).result = .ok l) (k : Kind) :
    (l.ruleSet.ofKind k).map Rule.unplaced = (activeLines t).filterMap (activeRule? k) := by
  obtain ⟨hrules, hentries, -⟩ := ofText_eq_ok h
  rw [hrules, RuleSet.ofKind_ofEntries, hentries, select_entriesFrom, activeLines, List.filterMap_filter]
  refine List.filterMap_congr fun line _ => ?_
  cases hinert : isInert line with
  | false => rfl
  | true => exact activeRule?_of_isInert hinert k

/-- A text can be read exactly if the patterns of its rules have programs. -/
theorem succeeds_ofText_iff {t : Text} :
    (ofText t).Succeeds ↔ ∀ line ∈ t.pieces CodePoint.newline, ∀ e ∈ entryOf line 0, e.rule.Compiles := by
  have hfound : (ofText t).Succeeds ↔ ∃ found, Found (t.pieces CodePoint.newline) 0 found := by
    unfold Run.Succeeds
    simp only [ofText_eq_ok_iff]
    exact ⟨fun ⟨_, found, h, _⟩ => ⟨found, h⟩, fun ⟨found, h⟩ => ⟨_, found, h, rfl⟩⟩
  unfold Found at hfound
  rw [hfound, Run.exists_forall₂_iff (f := fun item : Text × Nat => readLine item.1 item.2)]
  constructor
  · intro h line hline
    obtain ⟨i, hi⟩ := List.mem_iff_getElem?.mp hline
    exact succeeds_readLine_iff.mp (h (line, i) (List.mem_zipIdx_iff_getElem?.mpr hi))
  · rintro h ⟨line, i⟩ hitem
    have hline := List.mem_of_getElem? (List.mem_zipIdx_iff_getElem?.mp hitem)
    exact succeeds_readLine_iff.mpr (h line hline)

/-- Parsing goes line by line.  The listing of two texts with a line feed between them is that
    of the first followed by that of the second, whose numbers are raised by the number of
    lines of the first.  And lines without active rules may be put in or taken out anywhere:
    as long as the patterns of disabled rules that are put in have programs, the text can
    still be read, and its active rules stay the same apart from their places. -/
theorem ofText_linewise :
    (∀ (a b : Text) (l m : Listing), (ofText a).result = .ok l → (ofText b).result = .ok m →
      (ofText (a ++ CodePoint.newline :: b)).result =
        .ok (l.append (m.raise (a.count CodePoint.newline + 1)))) ∧
    ∀ (t t' : Text) (l : Listing), (ofText t).result = .ok l → activeLines t' = activeLines t →
      (∀ line ∈ t'.pieces CodePoint.newline, line ∉ t.pieces CodePoint.newline →
        ∀ e ∈ entryOf line 0, e.rule.Compiles) →
      ∃ l', (ofText t').result = .ok l' ∧
        ∀ k, (l'.ruleSet.ofKind k).map Rule.unplaced = (l.ruleSet.ofKind k).map Rule.unplaced := by
  refine ⟨fun a b l m => ofText_append, fun t t' l hl hactive hadded => ?_⟩
  have hold := succeeds_ofText_iff.mp ⟨l, hl⟩
  obtain ⟨l', hl'⟩ : (ofText t').Succeeds := by
    refine succeeds_ofText_iff.mpr fun line hline => ?_
    by_cases hkept : line ∈ t.pieces CodePoint.newline
    · exact hold line hkept
    · exact hadded line hline hkept
  refine ⟨l', hl', fun k => ?_⟩
  rw [ofKind_map_unplaced hl', ofKind_map_unplaced hl, hactive]

/-! ## Texts that are written -/

/-- A comment and a rule about work. -/
def workText : Text := "# work\nallow folder Work/**"

/-- Its listing. -/
def workListing : Listing :=
  let rule : Rule := { mode := .allow, pattern := "Work/**", sourceLine := 1 }
  ⟨{ folder := [rule] }, [⟨.folder, 1, rule⟩], []⟩

/-- A line that is no rule, and a rule about secrets. -/
def secretText : Text := "secrets\ndeny tag #secret"

/-- Its listing. -/
def secretListing : Listing :=
  let rule : Rule := { mode := .deny, pattern := "#secret", sourceLine := 1 }
  ⟨{ tag := [rule] }, [⟨.tag, 1, rule⟩], [⟨0, .notRule .tooFewFields, "secrets"⟩]⟩

/-- The rule about work without the comment, before a rule that is disabled. -/
def editedText : Text := "allow folder Work/**\n#!disabled deny folder Work/**"

/-- The two texts are read one behind the other, and without the comment and with a rule that
    is disabled there is the same rule about work. -/
theorem ofText_linewise_work :
    (ofText workText).result = .ok workListing ∧ (ofText secretText).result = .ok secretListing ∧
      (ofText (workText ++ CodePoint.newline :: secretText)).result =
        .ok (workListing.append (secretListing.raise 2)) ∧
      activeLines editedText = activeLines workText ∧
      ∃ l', (ofText editedText).result = .ok l' ∧
        ∀ k, (l'.ruleSet.ofKind k).map Rule.unplaced = (workListing.ruleSet.ofKind k).map Rule.unplaced := by
  have hwork : (ofText workText).result = .ok workListing := rfl
  have hsecret : (ofText secretText).result = .ok secretListing := rfl
  have hactive : activeLines editedText = activeLines workText := by decide +kernel
  have hadded : ∀ line ∈ editedText.pieces CodePoint.newline, line ∉ workText.pieces CodePoint.newline →
      ∀ e ∈ entryOf line 0, e.rule.Compiles := by
    have hlines : editedText.pieces CodePoint.newline =
        [("allow folder Work/**" : Text), ("#!disabled deny folder Work/**" : Text)] := rfl
    rw [hlines, List.forall_mem_cons, List.forall_mem_singleton]
    refine ⟨fun h => absurd (by decide) h, fun _ e he => ?_⟩
    cases he
    exact Rule.compiles_of_glob rfl
  exact ⟨hwork, hsecret, ofText_linewise.1 _ _ _ _ hwork hsecret, hactive,
    ofText_linewise.2 _ _ _ hwork hactive hadded⟩

end Listing

end NoteAccess
