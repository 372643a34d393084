/-
  NoteAccess.Proofs.Rule.Complaint

  Which rules of a text are complained about.  The line of a rule gives a complaint
  exactly if the rule has a regular expression, and a malformed one
  (`result_readLine_of_ofLine`), and a complaint bears the number of the line of its
  rule and of no other one.  So these are the rules that are complained about
  (`warned_iff`).

  A glob with a class whose range runs backwards matches nothing either, but nobody
  is told (`unwarned_backwardClass`).
-/

import NoteAccess.Proofs.Rule.Recovery

namespace NoteAccess

/-- A program that is not in order matches nothing. -/
theorem Pattern.Program.matches_of_isValid_eq_false {p : Program} (h : p.isValid = false) (x : Text) :
    p.matches x = false := by
  cases p with
  | never => rfl
  | glob p => cases h
  | regex p => cases h

namespace Listing

variable {t line : Text} {i : Nat} {l : Listing} {e : RuleEntry}

/-- The line of a rule gives its entry, and a complaint if the program of a regular expression is
    not in order. -/
theorem result_readLine_of_ofLine (hrule : isSilent line.strip = false)
    (hline : RuleEntry.ofLine line.strip i = .ok e) :
    (readLine line i).result = e.rule.toPattern.compile.map fun p =>
      (some e, if e.rule.isRegex = true ∧ p.isValid = false then some ⟨i, .malformedRegex, line.strip⟩ else none) := by
  unfold readLine
  dsimp only
  rw [if_neg (by rw [hrule]; exact Bool.false_ne_true), hline]
  dsimp only
  by_cases hregex : e.rule.isRegex = true
  · rw [if_pos hregex, Run.result_bind, Run.result_compile]
    cases e.rule.toPattern.compile with
    | error f => rfl
    | ok p => cases hp : p.isValid <;> simp [Except.bind, Except.map, hregex, hp]
  · -- The program of a glob is there, and whether it is in order plays no part.
    obtain ⟨p, hp⟩ := Rule.compiles_of_glob (Bool.eq_false_iff.mpr hregex)
    rw [if_neg hregex, hp]
    simp [Except.map, hregex]

/-- Some warning bears the number of a line exactly if there are warnings on this line. -/
theorem exists_warning_iff : (∃ w ∈ l.warnings, w.lineNumber = i) ↔ l.warningsOn i ≠ [] := by
  simp [warningsOn, List.filter_eq_nil_iff]

/-- On the line of a rule there is one warning, that its regular expression is malformed, or none. -/
theorem warningsOn_of_mem (hl : (ofText t).result = .ok l) (he : e ∈ l.entries) :
    ∃ p line, e.rule.toPattern.compile = .ok p ∧ ∃ i : Nat, e.lineNumber = i ∧
      l.warningsOn i = if e.rule.isRegex = true ∧ p.isValid = false then [⟨i, .malformedRegex, line⟩] else [] := by
  obtain ⟨found, hfound, rfl⟩ := ofText_eq_ok_iff.mp hl
  obtain ⟨x, hx, hentry⟩ := List.mem_filterMap.mp he
  obtain ⟨i, hi⟩ := List.mem_iff_getElem?.mp hx
  obtain ⟨line, -, hread⟩ := hfound.readLine hi
  have hnumber : e.lineNumber = i := (number_of_readLine hread).1 e hentry
  have hwarnings : (ofFound found).warningsOn i = x.2.toList := (hfound.on hi).2
  rcases readLine_cases hread with ⟨-, rfl⟩ | ⟨-, _, -, rfl⟩ | ⟨hrule, e', w, hline, ⟨p, hp⟩, rfl, -⟩
  · cases hentry
  · cases hentry
  · obtain rfl : e' = e := Option.some.inj hentry
    rw [result_readLine_of_ofLine hrule hline, hp] at hread
    cases hread
    refine ⟨p, line.strip, hp, i, hnumber, hwarnings.trans ?_⟩
    split <;> rfl

/-- The rules of a text that are complained about are those with a malformed regular expression.
    A rule with a program that is not in order matches nothing, whether it is one of them or a
    glob. -/
theorem warned_iff (hl : (ofText t).result = .ok l) (he : e ∈ l.entries) :
    ∃ p, e.rule.toPattern.compile = .ok p ∧
      ((∃ w ∈ l.warnings, w.lineNumber = e.lineNumber) ↔ e.rule.isRegex = true ∧ p.isValid = false) ∧
      (p.isValid = false → ∀ x, p.matches x = false) := by
  obtain ⟨p, line, hp, i, hnumber, hwarnings⟩ := warningsOn_of_mem hl he
  refine ⟨p, hp, ?_, Pattern.Program.matches_of_isValid_eq_false⟩
  simp only [hnumber, Int.ofNat_inj]
  rw [exists_warning_iff, hwarnings]
  split
  · next h => exact iff_of_true (List.cons_ne_nil _ _) h
  · next h => exact iff_of_false (fun hne => hne rfl) h

/-- A rule whose regular expression is malformed, and a rule whose glob has a class that runs
    backwards. -/
def deadText : Text := "deny name ~(\ndeny folder [z-a]"

/-- The entry of its first line. -/
def openGroupEntry : RuleEntry where
  rule.mode := .deny
  rule.pattern := "("
  rule.isRegex := true
  rule.sourceLine := 0
  kind := .name
  lineNumber := 0

/-- The entry of its second line. -/
def backwardClassEntry : RuleEntry where
  rule.mode := .deny
  rule.pattern := "[z-a]"
  rule.sourceLine := 1
  kind := .folder
  lineNumber := 1

theorem openGroupEntry_compile : openGroupEntry.rule.toPattern.compile = .ok .never := by
  have hgroup : Regex.compile (Pattern.flagsOf []) ("(" : Text) =
      .error (.malformed .unterminatedGroup (some 0)) := by decide +kernel
  show Pattern.compile (.regex "(" (Pattern.flagsOf [])) = .ok .never
  rw [Pattern.compile, hgroup]

/-- Both rules are listed. -/
theorem exists_deadListing :
    ∃ l, (ofText deadText).result = .ok l ∧ l.entries = [openGroupEntry, backwardClassEntry] := by
  have hcompiles : (ofText deadText).Succeeds := by
    refine succeeds_ofText_iff.mpr (List.forall_mem_cons.mpr ⟨?_, List.forall_mem_singleton.mpr ?_⟩)
    · intro e he
      cases he
      exact ⟨.never, openGroupEntry_compile⟩
    · intro e he
      cases he
      exact ⟨_, rfl⟩
  obtain ⟨l, hl⟩ := hcompiles
  exact ⟨l, hl, (ofText_eq_ok hl).2.1⟩

/-- The malformed expression is complained about. -/
theorem warned_iff_openGroup :
    ∃ l, (ofText deadText).result = .ok l ∧ openGroupEntry ∈ l.entries ∧
      openGroupEntry.rule.toPattern.compile = .ok .never ∧
      ∃ w ∈ l.warnings, w.lineNumber = openGroupEntry.lineNumber := by
  obtain ⟨l, hl, hentries⟩ := exists_deadListing
  have hmem : openGroupEntry ∈ l.entries := by
    rw [hentries]
    exact List.mem_cons_self ..
  obtain ⟨p, hp, hwarned, -⟩ := warned_iff hl hmem
  obtain rfl : p = .never := Except.ok.inj (hp.symm.trans openGroupEntry_compile)
  exact ⟨l, hl, hmem, hp, hwarned.mpr ⟨rfl, rfl⟩⟩

/-- A class that runs backwards keeps a rule from matching anything, and there is no complaint about
    its line. -/
theorem unwarned_backwardClass :
    ∃ l, (ofText deadText).result = .ok l ∧ backwardClassEntry ∈ l.entries ∧
      backwardClassEntry.kind = .folder ∧ backwardClassEntry.rule.toPattern.compile = .ok .never ∧
      ¬ ∃ w ∈ l.warnings, w.lineNumber = backwardClassEntry.lineNumber := by
  obtain ⟨l, hl, hentries⟩ := exists_deadListing
  have hmem : backwardClassEntry ∈ l.entries := by
    rw [hentries]
    exact List.mem_cons_of_mem _ (List.mem_cons_self ..)
  obtain ⟨p, line, -, i, hnumber, hwarnings⟩ := warningsOn_of_mem hl hmem
  refine ⟨l, hl, hmem, rfl, by cbv, ?_⟩
  simp only [hnumber, Int.ofNat_inj]
  rw [exists_warning_iff, hwarnings, if_neg fun h => Bool.false_ne_true h.1]
  exact fun hne => hne rfl

end Listing

end NoteAccess
