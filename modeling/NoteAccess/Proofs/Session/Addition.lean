/-
  NoteAccess.Proofs.Session.Addition

  The command that adds a rule.  When it succeeds it has made a rule of its
  arguments, whose regular expression is well-formed, and has added it at the end of
  the rules file (`addRule_does`).  What the rules file lists then is what it listed
  before and the rule, exactly if the pattern of the rule is on one line
  (`takes_iff_of_addRule`).
-/

import NoteAccess.Proofs.Rule.Addition
import NoteAccess.Proofs.Session
import NoteAccess.Session.Command

namespace NoteAccess

/-- A pattern that is well-formed leaves nothing in the trace. -/
theorem Run.events_compile {p : Pattern} {program : Pattern.Program} (h : (compile p).result = .ok program)
    (hvalid : program.isValid = true) : (compile p).events = [] := by
  rw [result_compile] at h
  unfold compile made
  rw [h]
  simp [ofExcept, bind, hvalid]

namespace Act

open RulesFile

variable {s s' : Session} {mode kind pattern methods : Text} {disabled : Bool} {code : ExitCode}

theorem newRule_eq_ok {e : RuleEntry} (h : newRule mode kind pattern methods disabled = .ok e) :
    RuleEntry.ofFields mode kind pattern methods (!disabled) (-1) = .ok e := by
  unfold newRule at h
  split at h
  · cases h
  · cases hfields : RuleEntry.ofFields mode kind pattern methods (!disabled) (-1) with
    | error e => rw [hfields] at h; cases h
    | ok e' =>
      rw [hfields] at h
      cases h
      rfl

/-- A rule is made of the arguments, and it is added at the end of the rules file. -/
theorem addRule_does (h : (addRule mode kind pattern methods disabled).Does s code s') :
    code = .success ∧ ∃ file e, s.rulesPath = some file ∧
      RuleEntry.ofFields mode kind pattern methods (!disabled) (-1) = .ok e ∧ e.rule.Compiles ∧
      append s.tree file e.kind.word e.rule = (s'.tree, .ok ()) := by
  rw [addRule, bind_does] at h
  obtain ⟨file, _, hfile, h⟩ := h
  rw [bind_does] at h
  obtain ⟨e, _, hrule, h⟩ := h
  obtain ⟨hpath, rfl⟩ := rulesFile_does.mp hfile
  obtain ⟨hnew, rfl⟩ := ofExcept_does.mp hrule
  -- However the check of the expression goes, the rest begins with the same files.
  have hrest : ∀ t : Session, (do
      onTree rulesFailure fun t => append t file e.kind.word e.rule
      print ("Added: " ++ e.rule.write e.kind)
      return ExitCode.success : Act ExitCode).Does t code s' →
      code = .success ∧ append t.tree file e.kind.word e.rule = (s'.tree, .ok ()) := by
    intro t h
    obtain ⟨_, t₁, htree, hprinted⟩ := bind_does.mp h
    obtain ⟨tree, happend, ht₁⟩ := onTree_does.mp htree
    obtain ⟨_, t₂, hprint, hended⟩ := bind_does.mp hprinted
    obtain ⟨hcode, hs'⟩ := pure_does.mp hended
    rw [hs', print_does.mp hprint, ht₁]
    exact ⟨hcode, happend⟩
  dsimp only at h
  by_cases hregex : e.rule.isRegex = true
  · rw [if_pos hregex, bind_does] at h
    obtain ⟨program, _, hprogram, h⟩ := h
    obtain ⟨hcompile, rfl⟩ := absorb_does.mp hprogram
    split at h
    · obtain ⟨_, _, hthrow, -⟩ := bind_does.mp h
      exact absurd hthrow throw_does
    · next hvalid =>
      have hquiet := Run.events_compile hcompile (by simpa using hvalid)
      rw [hquiet] at h
      obtain ⟨hcode, happend⟩ := hrest _ h
      rw [Run.result_compile] at hcompile
      exact ⟨hcode, file, e, hpath, newRule_eq_ok hnew, ⟨program, hcompile⟩, happend⟩
  · rw [if_neg hregex] at h
    obtain ⟨hcode, happend⟩ := hrest _ h
    exact ⟨hcode, file, e, hpath, newRule_eq_ok hnew, Rule.compiles_of_glob (by simpa using hregex), happend⟩

/-- When the command succeeds on a rules file that can be loaded, a rule has been made of its
    arguments, and the file then lists what it listed before, followed by exactly this rule on a
    later line, if and only if the pattern is on one line. -/
theorem takes_iff_of_addRule {file : FilePath} {before : Option Listing} (hfile : s.rulesPath = some file)
    (hpoints : ∀ c ∈ pattern, c < 0x110000) (hrun : (addRule mode kind pattern methods disabled).Does s code s')
    (hload : (load s.tree file).result = .ok before)
    (hsize : ∀ content, s'.tree.read file.segments = .ok content → content.size ≤ maxSize) :
    code = .success ∧ ∃ e, RuleEntry.ofFields mode kind pattern methods (!disabled) (-1) = .ok e ∧
      ((CodePoint.newline ∉ e.rule.pattern ∧ CodePoint.carriageReturn ∉ e.rule.pattern) ↔
        ∃ l, (load s'.tree file).result = .ok (some l) ∧
          (Edit.append e.kind e.rule).Takes (before.elim [] Listing.entries) l.entries) := by
  obtain ⟨hcode, file', e, hfile', hmade, hcompiles, happend⟩ := addRule_does hrun
  obtain rfl : file = file' := Option.some.inj (hfile.symm.trans hfile')
  obtain ⟨htidy, hwritable⟩ := writable_of_ofFields hmade
  have hpoints' : ∀ c ∈ e.rule.pattern, c < 0x110000 := by
    intro c hc
    exact hpoints c (RuleEntry.pattern_subset_of_ofFields hmade hc)
  exact ⟨hcode, e, hmade, append_takes_iff htidy hwritable hcompiles hpoints' happend hload hsize⟩

/-- A session whose rules file `rules` has a text in ASCII. -/
def sessionWith (text : Text) : Session where
  world := { folder := [], home := "/" }
  arguments := { job := .rules .list }
  config := .initial
  tree := treeOf "rules" text
  journal := ⟨.ofSeverity .info, []⟩
  layout := ⟨none⟩
  rulesPath := some ⟨"/", ["rules"]⟩

/-- A disabled rule with a blank in its pattern and a method is added behind a rule. -/
theorem takes_iff_of_addRule_blank :
    ∃ s' before e l, (addRule "deny" "folder" "B C" "get" true).Does (sessionWith "allow folder A\n") .success s' ∧
      (load (sessionWith "allow folder A\n").tree ⟨"/", ["rules"]⟩).result = .ok (some before) ∧
      RuleEntry.ofFields "deny" "folder" "B C" "get" false (-1) = .ok e ∧
      (load s'.tree ⟨"/", ["rules"]⟩).result = .ok (some l) ∧
      (Edit.append e.kind e.rule).Takes before.entries l.entries := by
  obtain ⟨s', hrun, hsize⟩ : ∃ s',
      (addRule "deny" "folder" "B C" "get" true).Does (sessionWith "allow folder A\n") .success s' ∧
      ∀ content, s'.tree.read [("rules" : Text)] = .ok content → content.size ≤ maxSize := by
    refine ⟨_, rfl, ?_⟩
    intro content hcontent
    cases hcontent
    decide
  obtain ⟨before, hload⟩ : ∃ before,
      (load (sessionWith "allow folder A\n").tree ⟨"/", ["rules"]⟩).result = .ok (some before) := ⟨_, rfl⟩
  obtain ⟨-, e, he, hiff⟩ := takes_iff_of_addRule rfl (by decide) hrun hload hsize
  have hpattern : CodePoint.newline ∉ e.rule.pattern ∧ CodePoint.carriageReturn ∉ e.rule.pattern := by
    cases he
    decide
  obtain ⟨l, hl, htakes⟩ := hiff.mp hpattern
  exact ⟨s', before, e, l, hrun, hload, he, hl, htakes⟩

/-- A rule with a line feed in its pattern is made and added, and the file then lists what it
    listed before: neither part of the line is a rule. -/
theorem addRule_lineFeed :
    ∃ s' before l e, (addRule "deny" "folder" "B\nC" "" false).Does (sessionWith "allow folder A\n") .success s' ∧
      RuleEntry.ofFields "deny" "folder" "B\nC" "" true (-1) = .ok e ∧
      (load (sessionWith "allow folder A\n").tree ⟨"/", ["rules"]⟩).result = .ok (some before) ∧
      (∀ content, s'.tree.read [("rules" : Text)] = .ok content → content.size ≤ maxSize) ∧
      (load s'.tree ⟨"/", ["rules"]⟩).result = .ok (some l) ∧ l.entries = before.entries ∧
      ¬ (Edit.append e.kind e.rule).Takes before.entries l.entries := by
  refine ⟨_, _, _, _, rfl, rfl, rfl, ?_, rfl, rfl, ?_⟩
  · intro content hcontent
    cases hcontent
    decide
  · rintro ⟨n, -, hentries⟩
    cases hentries

end Act

end NoteAccess
