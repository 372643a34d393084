/-
  NoteAccess.Proofs.Policy.Totality

  Evaluations that end with a decision, and those that do not.  Whether the pattern
  of a rule can be used is settled when the rules are read, but for one thing: how
  deep the calls that expand its braces may be nested.  So a policy of rules that
  have been read decides on every path, whatever the sources do, unless it comes to
  a folder or name rule that there is no room for (`Overflows`), and then it fails
  (`Compiles.evaluate_eq_error_iff`).

  Reading a text compiles its regular expressions, and the regular expression of a
  glob is malformed at worst.  So the policies that calls put in place are such
  policies (`evaluate_after`).
-/

import NoteAccess.Proofs.Glob.Choices
import NoteAccess.Proofs.Glob.Source
import NoteAccess.Proofs.Policy.Calls
import NoteAccess.Proofs.Policy.Lookups
import NoteAccess.Proofs.Rule.Addition

namespace NoteAccess

/-! ## Rules that compile -/

/-- Whether there is room for what a pattern is expanded to. -/
def Pattern.fits (room : Nat) : Pattern → Bool
  | .glob t => Glob.fits room t
  | .regex .. => true

/-- There is room for the program of a pattern, or there is none. -/
theorem Pattern.compileWithin_eq (p : Pattern) (room : Nat) :
    p.compileWithin room = if p.fits room = true then p.compile else .error .tooDeep := by
  cases p with
  | regex t flags => rfl
  | glob t =>
    show (Glob.compileWithin room t).map _ = if Glob.fits room t = true then _ else _
    rw [Glob.compileWithin_eq]
    split
    · show Except.ok _ = Except.ok _
      cases Glob.compile? t <;> rfl
    · rfl

namespace Rule

variable {r : Rule}

/-- The regular expression that a rule with a program amounts to is malformed at worst. -/
theorem Compiles.onlyMalformed (h : r.Compiles) :
    Regex.OnlyMalformed (Regex.compile r.toPattern.expression.2 r.toPattern.expression.1) := by
  obtain ⟨program, hprogram⟩ := h
  cases hp : r.toPattern with
  | glob t => exact Glob.onlyMalformed_wholeSource t rfl
  | regex t flags =>
    intro f hf
    rw [hp] at hprogram
    unfold Pattern.expression at hf
    unfold Pattern.compile at hprogram
    dsimp only at hf hprogram
    rw [hf] at hprogram
    -- Other failures are those of the rule itself, which has none.
    cases f with
    | malformed flaw place => exact ⟨flaw, place, rfl⟩
    | badValue => cases hprogram
    | tooLarge => cases hprogram

/-- A rule with a program has it where there is room for it. -/
theorem Compiles.compileWithin_eq_error_iff (h : r.Compiles) {room : Nat} {f : Fault} :
    r.toPattern.compileWithin room = .error f ↔ f = .tooDeep ∧ r.toPattern.fits room = false := by
  obtain ⟨program, hprogram⟩ := h
  rw [Pattern.compileWithin_eq, hprogram]
  cases r.toPattern.fits room with
  | false => simpa using eq_comm
  | true => simp

end Rule

namespace Matching

variable {test : Rule → Run Fault Bool} {r : Rule} {rules : List Rule} {f : Fault} {k : Kind}

/-! ## Searches that fail -/

/-- The test of an enabled rule fails, and no enabled rule before it matches. -/
def StopsWith (test : Rule → Run Fault Bool) (f : Fault) (rules : List Rule) : Prop :=
  ∃ earlier r later, rules = earlier ++ r :: later ∧ r.enabled = true ∧
    (test r).result = .error f ∧ ∀ q ∈ earlier, q.enabled = true → (test q).result = .ok false

theorem not_stopsWith_nil : ¬ StopsWith test f [] := by
  rintro ⟨earlier, r, later, h, -⟩
  simp at h

theorem stopsWith_cons_iff :
    StopsWith test f (r :: rules) ↔
      (r.enabled = true ∧ (test r).result = .error f) ∨
        ((r.enabled = true → (test r).result = .ok false) ∧ StopsWith test f rules) := by
  constructor
  · rintro ⟨earlier, q, later, heq, hon, htest, hearlier⟩
    cases earlier with
    | nil =>
      obtain ⟨rfl, -⟩ := List.cons.inj heq
      exact .inl ⟨hon, htest⟩
    | cons p earlier =>
      obtain ⟨rfl, rfl⟩ := List.cons.inj heq
      obtain ⟨hr, hearlier⟩ := List.forall_mem_cons.mp hearlier
      exact .inr ⟨hr, earlier, q, later, rfl, hon, htest, hearlier⟩
  · rintro (⟨hon, htest⟩ | ⟨hr, earlier, q, later, rfl, hon, htest, hearlier⟩)
    · exact ⟨[], r, rules, rfl, hon, htest, fun _ hp => absurd hp List.not_mem_nil⟩
    · exact ⟨r :: earlier, q, later, rfl, hon, htest, List.forall_mem_cons.mpr ⟨hr, hearlier⟩⟩

/-- A search fails exactly if it comes to a rule whose test does. -/
theorem firstMatch_eq_error_iff : (firstMatch test rules).result = .error f ↔ StopsWith test f rules := by
  induction rules with
  | nil => exact iff_of_false nofun not_stopsWith_nil
  | cons r rules ih =>
    rw [stopsWith_cons_iff, ← ih, firstMatch]
    by_cases hon : r.enabled = true
    · rw [if_pos hon, Run.result_bind]
      cases htest : (test r).result with
      | error g => simp [Except.bind, hon]
      | ok matched => cases matched <;> simp [Except.bind, hon]
    · rw [if_neg hon]
      simp [hon]

theorem byFirst_eq_error_iff : (byFirst k test rules).result = .error f ↔ StopsWith test f rules := by
  rw [← firstMatch_eq_error_iff]
  exact Run.bind_pure_eq_error

/-- Rules about what was looked up fail only if their tests do. -/
theorem byLookup_ne_error {ε α : Type} {d : Decision} {tests : α → Rule → Run Fault Bool} {answer : Lookup ε α}
    (h : ∀ a, ∀ r ∈ rules, (tests a r).result ≠ .error f) : (byLookup k d tests answer rules).result ≠ .error f := by
  unfold byLookup
  split
  · exact nofun
  · cases answer with
    | notFound => exact nofun
    | unavailable reason => exact nofun
    | found a =>
      rw [ne_eq, byFirst_eq_error_iff]
      rintro ⟨earlier, r, later, rfl, -, htest, -⟩
      exact h a r (List.mem_append_right _ (List.mem_cons_self ..)) htest

/-! ## Rules without room -/

/-- There is no room for the pattern of an enabled rule, and no enabled rule before it passes
    the test. -/
def Overflows [Stack] (test : Rule → Run Fault Bool) (rules : List Rule) : Prop :=
  ∃ earlier r later, rules = earlier ++ r :: later ∧ r.enabled = true ∧
    r.toPattern.fits Stack.room = false ∧ ∀ q ∈ earlier, q.enabled = true → (test q).result = .ok false

theorem patternMatches_eq_error_iff [Stack] (h : r.Compiles) {t : Text} :
    (patternMatches r t).result = .error f ↔ f = .tooDeep ∧ r.toPattern.fits Stack.room = false := by
  rw [← h.compileWithin_eq_error_iff, ← Run.result_compileHere]
  exact Run.bind_pure_eq_error

/-- Rules that compile fail only for want of room, and then they do. -/
theorem byFirst_patternMatches_eq_error_iff [Stack] (h : ∀ r ∈ rules, r.Compiles) {t : Text} :
    (byFirst k (patternMatches · t) rules).result = .error f ↔
      f = .tooDeep ∧ Overflows (patternMatches · t) rules := by
  rw [byFirst_eq_error_iff]
  constructor
  · rintro ⟨earlier, r, later, rfl, hon, htest, hearlier⟩
    have hr := h r (List.mem_append_right _ (List.mem_cons_self ..))
    obtain ⟨rfl, hfits⟩ := (patternMatches_eq_error_iff hr).mp htest
    exact ⟨rfl, earlier, r, later, rfl, hon, hfits, hearlier⟩
  · rintro ⟨rfl, earlier, r, later, rfl, hon, hfits, hearlier⟩
    have hr := h r (List.mem_append_right _ (List.mem_cons_self ..))
    exact ⟨earlier, r, later, rfl, hon, (patternMatches_eq_error_iff hr).mpr ⟨rfl, hfits⟩, hearlier⟩

/-- Tag rules that compile do not fail: only regular expressions among them are compiled. -/
theorem opinion_tag_ne_error [Stack] {src : Sources} {path : Text} (h : ∀ r ∈ rules, r.Compiles) :
    (opinion src path .tag rules).result ≠ .error f := by
  refine byLookup_ne_error fun tags r hr htest => ?_
  unfold tagRuleMatches at htest
  split at htest
  · obtain ⟨program, hprogram⟩ := h r hr
    rw [Run.result_bind, Run.result_compile, hprogram] at htest
    cases htest
  · cases htest

/-- Neither do keyword rules. -/
theorem opinion_keyword_ne_error [Stack] {src : Sources} {path : Text} (h : ∀ r ∈ rules, r.Compiles) :
    (opinion src path .keyword rules).result ≠ .error f := by
  refine byLookup_ne_error fun content r hr htest => ?_
  unfold keywordMatches at htest
  split at htest
  · next hregex =>
    obtain ⟨-, hfits⟩ := (patternMatches_eq_error_iff (h r hr)).mp htest
    rw [Rule.toPattern, Pattern.make, if_pos hregex] at hfits
    cases hfits
  · cases htest

end Matching

/-! ## Policies that compile -/

namespace Snapshot

open Matching

variable {s : Snapshot} {src : Sources} {m : Option Method} {path : Text} {f : Fault}

/-- All active rules have programs. -/
def Compiles (s : Snapshot) : Prop := ∀ k, ∀ r ∈ s.rules.ofKind k, r.Compiles

/-- Kinds in order fail where one of them does and those before it pass. -/
theorem decideBy_eq_error_iff [Stack] {k : Kind} {kinds : List Kind} :
    s.decideBy src m path (k :: kinds) = .error f ↔
      (opinion src path k (s.rules.ofKind k)).result = .error f ∨
        (s.Passes src m path k ∧ s.decideBy src m path kinds = .error f) := by
  unfold Passes
  rw [decideBy]
  cases (opinion src path k (s.rules.ofKind k)).result with
  | error g => simp [Except.bind]
  | ok o =>
    cases o with
    | none => simp [Except.bind, settle]
    | some d => cases happlies : d.appliesTo m <;> simp [Except.bind, settle, happlies]

/-- The folder rules come to one that there is no room for, or they leave the decision to the
    name rules and these do. -/
def RulesOverflow [Stack] (s : Snapshot) (src : Sources) (m : Option Method) (path : Text) : Prop :=
  Overflows (ruleMatches src path .folder) s.rules.folder ∨
    (s.Passes src m path .folder ∧ Overflows (ruleMatches src path .name) s.rules.name)

/-- So it is for a request about a path in normal form that neither the guards nor the global
    tags decide. -/
def Overflows [Stack] (s : Snapshot) (src : Sources) (request : Request) (path : Text) : Prop :=
  ∃ m, s.Admits request path m ∧ byGlobalTags (src.tagAnswer path) s.allowTag s.denyTag = none ∧
    s.RulesOverflow src m path

/-- A policy with room for its folder and name rules never comes to that. -/
theorem not_overflows_of_fits [Stack] {request : Request}
    (h : ∀ r ∈ s.rules.folder ++ s.rules.name, r.toPattern.fits Stack.room = true) :
    ¬ s.Overflows src request path := by
  rw [List.forall_mem_append] at h
  have hnot : ∀ {test : Rule → Run Fault Bool} {rules : List Rule},
      (∀ r ∈ rules, r.toPattern.fits Stack.room = true) → ¬ Matching.Overflows test rules := by
    rintro test rules hfits ⟨earlier, r, later, rfl, -, hr, -⟩
    rw [hfits r (List.mem_append_right _ (List.mem_cons_self ..))] at hr
    cases hr
  rintro ⟨m, -, -, hfolder | ⟨-, hname⟩⟩
  · exact hnot h.1 hfolder
  · exact hnot h.2 hname

theorem Compiles.decideBy_eq_error_iff [Stack] (h : s.Compiles) :
    s.decideBy src m path Kind.all = .error f ↔ f = .tooDeep ∧ s.RulesOverflow src m path := by
  have hfolder : (opinion src path .folder (s.rules.ofKind .folder)).result = .error f ↔
      f = .tooDeep ∧ Matching.Overflows (ruleMatches src path .folder) s.rules.folder :=
    byFirst_patternMatches_eq_error_iff (h .folder)
  have hname : (opinion src path .name (s.rules.ofKind .name)).result = .error f ↔
      f = .tooDeep ∧ Matching.Overflows (ruleMatches src path .name) s.rules.name :=
    byFirst_patternMatches_eq_error_iff (h .name)
  have htag : (opinion src path .tag (s.rules.ofKind .tag)).result ≠ .error f := opinion_tag_ne_error (h .tag)
  have hkeyword : (opinion src path .keyword (s.rules.ofKind .keyword)).result ≠ .error f :=
    opinion_keyword_ne_error (h .keyword)
  have hdefault : s.decideBy src m path [] ≠ .error f := nofun
  rw [Kind.all, Snapshot.decideBy_eq_error_iff, Snapshot.decideBy_eq_error_iff, Snapshot.decideBy_eq_error_iff,
    Snapshot.decideBy_eq_error_iff, hfolder, hname]
  simp only [htag, hkeyword, hdefault, and_false, or_false, RulesOverflow]
  tauto

theorem Compiles.tagFirst_eq_error_iff [Stack] (h : s.Compiles) :
    (s.tagFirst src m path).result = .error f ↔
      f = .tooDeep ∧ byGlobalTags (src.tagAnswer path) s.allowTag s.denyTag = none ∧
        s.RulesOverflow src m path := by
  rw [result_tagFirst]
  cases byGlobalTags (src.tagAnswer path) s.allowTag s.denyTag with
  | some d => simp
  | none => simpa using h.decideBy_eq_error_iff

/-- A policy whose rules compile decides on every request about a path, unless it comes to a
    rule that there is no room for. -/
theorem Compiles.evaluate_eq_error_iff [Stack] (h : s.Compiles) {request : Request} :
    (s.evaluate src request (.text path)).result = .error f ↔
      f = .tooDeep ∧ s.Overflows src request (VaultPath.normalize path) := by
  rw [result_evaluate]
  by_cases hadmits : ∃ m, s.Admits request (VaultPath.normalize path) m
  · obtain ⟨m, hm⟩ := hadmits
    rw [decide_of_admits hm, h.tagFirst_eq_error_iff]
    refine and_congr_right fun _ => ⟨fun hover => ⟨m, hm, hover⟩, ?_⟩
    rintro ⟨m', hm', hover⟩
    -- A request names one method.
    have hsame : m' = m := by simpa using hm'.method.symm.trans hm.method
    exact hsame ▸ hover
  · obtain ⟨d, hd⟩ := exists_decide_eq_pure src fun m hm => hadmits ⟨m, hm⟩
    rw [hd]
    exact iff_of_false nofun fun ⟨_, m, hm, _⟩ => hadmits ⟨m, hm⟩

end Snapshot

namespace Engine

/-- The rules of a listing compile. -/
theorem Listed.compiles {e : Engine} (h : e.Listed) : e.snapshot.Compiles := by
  obtain ⟨l, hl, hrules, -⟩ := h
  intro k
  rw [hrules]
  exact hl.compiles k

/-- An evaluation on the policy that calls have put in place, whether or not some of them
    failed, ends with a decision, unless it comes to a folder or name rule whose braces there is
    no room to expand, and then it fails.  The sources may do what they like, and a pattern that
    cannot be used for another reason is known to be malformed. -/
theorem evaluate_after [Stack] (concurrency : Nat) (calls : List Call) (src : Sources) (request : Request)
    (path : Text) :
    let s := (Engine.after { concurrency } calls).snapshot
    let x := s.evaluate src request (.text path)
    (¬ s.Overflows src request (VaultPath.normalize path) → ∃ d, x.result = .ok d) ∧
      (s.Overflows src request (VaultPath.normalize path) → x.result = .error .tooDeep) ∧
      ∀ k, ∀ r ∈ s.rules.ofKind k, (∃ program, r.toPattern.compile = .ok program) ∧
        ∀ f, Regex.compile r.toPattern.expression.2 r.toPattern.expression.1 = .error f →
          ∃ flaw place, f = .malformed flaw place := by
  intro s x
  have hcompiles : s.Compiles := ((listed_default concurrency).after calls).compiles
  refine ⟨fun hfits => ?_, fun hover => hcompiles.evaluate_eq_error_iff.mpr ⟨rfl, hover⟩,
    fun k r hr => ⟨hcompiles k r hr, (hcompiles k r hr).onlyMalformed⟩⟩
  cases hx : x.result with
  | ok d => exact ⟨d, rfl⟩
  | error f => exact absurd (hcompiles.evaluate_eq_error_iff.mp hx).2 hfits

/-! ## Groups in groups -/

/-- A rule about a pattern with a group in a group, so many times. -/
def towerRule (n : Nat) : Rule := { mode := .deny, pattern := (Glob.towerTree n).text, sourceLine := 0 }

theorem mem_towerTree_text {n : Nat} {c : CodePoint} (h : c ∈ (Glob.towerTree n).text) :
    c ∈ ([CodePoint.openBrace, 'a', CodePoint.comma, CodePoint.closeBrace] : Text) := by
  rw [Glob.towerTree_text, List.mem_append, List.mem_flatten] at h
  rcases h with ⟨piece, hpiece, hc⟩ | h
  · rw [List.eq_of_mem_replicate hpiece] at hc
    have hsub : ("\x7ba," : Text) ⊆ [CodePoint.openBrace, 'a', CodePoint.comma, CodePoint.closeBrace] := by decide
    exact hsub hc
  · rcases List.mem_cons.mp h with rfl | h
    · decide
    · rw [List.eq_of_mem_replicate h]
      decide

/-- The rule can be written on a line. -/
theorem towerRule_writable (n : Nat) : (towerRule n).Writable := by
  have hpattern : (towerRule n).pattern = (Glob.towerTree n).text := rfl
  refine ⟨?_, .inl ⟨rfl, fun hhead => ?_, rfl⟩⟩
  · rw [hpattern, Glob.towerTree_text]
    simp
  · have htilde : CodePoint.tilde ∈ (Glob.towerTree n).text := List.mem_of_head? hhead
    exact absurd (mem_towerTree_text htilde) (by decide)

theorem newline_not_mem_towerRule (n : Nat) : CodePoint.newline ∉ (towerRule n).write .folder := by
  refine (Rule.isWrittenLine_write .folder (towerRule_writable n) ?_).2
  rw [Text.isWrittenLine_iff]
  intro c hc
  have hletters : ∀ c ∈ ([CodePoint.openBrace, 'a', CodePoint.comma, CodePoint.closeBrace] : Text),
      Text.IsWrittenLine [c] := by decide
  exact hletters c (mem_towerTree_text hc)

/-- Read as a rules file, the line of the rule lists it. -/
theorem entries_towerRule (n : Nat) :
    ∃ l, (Listing.ofText ((towerRule n).write .folder)).result = .ok l ∧ l.entries = [⟨.folder, 0, towerRule n⟩] := by
  have hpieces : Text.pieces CodePoint.newline ((towerRule n).write .folder) = [(towerRule n).write .folder] :=
    Text.pieces_of_not_mem (newline_not_mem_towerRule n)
  have hentry : Listing.entryOf ((towerRule n).write .folder) 0 = some ⟨.folder, 0, towerRule n⟩ :=
    Listing.entryOf_write .folder rfl (towerRule_writable n) 0
  have hsucceeds : (Listing.ofText ((towerRule n).write .folder)).Succeeds := by
    rw [Listing.succeeds_ofText_iff, hpieces, List.forall_mem_singleton, hentry]
    rintro _ ⟨⟩
    exact Rule.compiles_of_glob rfl
  obtain ⟨l, hl⟩ := hsucceeds
  obtain ⟨-, hentries, -⟩ := Listing.ofText_eq_ok hl
  refine ⟨l, hl, ?_⟩
  rw [hentries, hpieces, Listing.entriesFrom_cons, hentry]
  rfl

/-- After a reload that succeeds the rules are those of its listing. -/
theorem rules_after_reload [Stack] {r : RulesSource} {l : Listing} (h : r.listing = .ok l) (e : Engine) :
    (e.after [.reload r]).snapshot.rules = l.ruleSet := by
  have hlisting : Call.listing? (.reload r) = some l := by
    rw [Call.listing?, h]
    rfl
  rw [rules_after, List.filterMap_cons, hlisting]
  rfl

/-- The policy with this rule alone fails on a path if there is not that much room. -/
theorem result_evaluate_towerRule [Stack] {s : Snapshot} {n : Nat} (hcompiles : s.Compiles)
    (hbare : s.bare = {}) (hfolder : s.rules.folder = [towerRule n]) (hroom : Stack.room ≤ n) :
    (s.evaluate ⟨none, none⟩ (.given none) (.text "a")).result = .error .tooDeep := by
  have hon : s.enabled = true := congrArg Snapshot.enabled hbare
  have hreadOnly : s.readOnly = false := congrArg Snapshot.readOnly hbare
  have hallow : s.allowTag = [] := congrArg Snapshot.allowTag hbare
  have hdeny : s.denyTag = [] := congrArg Snapshot.denyTag hbare
  have hfits : Glob.fits Stack.room (Glob.towerTree n).text = false := by
    rw [← Bool.not_eq_true, Glob.fits_text _ (Glob.towerTree_isPlain false n), Glob.towerTree_turns]
    exact Nat.not_lt.mpr hroom
  refine hcompiles.evaluate_eq_error_iff.mpr ⟨rfl, none, ⟨hon, rfl, by decide, ?_⟩, ?_, .inl ?_⟩
  · rw [hreadOnly]
    rfl
  · rw [hallow, hdeny]
    rfl
  · exact ⟨[], towerRule n, [], hfolder, rfl, hfits, fun q hq => absurd hq List.not_mem_nil⟩

attribute [local instance] Stack.usual

/-- A rule about a thousand groups in each other is loaded, and then no path is decided on. -/
theorem evaluate_towerRule :
    let s := (Engine.after {} [.reload (.text ((towerRule 1000).write .folder))]).snapshot
    s.rules.folder = [towerRule 1000] ∧
      (s.evaluate ⟨none, none⟩ (.given none) (.text "a")).result = .error .tooDeep := by
  obtain ⟨l, hl, hentries⟩ := entries_towerRule 1000
  have hlisting : (RulesSource.text ((towerRule 1000).write .folder)).listing = .ok l := by
    rw [RulesSource.listing, hl]
    rfl
  have hcompiles := ((listed_default 16).after [.reload (.text ((towerRule 1000).write .folder))]).compiles
  have hbare := bare_after {} [.reload (.text ((towerRule 1000).write .folder))]
  have hfolder : (Engine.after {} [.reload (.text ((towerRule 1000).write .folder))]).snapshot.rules.folder =
      [towerRule 1000] := by
    rw [rules_after_reload hlisting, (Listing.ofText_eq_ok hl).1, hentries]
    rfl
  exact ⟨hfolder, result_evaluate_towerRule hcompiles hbare hfolder (by decide)⟩

end Engine

end NoteAccess
