/-
  NoteAccess.Proofs.Rule.RoundTrip

  Which rules are read back from the lines that they are written as.
  `Rule.Writable` is the condition: the pattern is not empty, a literal one does
  not look like a regular expression, and the flag letters of a regular
  expression are told from its text.

  Both directions rest on one fact each.  A rule that is read is writable
  (`writable_of_ofFields`), so nothing else can come back; and the fields of a
  written line give the rule (`ofFields_write`), each found where it was put.
-/

import Mathlib.Data.List.Dedup
import NoteAccess.Proofs.Rule.Line

namespace NoteAccess

open RuleLine

/-! ## Tidy rules -/

theorem nodup_eraseDups {α : Type} [DecidableEq α] (l : List α) : l.eraseDups.Nodup := by
  -- The induction is on the length: what is left behind the first element is no sublist of
  -- the tail that a structural induction could use, but a filtered one.
  generalize hn : l.length = n
  induction n using Nat.strong_induction_on generalizing l with
  | _ n ih =>
    cases l with
    | nil => exact List.nodup_nil
    | cons a l =>
      have hlen : (l.filter fun b => !b == a).length < n := by
        have hle := List.length_filter_le (fun b => !b == a) l
        rw [List.length_cons] at hn
        omega
      rw [List.eraseDups_cons, List.nodup_cons]
      refine ⟨?_, ih _ hlen _ rfl⟩
      rw [List.mem_eraseDups]
      simp

/-- A list without repetition stays as it is. -/
theorem eraseDups_of_nodup {α : Type} [DecidableEq α] {l : List α} (h : l.Nodup) :
    l.eraseDups = l := by
  induction l with
  | nil => rfl
  | cons a l ih =>
    obtain ⟨ha, hl⟩ := List.nodup_cons.mp h
    have hfilter : (l.filter fun b => !b == a) = l := by
      rw [List.filter_eq_self]
      intro b hb
      have hne : b ≠ a := by
        rintro rfl
        exact ha hb
      simpa using hne
    rw [List.eraseDups_cons, hfilter, ih hl]

namespace Rule

/-- A tidy rule has no empty flags. -/
theorem ne_nil_of_mem_flags {r : Rule} (ht : r.tidy = r) {f : Text} (hf : r.flags = some f) :
    f ≠ [] := by
  have hflags : r.flags.filter (! ·.isEmpty) = r.flags := congrArg Rule.flags ht
  rw [hf, Option.filter_eq_some_iff] at hflags
  simpa using hflags.2

/-- A tidy rule has no empty list of methods. -/
theorem ne_nil_of_mem_methods {r : Rule} (ht : r.tidy = r) {ms : List Method}
    (hms : r.methods = some ms) : ms ≠ [] := by
  have hmethods : (r.methods.map List.eraseDups).filter (! ·.isEmpty) = r.methods :=
    congrArg Rule.methods ht
  rw [hms, Option.filter_eq_some_iff] at hmethods
  simpa using hmethods.2

/-- Making a rule tidy twice is making it tidy once. -/
theorem tidy_tidy (r : Rule) : r.tidy.tidy = r.tidy := by
  have hflags : r.tidy.tidy.flags = r.tidy.flags := by
    simp only [tidy, Option.filter_filter, Bool.and_self]
  have hmethods : r.tidy.tidy.methods = r.tidy.methods := by
    simp only [tidy]
    cases r.methods with
    | none => rfl
    | some ms =>
      by_cases he : ms.eraseDups.isEmpty = true
      · simp [Option.filter, he]
      · simp [Option.filter, he, eraseDups_of_nodup (nodup_eraseDups ms)]
  exact (Rule.mk.injEq ..).mpr ⟨rfl, rfl, rfl, hflags, hmethods, rfl, rfl⟩

end Rule

/-! ## Writable rules -/

namespace Rule

/-- The rule can be read back from its line: its pattern is not empty, a literal one does
    not begin like a regular expression and has no flags, and the flags of a regular
    expression are letters that may follow it, or there are none and the expression does
    not end as if there were. -/
def Writable (r : Rule) : Prop :=
  r.pattern ≠ [] ∧
    ((r.isRegex = false ∧ r.pattern.head? ≠ some CodePoint.tilde ∧ r.flags = none) ∨
      (r.isRegex = true ∧
        ((∃ letters, r.flags = some letters ∧ ∀ c ∈ letters, c ∈ flagLetters) ∨
          (r.flags = none ∧ ¬ EndsInFlags r.pattern))))

/-- The rule comes back from its line, on whatever line that is. -/
def RoundTrips (k : Kind) (r : Rule) : Prop :=
  ∀ lineNumber : Int, ∃ e, RuleEntry.ofLine (r.write k) lineNumber = .ok e ∧ e.kind = k ∧
    e.rule.unplaced = r.unplaced

/-- Where a rule stands plays no part in whether it can be written. -/
theorem writable_congr {r q : Rule} (h : r.unplaced = q.unplaced) : r.Writable ↔ q.Writable := by
  have hpattern : r.unplaced.pattern = q.unplaced.pattern := congrArg Rule.pattern h
  have hregex : r.unplaced.isRegex = q.unplaced.isRegex := congrArg Rule.isRegex h
  have hflags : r.unplaced.flags = q.unplaced.flags := congrArg Rule.flags h
  simp only [unplaced] at hpattern hregex hflags
  rw [Writable, Writable, hpattern, hregex, hflags]

end Rule

/-! ## What is read -/

section Fields

variable {mode kind methods : Text} {m : Mode} {k : Kind} (hm : Mode.ofWord? mode.lower = some m)
  (hk : Kind.ofWord? kind.lower = some k) (enabled : Bool) (n : Int)

include hm hk

/-- A pattern without a tilde in front is taken literally. -/
theorem ofFields_literal {pattern : Text} (hne : pattern ≠ [])
    (hlead : pattern.head? ≠ some CodePoint.tilde) :
    RuleEntry.ofFields mode kind pattern methods enabled n =
      .ok ⟨k, n, Rule.tidy
        { mode := m, pattern, methods := if methods.isEmpty then none else some (methodsOf methods),
          enabled, sourceLine := n }⟩ := by
  obtain ⟨c, t, rfl⟩ := List.exists_cons_of_ne_nil hne
  have hc : c ≠ CodePoint.tilde := by
    intro he
    exact hlead (congrArg some he)
  simp only [RuleEntry.ofFields, hm, hk]
  rw [if_neg (by simp)]
  split
  · next he => exact absurd (List.cons.inj he).1 hc
  · rfl

/-- What follows a tilde is an expression with or without flag letters. -/
theorem ofFields_regex {t body : Text} {flags : Option Text}
    (hsplit : (∃ letters, splitFlags? t = some (body, letters) ∧ flags = some letters) ∨
      (splitFlags? t = none ∧ body = t ∧ flags = none)) (hne : body ≠ []) :
    RuleEntry.ofFields mode kind (CodePoint.tilde :: t) methods enabled n =
      .ok ⟨k, n, Rule.tidy
        { mode := m, pattern := body, isRegex := true, flags,
          methods := if methods.isEmpty then none else some (methodsOf methods), enabled,
          sourceLine := n }⟩ := by
  have hbody : ¬ body.isEmpty = true := by simpa using hne
  rcases hsplit with ⟨letters, hs, rfl⟩ | ⟨hs, rfl, rfl⟩
  · simp only [RuleEntry.ofFields, hm, hk, hs]
    rw [if_neg (by simp), if_neg hbody]
    rfl
  · simp only [RuleEntry.ofFields, hm, hk, hs]
    rw [if_neg (by simp), if_neg hbody]
    rfl

end Fields

/-- All that a rule can be made of: a pattern that is taken literally, or a tilde and an
    expression with or without flag letters. -/
theorem ofFields_cases {mode kind pattern methods : Text} {enabled : Bool} {n : Int} {e : RuleEntry}
    (h : RuleEntry.ofFields mode kind pattern methods enabled n = .ok e) :
    ∃ (m : Mode) (k : Kind) (ms : Option (List Method)),
      (pattern ≠ [] ∧ pattern.head? ≠ some CodePoint.tilde ∧
        e = ⟨k, n, Rule.tidy { mode := m, pattern, methods := ms, enabled, sourceLine := n }⟩) ∨
      ∃ t body flags, pattern = CodePoint.tilde :: t ∧ body ≠ [] ∧
        ((∃ letters, splitFlags? t = some (body, letters) ∧ flags = some letters) ∨
          (splitFlags? t = none ∧ body = t ∧ flags = none)) ∧
        e = ⟨k, n, Rule.tidy
          { mode := m, pattern := body, isRegex := true, flags, methods := ms, enabled, sourceLine := n }⟩ := by
  have hne : pattern ≠ [] := by
    rintro rfl
    cases h
  obtain ⟨m, hm⟩ : ∃ m, Mode.ofWord? mode.lower = some m := by
    cases hm : Mode.ofWord? mode.lower with
    | some m => exact ⟨m, rfl⟩
    | none => simp [RuleEntry.ofFields, hm, hne] at h
  obtain ⟨k, hk⟩ : ∃ k, Kind.ofWord? kind.lower = some k := by
    cases hk : Kind.ofWord? kind.lower with
    | some k => exact ⟨k, rfl⟩
    | none => simp [RuleEntry.ofFields, hm, hk, hne] at h
  refine ⟨m, k, if methods.isEmpty then none else some (methodsOf methods), ?_⟩
  by_cases hlead : pattern.head? = some CodePoint.tilde
  · obtain ⟨t, rfl⟩ : ∃ t, pattern = CodePoint.tilde :: t := List.head?_eq_some_iff.mp hlead
    obtain ⟨body, flags, hsplit⟩ : ∃ body flags,
        (∃ letters, splitFlags? t = some (body, letters) ∧ flags = some letters) ∨
          (splitFlags? t = none ∧ body = t ∧ flags = none) := by
      cases hs : splitFlags? t with
      | some found => exact ⟨found.1, some found.2, .inl ⟨found.2, rfl, rfl⟩⟩
      | none => exact ⟨t, none, .inr ⟨rfl, rfl, rfl⟩⟩
    have hbody : body ≠ [] := by
      rintro rfl
      rcases hsplit with ⟨letters, hs, -⟩ | ⟨hs, rfl, -⟩ <;>
        · simp only [RuleEntry.ofFields, hm, hk, hs] at h
          cases h
    rw [ofFields_regex hm hk enabled n hsplit hbody] at h
    exact .inr ⟨t, body, flags, rfl, hbody, hsplit, (Except.ok.inj h).symm⟩
  · rw [ofFields_literal hm hk enabled n hne hlead] at h
    exact .inl ⟨hne, hlead, (Except.ok.inj h).symm⟩

/-- A rule that is read from fields is tidy and can be written. -/
theorem writable_of_ofFields {mode kind pattern methods : Text} {enabled : Bool} {n : Int}
    {e : RuleEntry} (h : RuleEntry.ofFields mode kind pattern methods enabled n = .ok e) :
    e.rule.tidy = e.rule ∧ e.rule.Writable := by
  obtain ⟨m, k, ms, ⟨hne, hlead, rfl⟩ | ⟨t, body, flags, rfl, hbody, hsplit, rfl⟩⟩ := ofFields_cases h
  · exact ⟨Rule.tidy_tidy _, hne, .inl ⟨rfl, hlead, rfl⟩⟩
  refine ⟨Rule.tidy_tidy _, hbody, .inr ⟨rfl, ?_⟩⟩
  rcases hsplit with ⟨letters, hs, rfl⟩ | ⟨hs, rfl, rfl⟩
  · obtain ⟨hletters, hmem⟩ := splitFlags?_eq_some hs
    refine .inl ⟨letters, ?_, hmem⟩
    simp [Rule.tidy, Option.filter, hletters]
  · have hend : ¬ EndsInFlags body := by
      intro hend
      simpa [hs] using splitFlags?_isSome hend
    exact .inr ⟨rfl, hend⟩

/-- So is a rule that is read from a line. -/
theorem writable_of_ofLine {line : Text} {n : Int} {e : RuleEntry}
    (h : RuleEntry.ofLine line n = .ok e) : e.rule.tidy = e.rule ∧ e.rule.Writable := by
  unfold RuleEntry.ofLine at h
  dsimp only at h
  split at h
  · next mode kind rest hlead =>
    cases hsplit : splitPattern rest.strip with
    | error e => rw [hsplit] at h; cases h
    | ok parts => rw [hsplit] at h; exact writable_of_ofFields h
  · cases h

/-! ## What is written -/

/-- The names of methods are single words. -/
theorem Method.name_isWord (m : Method) :
    m.name ≠ [] ∧ ∀ c ∈ m.name, (c == CodePoint.comma || c.isBlank) = false := by
  cases m <;> decide

theorem Method.hasBlank_name (m : Method) : m.name.hasBlank = false := by cases m <;> rfl

theorem Method.ofWord?_name (m : Method) : Method.ofWord? m.name = some m := by cases m <;> rfl

theorem Mode.hasBlank_word (m : Mode) : m.word.hasBlank = false := by cases m <;> rfl

theorem Mode.word_ne_nil (m : Mode) : m.word ≠ [] := by cases m <;> decide

theorem Mode.ofWord?_lower_word (m : Mode) : Mode.ofWord? m.word.lower = some m := by
  cases m <;> rfl

theorem Kind.hasBlank_word (k : Kind) : k.word.hasBlank = false := by cases k <;> rfl

theorem Kind.word_ne_nil (k : Kind) : k.word ≠ [] := by cases k <;> decide

theorem Kind.ofWord?_lower_word (k : Kind) : Kind.ofWord? k.word.lower = some k := by
  cases k <;> rfl

/-- The methods in a list of their names are read back. -/
theorem RuleLine.methodsOf_join (ms : List Method) :
    methodsOf (Text.join [CodePoint.comma] (ms.map Method.name)) = ms := by
  have hwords : ∀ w ∈ ms.map Method.name,
      w ≠ [] ∧ ∀ c ∈ w, (c == CodePoint.comma || c.isBlank) = false := by
    intro w hw
    obtain ⟨m, -, rfl⟩ := List.mem_map.mp hw
    exact m.name_isWord
  rw [methodsOf, Text.fields_join (by rfl) hwords, List.filterMap_map]
  have hid : Method.ofWord? ∘ Method.name = some := funext Method.ofWord?_name
  rw [hid, List.filterMap_some]

namespace Rule

/-- The names of the methods as they are written. -/
def methodsField (r : Rule) : Text :=
  Text.join [CodePoint.comma] ((r.methods.getD []).map Method.name)

/-- What follows the pattern in a line. -/
def methodsTail (r : Rule) : Text :=
  if r.methodsField.isEmpty then [] else fieldGap ++ r.methodsField

theorem methodsOf_methodsField (r : Rule) : methodsOf r.methodsField = r.methods.getD [] :=
  methodsOf_join _

theorem methodsField_eq_nil_iff {r : Rule} : r.methodsField = [] ↔ r.methods.getD [] = [] := by
  constructor
  · intro h
    rw [← methodsOf_methodsField, h]
    rfl
  · intro h
    rw [methodsField, h]
    rfl

/-- The parts of a line, each with what follows it. -/
theorem write_eq (k : Kind) (r : Rule) :
    r.write k = (if r.enabled then [] else disabledMark) ++ (r.mode.word ++ (fieldGap ++
      (k.word ++ (fieldGap ++ (r.patternField ++ r.methodsTail))))) := by
  simp only [write, writeAs, List.append_assoc, List.append_cancel_left_eq]
  unfold methodsTail
  split
  · next m ms hms =>
    have hne : ¬ r.methodsField.isEmpty = true := by
      rw [List.isEmpty_iff, methodsField_eq_nil_iff, hms]
      exact List.cons_ne_nil _ _
    rw [if_neg hne, methodsField, hms]
    rfl
  · next hnone =>
    rw [if_pos]
    rw [List.isEmpty_iff, methodsField_eq_nil_iff]
    cases hms : r.methods with
    | none => rfl
    | some ms =>
      cases ms with
      | nil => rfl
      | cons m ms => exact absurd hms (hnone m ms)

/-- The methods of a tidy rule are read back. -/
theorem read_methodsField {r : Rule} (ht : r.tidy = r) :
    (if r.methodsField.isEmpty then none else some (methodsOf r.methodsField)) = r.methods := by
  cases hms : r.methods with
  | none =>
    have hnil : r.methodsField = [] := methodsField_eq_nil_iff.mpr (by rw [hms]; rfl)
    rw [if_pos (List.isEmpty_iff.mpr hnil)]
  | some ms =>
    have hne : ¬ r.methodsField.isEmpty = true := by
      rw [List.isEmpty_iff, methodsField_eq_nil_iff, hms]
      exact ne_nil_of_mem_methods ht hms
    rw [if_neg hne, methodsOf_methodsField, hms]
    rfl

theorem trimmed_methodsField (r : Rule) : r.methodsField.Trimmed := by
  refine Text.trimmed_of_hasBlank_eq_false (Text.hasBlank_join (by decide) ?_)
  intro w hw
  obtain ⟨m, -, rfl⟩ := List.mem_map.mp hw
  exact m.hasBlank_name

/-- What follows the pattern begins with a blank, and stripped it is the methods. -/
theorem strip_methodsTail (r : Rule) :
    (∀ c ∈ r.methodsTail.head?, c.isBlank = true) ∧ r.methodsTail.strip = r.methodsField := by
  unfold methodsTail
  split
  · next hnil =>
    rw [List.isEmpty_iff] at hnil
    rw [hnil]
    exact ⟨by simp, rfl⟩
  · refine ⟨?_, Text.strip_append isBlank_of_mem_fieldGap r.trimmed_methodsField⟩
    intro c hc
    exact isBlank_of_mem_fieldGap c (List.mem_of_mem_head? hc)

theorem bareField_ne_nil {r : Rule} (hne : r.pattern ≠ []) : r.bareField ≠ [] := by
  unfold bareField
  split
  · exact List.cons_ne_nil _ _
  · exact hne

/-- The pattern as it is written is trimmed, and it is not empty. -/
theorem trimmed_patternField {r : Rule} (hne : r.pattern ≠ []) :
    r.patternField.Trimmed ∧ r.patternField ≠ [] := by
  unfold patternField
  split
  · exact ⟨trimmed_quote _, List.cons_ne_nil _ _⟩
  · next hquote =>
    simp only [needsQuote, Bool.or_eq_true, not_or, Bool.not_eq_true] at hquote
    exact ⟨Text.trimmed_of_hasBlank_eq_false hquote.1, bareField_ne_nil hne⟩

/-- So is the end of a line from the pattern on. -/
theorem trimmed_end {r : Rule} (hne : r.pattern ≠ []) :
    (r.patternField ++ r.methodsTail).Trimmed ∧ r.patternField ++ r.methodsTail ≠ [] := by
  obtain ⟨htrim, hfield⟩ := trimmed_patternField hne
  unfold methodsTail
  split
  · rw [List.append_nil]
    exact ⟨htrim, hfield⟩
  · next hnil =>
    exact ⟨htrim.append fieldGap r.trimmed_methodsField hfield (by simpa using hnil),
      List.append_ne_nil_of_left_ne_nil hfield _⟩

/-- The expression and its flags as they are written. -/
theorem bareField_regex {r : Rule} (ht : r.tidy = r) (hregex : r.isRegex = true) :
    r.bareField = CodePoint.tilde ::
      (r.pattern ++ r.flags.elim [] (CodePoint.slash :: ·)) := by
  rw [bareField, if_pos hregex, List.cons_append]
  cases hflags : r.flags with
  | none => rfl
  | some letters => simp [ne_nil_of_mem_flags ht hflags]

/-- The fields of a line give the rule. -/
theorem ofFields_write (k : Kind) {r : Rule} (ht : r.tidy = r) (hw : r.Writable) (n : Int) :
    RuleEntry.ofFields r.mode.word k.word r.bareField r.methodsField r.enabled n =
      .ok ⟨k, n, { r with sourceLine := n }⟩ := by
  have htidy : Rule.tidy { r with sourceLine := n } = { r with sourceLine := n } :=
    congrArg (fun q : Rule => { q with sourceLine := n }) ht
  have hmethods := read_methodsField ht
  have hmode := r.mode.ofWord?_lower_word
  have hkind := k.ofWord?_lower_word
  obtain ⟨hne, ⟨hregex, hlead, hflags⟩ | ⟨hregex, hflags⟩⟩ := hw
  · have hbare : r.bareField = r.pattern := by simp [bareField, hregex]
    rw [hbare, ofFields_literal hmode hkind r.enabled n hne hlead, hmethods, ← htidy, hregex, hflags]
  · have hsplit : (∃ letters, splitFlags? (r.pattern ++ r.flags.elim [] (CodePoint.slash :: ·)) =
          some (r.pattern, letters) ∧ r.flags = some letters) ∨
        (splitFlags? (r.pattern ++ r.flags.elim [] (CodePoint.slash :: ·)) = none ∧
          r.pattern = r.pattern ++ r.flags.elim [] (CodePoint.slash :: ·) ∧ r.flags = none) := by
      rcases hflags with ⟨letters, hflags, hmem⟩ | ⟨hflags, hend⟩
      · refine .inl ⟨letters, ?_, hflags⟩
        rw [hflags]
        exact splitFlags?_append (ne_nil_of_mem_flags ht hflags) hmem r.pattern
      · rw [hflags, Option.elim_none, List.append_nil]
        exact .inr ⟨splitFlags?_eq_none hend, rfl, rfl⟩
    rw [bareField_regex ht hregex, ofFields_regex hmode hkind r.enabled n hsplit hne, hmethods,
      ← htidy, hregex]

/-- The line of a tidy rule that can be written gives the rule. -/
theorem ofLine_write (k : Kind) {r : Rule} (ht : r.tidy = r) (hw : r.Writable) (n : Int) :
    RuleEntry.ofLine (r.write k) n = .ok ⟨k, n, { r with sourceLine := n }⟩ := by
  obtain ⟨hend, hendne⟩ := trimmed_end hw.1
  have hlead := leadingFields?_append r.mode.hasBlank_word r.mode.word_ne_nil k.hasBlank_word
    k.word_ne_nil hend
  have hnone : Text.dropLead? disabledMark (r.mode.word ++ (fieldGap ++ (k.word ++ (fieldGap ++
      (r.patternField ++ r.methodsTail))))) = none := by
    cases r.mode <;> rfl
  have htrim : Text.Trimmed (r.mode.word ++ (fieldGap ++ (k.word ++ (fieldGap ++
      (r.patternField ++ r.methodsTail))))) := by
    have hmode := Text.trimmed_of_hasBlank_eq_false r.mode.hasBlank_word
    simpa only [List.append_assoc] using
      hmode.append (fieldGap ++ (k.word ++ fieldGap)) hend r.mode.word_ne_nil hendne
  obtain ⟨htail, hstrip⟩ := r.strip_methodsTail
  have hsplit : splitPattern (r.patternField ++ r.methodsTail) = .ok (r.bareField, r.methodsField) := by
    rw [← hstrip]
    exact splitPattern_append rfl (bareField_ne_nil hw.1) htail
  have hread := ofFields_write k ht hw n
  rw [write_eq]
  -- From here on the line matters only through the facts about it above.
  generalize r.mode.word ++ (fieldGap ++ (k.word ++ (fieldGap ++
    (r.patternField ++ r.methodsTail)))) = content at *
  unfold RuleEntry.ofLine
  cases henabled : r.enabled with
  | true =>
    rw [henabled] at hread
    rw [if_pos rfl, List.nil_append, hnone]
    dsimp only
    rw [hlead]
    dsimp only
    rw [hend.strip, hsplit]
    exact hread
  | false =>
    rw [henabled] at hread
    rw [if_neg Bool.false_ne_true, Text.dropLead?_append]
    dsimp only
    rw [htrim.strip, hlead]
    dsimp only
    rw [hend.strip, hsplit]
    exact hread

/-- A tidy rule comes back from its line if it can be written. -/
theorem Writable.roundTrips {r : Rule} (hw : r.Writable) (ht : r.tidy = r) (k : Kind) :
    r.RoundTrips k := by
  intro n
  exact ⟨_, ofLine_write k ht hw n, rfl, rfl⟩

/-- A rule comes back from its line exactly if it can be written, and every rule that is
    read, from fields or from a line, can. -/
theorem roundTrips_iff_writable :
    (∀ (k : Kind) (r : Rule), r.tidy.RoundTrips k ↔ r.tidy.Writable) ∧
    (∀ (mode kind pattern methods : Text) (enabled : Bool) (n : Int) (e : RuleEntry),
      RuleEntry.ofFields mode kind pattern methods enabled n = .ok e →
        e.rule.Writable ∧ ∀ k, e.rule.RoundTrips k) ∧
    ∀ (line : Text) (n : Int) (e : RuleEntry),
      RuleEntry.ofLine line n = .ok e → e.rule.Writable ∧ ∀ k, e.rule.RoundTrips k := by
  refine ⟨fun k r => ⟨?_, ?_⟩, ?_, ?_⟩
  · -- What comes back has been read, so it can be written, and it is the same rule.
    intro hround
    obtain ⟨e, hread, -, hsame⟩ := hround 0
    exact (writable_congr hsame).mp (writable_of_ofLine hread).2
  · intro hw
    exact hw.roundTrips r.tidy_tidy k
  · intro mode kind pattern methods enabled n e h
    obtain ⟨ht, hw⟩ := writable_of_ofFields h
    exact ⟨hw, hw.roundTrips ht⟩
  · intro line n e h
    obtain ⟨ht, hw⟩ := writable_of_ofLine h
    exact ⟨hw, hw.roundTrips ht⟩

/-- A disabled rule whose expression has a blank, a quotation mark and flag letters. -/
theorem roundTrips_quoted_expression :
    ∃ e, RuleEntry.ofLine "#!disabled deny  folder  \"~a \\\"b/c/gi\"  GET,PUT" 4 = .ok e ∧
      RuleEntry.ofFields "DENY" "folder" "~a \"b/c/gi" "GET, put, GET" false 4 = .ok e ∧
      e.rule.Writable ∧ e.rule.RoundTrips .folder ∧ e.rule.tidy.RoundTrips .tag := by
  refine ⟨⟨.folder, 4, .deny, "a \"b/c", true, some "gi", some [.get, .put], false, 4⟩, rfl, rfl, ?_⟩
  obtain ⟨htidy, hfields, hline⟩ := roundTrips_iff_writable
  obtain ⟨hw, -⟩ := hfields "DENY" "folder" "~a \"b/c/gi" "GET, put, GET" false 4 _ rfl
  obtain ⟨-, hround⟩ :=
    hline "#!disabled deny  folder  \"~a \\\"b/c/gi\"  GET,PUT" 4 _ rfl
  exact ⟨hw, hround .folder, (htidy .tag _).mpr hw⟩

end Rule

end NoteAccess
