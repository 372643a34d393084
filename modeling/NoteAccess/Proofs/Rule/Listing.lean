/-
  NoteAccess.Proofs.Rule.Listing

  What a text of rules lists.  Each line has at most one entry (`entryOf`), which
  depends on no other line.  A text has the listing of what its lines give
  (`ofText_eq_ok_iff`), so it lists the entries of its lines, and their regular
  expressions have compiled, perhaps to a program that never matches
  (`ofText_eq_ok`).

  The entries of lines stand in the order of the lines (`pairwise_entriesFrom`), and
  only their places depend on where the lines stand (`entryOf_onLine`).
-/

import NoteAccess.Rule.File
import NoteAccess.Proofs.Run

namespace NoteAccess

namespace Run

variable {ε α β : Type} {f : α → Run ε β}

theorem eachFrom_eq_ok {events : List Event} {seen bs : List β} {items : List α} :
    (eachFrom f events seen items).result = .ok bs ↔
      ∃ cs, bs = seen.reverse ++ cs ∧ List.Forall₂ (fun a b => (f a).result = .ok b) items cs := by
  induction items generalizing events seen with
  | nil =>
    simp only [eachFrom, Except.ok.injEq, List.forall₂_nil_left_iff, exists_eq_right,
      List.append_nil]
    exact eq_comm
  | cons a rest ih =>
    rw [eachFrom]
    cases ha : (f a).result with
    | error e => simp [List.forall₂_cons_left_iff, ha]
    | ok b =>
      dsimp only
      rw [ih]
      simp [List.forall₂_cons_left_iff, ha]

/-- Runs one after the other end with values exactly if each does. -/
theorem each_eq_ok {items : List α} {bs : List β} :
    (each f items).result = .ok bs ↔ List.Forall₂ (fun a b => (f a).result = .ok b) items bs := by
  simp [each, eachFrom_eq_ok]

end Run

/-- The pattern of the rule has a program, perhaps one that never matches. -/
def Rule.Compiles (r : Rule) : Prop := ∃ program, r.toPattern.compile = .ok program

/-- A glob always has one. -/
theorem Rule.compiles_of_glob {r : Rule} (h : r.isRegex = false) : r.Compiles := by
  have hglob : r.toPattern = .glob r.pattern := by
    rw [Rule.toPattern, h]
    rfl
  rw [Rule.Compiles, hglob]
  exact ⟨_, rfl⟩

/-! ## Places of entries -/

namespace RuleEntry

/-- The entry on another line. -/
def onLine (e : RuleEntry) (n : Int) : RuleEntry := ⟨e.kind, n, { e.rule with sourceLine := n }⟩

@[simp] theorem onLine_onLine (e : RuleEntry) (n m : Int) : (e.onLine n).onLine m = e.onLine m := rfl

@[simp] theorem lineNumber_onLine (e : RuleEntry) (n : Int) : (e.onLine n).lineNumber = n := rfl

/-- The entry with its rule enabled or disabled. -/
def setEnabled (e : RuleEntry) (b : Bool) : RuleEntry := { e with rule := { e.rule with enabled := b } }

/-- Whether the rule is enabled and where it stands have no effect on the rest. -/
theorem ofFields_eq_map (mode kind pattern methods : Text) (enabled : Bool) (n : Int) :
    ofFields mode kind pattern methods enabled n =
      (ofFields mode kind pattern methods true 0).map fun e => (e.setEnabled enabled).onLine n := by
  unfold ofFields
  dsimp only
  by_cases hne : pattern.isEmpty = true
  · rw [if_pos hne, if_pos hne]
    rfl
  · rw [if_neg hne, if_neg hne]
    cases Mode.ofWord? mode.lower with
    | none => rfl
    | some w =>
      cases Kind.ofWord? kind.lower with
      | none => rfl
      | some k =>
        dsimp only
        split
        · next body =>
          cases RuleLine.splitFlags? body with
          | none => dsimp only; split <;> rfl
          | some found => dsimp only; split <;> rfl
        · rfl

/-- What a line says does not depend on where the line stands. -/
theorem ofLine_onLine (line : Text) (n m : Int) :
    ofLine line m = (ofLine line n).map (·.onLine m) := by
  unfold ofLine
  dsimp only
  split
  · next mode kind rest hfields =>
    cases RuleLine.splitPattern rest.strip with
    | error e => rfl
    | ok parts =>
      obtain ⟨pattern, methods⟩ := parts
      dsimp only [bind, Except.bind]
      rw [ofFields_eq_map _ _ _ _ _ n, ofFields_eq_map _ _ _ _ _ m]
      cases ofFields mode kind pattern methods true 0 <;> rfl
  · rfl

end RuleEntry

namespace Listing

/-! ## Lines -/

/-- The entry of a line, if the line is a rule. -/
def entryOf (line : Text) (index : Nat) : Option RuleEntry :=
  if isSilent line.strip then none else (RuleEntry.ofLine line.strip index).toOption

/-- All that reading a line can come to: it holds no rule and gives nothing, it is no rule and
    gives a complaint, or it is a rule and gives its entry, perhaps with a complaint about its
    regular expression. -/
theorem readLine_cases {line : Text} {index : Nat} {found : Option RuleEntry × Option RuleWarning}
    (h : (readLine line index).result = .ok found) :
    (isSilent line.strip = true ∧ found = (none, none)) ∨
      (isSilent line.strip = false ∧ ∃ e, RuleEntry.ofLine line.strip index = .error e ∧
        found = (none, some ⟨index, .notRule e, line.strip⟩)) ∨
      (isSilent line.strip = false ∧ ∃ e w, RuleEntry.ofLine line.strip index = .ok e ∧ e.rule.Compiles ∧
        found = (some e, w) ∧ ∀ x ∈ w, x = ⟨index, .malformedRegex, line.strip⟩) := by
  unfold readLine at h
  dsimp only at h
  by_cases hsilent : isSilent line.strip = true
  · rw [if_pos hsilent] at h
    cases h
    exact .inl ⟨hsilent, rfl⟩
  · rw [if_neg hsilent] at h
    rw [Bool.not_eq_true] at hsilent
    cases hline : RuleEntry.ofLine line.strip index with
    | error e =>
      rw [hline] at h
      cases h
      exact .inr (.inl ⟨hsilent, e, rfl, rfl⟩)
    | ok e =>
      rw [hline] at h
      dsimp only at h
      refine .inr (.inr ⟨hsilent, e, ?_⟩)
      by_cases hregex : e.rule.isRegex = true
      · rw [if_pos hregex, Run.bind_eq_ok] at h
        obtain ⟨program, hprogram, h⟩ := h
        cases h
        rw [Run.result_compile] at hprogram
        refine ⟨_, rfl, ⟨program, hprogram⟩, rfl, ?_⟩
        intro x hx
        split at hx
        · cases hx
        · exact (Option.some.inj hx).symm
      · rw [if_neg hregex] at h
        cases h
        have hglob := Rule.compiles_of_glob (Bool.eq_false_iff.mpr hregex)
        exact ⟨none, rfl, hglob, rfl, fun x hx => nomatch hx⟩

/-- A line that is read gives its entry, whose regular expression has compiled. -/
theorem readLine_eq_ok {line : Text} {index : Nat} {found : Option RuleEntry × Option RuleWarning}
    (h : (readLine line index).result = .ok found) :
    found.1 = entryOf line index ∧ ∀ e ∈ found.1, e.rule.Compiles := by
  unfold entryOf
  rcases readLine_cases h with ⟨hsilent, rfl⟩ | ⟨hsilent, e, hline, rfl⟩ |
    ⟨hsilent, e, w, hline, hcompiles, rfl, -⟩
  · rw [if_pos hsilent]
    exact ⟨rfl, by simp⟩
  · rw [hsilent, hline]
    exact ⟨rfl, by simp⟩
  · rw [hsilent, hline]
    exact ⟨rfl, fun e' he' => Option.some.inj he' ▸ hcompiles⟩

/-- What a line says does not depend on where the line stands. -/
theorem entryOf_onLine (line : Text) (i j : Nat) :
    entryOf line j = (entryOf line i).map (·.onLine j) := by
  unfold entryOf
  split
  · rfl
  · rw [RuleEntry.ofLine_onLine line.strip i j]
    cases RuleEntry.ofLine line.strip i <;> rfl

theorem eq_onLine_of_entryOf {line : Text} {index : Nat} {e : RuleEntry}
    (h : entryOf line index = some e) : e = e.onLine index := by
  have hsame := entryOf_onLine line index index
  rw [h] at hsame
  exact Option.some.inj hsame

theorem lineNumber_of_entryOf {line : Text} {index : Nat} {e : RuleEntry}
    (h : entryOf line index = some e) : e.lineNumber = index := by
  rw [eq_onLine_of_entryOf h, RuleEntry.lineNumber_onLine]

/-! ## Texts -/

/-- The entries of lines, in order; `first` is the number of the first line. -/
def entriesFrom (first : Nat) (lines : List Text) : List RuleEntry :=
  (lines.zipIdx first).filterMap fun item => entryOf item.1 item.2

@[simp] theorem entriesFrom_nil (first : Nat) : entriesFrom first [] = [] := rfl

theorem entriesFrom_cons (first : Nat) (line : Text) (rest : List Text) :
    entriesFrom first (line :: rest) = (entryOf line first).toList ++ entriesFrom (first + 1) rest := by
  simp only [entriesFrom, List.zipIdx_cons, List.filterMap_cons]
  cases entryOf line first <;> rfl

theorem entriesFrom_append (first : Nat) (lines rest : List Text) :
    entriesFrom first (lines ++ rest) =
      entriesFrom first lines ++ entriesFrom (first + lines.length) rest := by
  simp only [entriesFrom, List.zipIdx_append, List.filterMap_append]

theorem onLine_of_mem {first : Nat} {lines : List Text} {e : RuleEntry} (h : e ∈ entriesFrom first lines) :
    e.onLine e.lineNumber = e := by
  obtain ⟨⟨line, index⟩, -, hline⟩ := List.mem_filterMap.mp h
  rw [lineNumber_of_entryOf hline, ← eq_onLine_of_entryOf hline]

/-- An entry has the number of one of the lines. -/
theorem lineNumber_of_mem {first : Nat} {lines : List Text} {e : RuleEntry}
    (h : e ∈ entriesFrom first lines) :
    (first : Int) ≤ e.lineNumber ∧ e.lineNumber < first + lines.length := by
  induction lines generalizing first with
  | nil => exact absurd h List.not_mem_nil
  | cons line rest ih =>
    rw [entriesFrom_cons, List.mem_append, Option.mem_toList] at h
    rw [List.length_cons]
    rcases h with h | h
    · rw [eq_onLine_of_entryOf h, RuleEntry.lineNumber_onLine]
      omega
    · have hrest := ih h
      omega

/-- Entries stand in the order of their lines. -/
theorem pairwise_entriesFrom (first : Nat) (lines : List Text) :
    (entriesFrom first lines).Pairwise fun a b => a.lineNumber < b.lineNumber := by
  induction lines generalizing first with
  | nil => exact List.Pairwise.nil
  | cons line rest ih =>
    rw [entriesFrom_cons]
    -- A line has at most one entry, and the entries behind it are on later lines.
    refine List.pairwise_append.mpr ⟨?_, ih (first + 1), ?_⟩
    · cases entryOf line first <;> simp
    · intro a ha b hb
      rw [Option.mem_toList] at ha
      have hlater := (lineNumber_of_mem hb).1
      rw [eq_onLine_of_entryOf ha, RuleEntry.lineNumber_onLine]
      omega

/-- `found` is what lines give, one after the other; `first` is the number of the first line. -/
def Found (lines : List Text) (first : Nat) (found : List (Option RuleEntry × Option RuleWarning)) : Prop :=
  List.Forall₂ (fun item x => (readLine item.1 item.2).result = .ok x) (lines.zipIdx first) found

/-- Lines that are read give their entries. -/
theorem Found.entries {lines : List Text} {first : Nat} {found : List (Option RuleEntry × Option RuleWarning)}
    (h : Found lines first found) :
    found.filterMap Prod.fst = entriesFrom first lines ∧ ∀ e ∈ found.filterMap Prod.fst, e.rule.Compiles := by
  unfold Found at h
  unfold entriesFrom
  -- Which numbers the lines have plays no part in the induction.
  generalize lines.zipIdx first = items at h ⊢
  induction h with
  | nil => exact ⟨rfl, by simp⟩
  | @cons item x items found hline _ ih =>
    obtain ⟨hentry, hcompiles⟩ := readLine_eq_ok hline
    obtain ⟨hentries, hrest⟩ := ih
    rw [List.filterMap_cons, List.filterMap_cons, ← hentry, ← hentries]
    refine ⟨rfl, ?_⟩
    cases hx : x.1 with
    | none => exact hrest
    | some e => exact List.forall_mem_cons.mpr ⟨hcompiles e hx, hrest⟩

/-- The listing of what lines give. -/
def ofFound (found : List (Option RuleEntry × Option RuleWarning)) : Listing :=
  ⟨.ofEntries (found.filterMap (·.1)), found.filterMap (·.1), found.filterMap (·.2)⟩

/-- A text has the listing of what its lines give. -/
theorem ofText_eq_ok_iff {t : Text} {l : Listing} :
    (ofText t).result = .ok l ↔ ∃ found, Found (t.pieces CodePoint.newline) 0 found ∧ ofFound found = l := by
  unfold ofText Found
  rw [Run.bind_eq_ok]
  simp only [Run.each_eq_ok]
  refine exists_congr fun found => and_congr_right fun _ => ?_
  exact ⟨Except.ok.inj, congrArg Except.ok⟩

/-- A text that is read lists the entries of its lines, and their regular expressions have
    compiled. -/
theorem ofText_eq_ok {content : Text} {l : Listing} (h : (ofText content).result = .ok l) :
    l.ruleSet = .ofEntries l.entries ∧ l.entries = entriesFrom 0 (content.pieces CodePoint.newline) ∧
      ∀ e ∈ l.entries, e.rule.Compiles := by
  obtain ⟨found, hfound, rfl⟩ := ofText_eq_ok_iff.mp h
  exact ⟨rfl, hfound.entries⟩

/-- The listing of a text, or the empty one. -/
def IsRead (l : Listing) : Prop := l = .empty ∨ ∃ content, (ofText content).result = .ok l

/-- A listing that is read has its active entries as its rules, and the entries stand in the
    order of their lines. -/
theorem IsRead.ofEntries {l : Listing} (h : l.IsRead) :
    l.ruleSet = .ofEntries l.entries ∧ l.entries.Pairwise fun a b => a.lineNumber < b.lineNumber := by
  rcases h with rfl | ⟨content, h⟩
  · exact ⟨rfl, List.Pairwise.nil⟩
  · obtain ⟨hrules, hentries, -⟩ := ofText_eq_ok h
    exact ⟨hrules, hentries ▸ pairwise_entriesFrom 0 _⟩

/-- No two rules of a kind are the same, for they stand on different lines. -/
theorem IsRead.nodup_ofKind {l : Listing} (h : l.IsRead) (k : Kind) : (l.ruleSet.ofKind k).Nodup := by
  obtain ⟨hrules, hordered⟩ := h.ofEntries
  have hplaced : ∀ e ∈ l.entries, e.rule.sourceLine = e.lineNumber := by
    intro e he
    rcases h with rfl | ⟨content, h⟩
    · exact absurd he List.not_mem_nil
    · rw [(ofText_eq_ok h).2.1] at he
      rw [← onLine_of_mem he]
      rfl
  rw [hrules, RuleSet.ofKind_ofEntries, RuleSet.select, List.Nodup, List.pairwise_map]
  refine (hordered.filter _).imp_of_mem ?_
  intro a b ha hb hlt heq
  have hline := congrArg Rule.sourceLine heq
  rw [hplaced a (List.mem_of_mem_filter ha), hplaced b (List.mem_of_mem_filter hb)] at hline
  omega

/-- All rules have programs. -/
theorem IsRead.compiles {l : Listing} (h : l.IsRead) (k : Kind) : ∀ r ∈ l.ruleSet.ofKind k, r.Compiles := by
  intro r hr
  -- The rules are the enabled ones of the entries, and reading has compiled all entries.
  rcases h with rfl | ⟨content, h⟩
  · cases k <;> exact absurd hr List.not_mem_nil
  · obtain ⟨hset, -, hcompiles⟩ := ofText_eq_ok h
    rw [hset, RuleSet.ofKind_ofEntries] at hr
    obtain ⟨e, he, rfl⟩ := List.mem_map.mp hr
    exact hcompiles e (List.mem_of_mem_filter he)

end Listing

/-- A rules file has the listing of its text. -/
theorem RulesFile.load_eq_ok_some {t : FileTree} {path : FilePath} {l : Listing} :
    (load t path).result = .ok (some l) ↔
      ∃ content, readText t path = .ok (some content) ∧ (Listing.ofText content).result = .ok l := by
  unfold load
  rw [Run.bind_eq_ok]
  constructor
  · rintro ⟨found, hfound, h⟩
    cases found with
    | none => cases h
    | some content =>
      obtain ⟨l', hl', h⟩ := Run.bind_eq_ok.mp h
      cases h
      refine ⟨content, hfound, ?_⟩
      exact Run.mapError_eq_ok.mp hl'
  · rintro ⟨content, hfound, h⟩
    refine ⟨some content, hfound, ?_⟩
    dsimp only
    rw [Run.result_bind_of_ok (Run.mapError_eq_ok.mpr h)]
    rfl

end NoteAccess
