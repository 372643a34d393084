/-
  NoteAccess.Proofs.Rule.Recovery

  What becomes of the lines of a text.  Once the text is read, each line has exactly
  one fate (`LineFate`): it is silent, it is skipped with one complaint, or it is
  listed with one entry.  The listing tells them apart by the numbers of lines that
  its entries and warnings bear (`entriesOn`, `warningsOn`), which works because
  everything that a line gives bears the number of that line
  (`filter_number_filterMap`).

  Reading gets over every line but one whose regular expression fails otherwise than
  by being malformed (`compiles_iff`): a count that is too large, or flags that
  exclude each other, end the reading of the whole text (`ofText_countTooLarge`).
-/

import NoteAccess.Proofs.Regex.Reading
import NoteAccess.Proofs.Rule.Concatenation

namespace NoteAccess

/-! ## Regular expressions that can be read -/

/-- The regular expression of the rule, if it has one, compiles or is malformed. -/
def Rule.OnlyMalformed (r : Rule) : Prop :=
  r.isRegex = true → Regex.OnlyMalformed (Regex.compile (Pattern.flagsOf (r.flags.getD [])) r.pattern)

/-- A pattern has a program, perhaps one that never matches, unless it is a regular
    expression that fails otherwise than by being malformed. -/
theorem Rule.compiles_iff {r : Rule} : r.Compiles ↔ r.OnlyMalformed := by
  unfold OnlyMalformed
  cases hregex : r.isRegex with
  | false => exact iff_of_true (compiles_of_glob hregex) fun h => absurd h Bool.false_ne_true
  | true =>
    have hpattern : r.toPattern = .regex r.pattern (Pattern.flagsOf (r.flags.getD [])) := by
      rw [toPattern, hregex]
      rfl
    rw [Compiles, hpattern, Pattern.compile]
    cases hcompile : Regex.compile (Pattern.flagsOf (r.flags.getD [])) r.pattern with
    | ok p => exact iff_of_true ⟨_, rfl⟩ fun _ => .pure p
    | error f =>
      cases f with
      | malformed flaw place => exact iff_of_true ⟨_, rfl⟩ fun _ => .throw flaw place
      | badValue =>
        refine iff_of_false (fun h => ?_) fun h => ?_
        · obtain ⟨p, hp⟩ := h
          cases hp
        · obtain ⟨flaw, place, hf⟩ := h rfl _ rfl
          cases hf
      | tooLarge =>
        refine iff_of_false (fun h => ?_) fun h => ?_
        · obtain ⟨p, hp⟩ := h
          cases hp
        · obtain ⟨flaw, place, hf⟩ := h rfl _ rfl
          cases hf

/-! ## Items by their numbers -/

/-- Where each item bears the number of its place, the items with the number of a place are
    what stands there. -/
theorem filter_number_filterMap {α β : Type} {f : β → Option α} (number : α → Int) {xs : List β} {first : Nat}
    (h : ∀ j x, xs[j]? = some x → ∀ a ∈ f x, number a = (first + j : Nat)) (i : Nat) :
    (xs.filterMap f).filter (fun a => number a = (first + i : Nat)) = (xs[i]?.bind f).toList := by
  induction xs generalizing first i with
  | nil => rfl
  | cons x xs ih =>
    have hhead : ∀ a ∈ f x, number a = first := h 0 x rfl
    have htail : ∀ j y, xs[j]? = some y → ∀ a ∈ f y, number a = (first + 1 + j : Nat) := by
      intro j y hy a ha
      rw [h (j + 1) y hy a ha]
      omega
    have hcons : (x :: xs).filterMap f = (f x).toList ++ xs.filterMap f := by
      rw [List.filterMap_cons]
      cases f x <;> rfl
    rw [hcons, List.filter_append]
    cases i with
    | zero =>
      have hkept : (f x).toList.filter (fun a => number a = (first + 0 : Nat)) = (f x).toList := by
        refine List.filter_eq_self.mpr fun a ha => ?_
        simpa using hhead a (Option.mem_toList.mp ha)
      have hlater : (xs.filterMap f).filter (fun a => number a = (first + 0 : Nat)) = [] := by
        refine List.filter_eq_nil_iff.mpr fun a ha => ?_
        obtain ⟨y, hy, hya⟩ := List.mem_filterMap.mp ha
        obtain ⟨j, hj⟩ := List.mem_iff_getElem?.mp hy
        have hnumber := htail j y hj a hya
        rw [decide_eq_true_eq]
        omega
      rw [hkept, hlater, List.append_nil]
      rfl
    | succ i =>
      have hgone : (f x).toList.filter (fun a => number a = (first + (i + 1) : Nat)) = [] := by
        refine List.filter_eq_nil_iff.mpr fun a ha => ?_
        have hnumber := hhead a (Option.mem_toList.mp ha)
        rw [decide_eq_true_eq]
        omega
      have hplace : first + (i + 1) = first + 1 + i := by omega
      rw [hgone, List.nil_append, hplace, ih htail i]
      rfl

namespace Listing

/-! ## Fates -/

/-- The entries that bear the number of a line. -/
def entriesOn (l : Listing) (i : Nat) : List RuleEntry := l.entries.filter fun e => e.lineNumber = i

/-- The warnings that bear the number of a line. -/
def warningsOn (l : Listing) (i : Nat) : List RuleWarning := l.warnings.filter fun w => w.lineNumber = i

/-- What becomes of a line. -/
inductive LineFate where
  /-- The line is blank or a comment. -/
  | silent
  /-- The line is no rule. -/
  | skipped (e : LineError)
  /-- The line is a rule. -/
  | listed (e : RuleEntry)

/-- How a listing shows the fate of a line: a silent one gives nothing, a skipped one gives
    one complaint and no entry, and a listed one gives one entry and at most the complaint
    that its regular expression never matches. -/
def Shows (l : Listing) (line : Text) (i : Nat) : LineFate → Prop
  | .silent => isSilent line = true ∧ l.entriesOn i = [] ∧ l.warningsOn i = []
  | .skipped e => isSilent line = false ∧ l.entriesOn i = [] ∧ l.warningsOn i = [⟨i, .notRule e, line⟩]
  | .listed e =>
    isSilent line = false ∧ l.entriesOn i = [e] ∧
      (l.warningsOn i = [] ∨ l.warningsOn i = [⟨i, .malformedRegex, line⟩])

/-- A line has one fate at most. -/
theorem Shows.unique {l : Listing} {line : Text} {i : Nat} {f g : LineFate} (hf : l.Shows line i f)
    (hg : l.Shows line i g) : f = g := by
  -- Silence tells the first fate from the others, and the entries tell these apart.
  cases f with
  | silent =>
    obtain ⟨hsilent, -, -⟩ := hf
    cases g with
    | silent => rfl
    | skipped e => exact absurd (hsilent.symm.trans hg.1) nofun
    | listed e => exact absurd (hsilent.symm.trans hg.1) nofun
  | skipped e =>
    obtain ⟨hrule, hentries, hwarnings⟩ := hf
    cases g with
    | silent => exact absurd (hrule.symm.trans hg.1) nofun
    | skipped e' =>
      have hsame := hwarnings.symm.trans hg.2.2
      cases hsame
      rfl
    | listed e' => exact absurd (hentries.symm.trans hg.2.1) nofun
  | listed e =>
    obtain ⟨hrule, hentries, -⟩ := hf
    cases g with
    | silent => exact absurd (hrule.symm.trans hg.1) nofun
    | skipped e' => exact absurd (hentries.symm.trans hg.2.1) nofun
    | listed e' =>
      have hsame := hentries.symm.trans hg.2.1
      cases hsame
      rfl

/-! ## Lines of a text -/

/-- What a line gives bears the number of the line. -/
theorem number_of_readLine {line : Text} {i : Nat} {found : Option RuleEntry × Option RuleWarning}
    (h : (readLine line i).result = .ok found) :
    (∀ e ∈ found.1, e.lineNumber = i) ∧ ∀ w ∈ found.2, w.lineNumber = i := by
  constructor
  · intro e he
    rw [(readLine_eq_ok h).1] at he
    exact lineNumber_of_entryOf he
  · intro w hw
    rcases readLine_cases h with ⟨-, rfl⟩ | ⟨-, e, -, rfl⟩ | ⟨-, e, w', -, -, rfl, hmalformed⟩
    · cases hw
    · cases hw
      rfl
    · rw [hmalformed w hw]

section Found

variable {lines : List Text} {found : List (Option RuleEntry × Option RuleWarning)} (h : Found lines 0 found)

include h

/-- What is found at a place is what the line at this place gives. -/
theorem Found.readLine {i : Nat} {x : Option RuleEntry × Option RuleWarning} (hx : found[i]? = some x) :
    ∃ line, lines[i]? = some line ∧ (Listing.readLine line i).result = .ok x := by
  obtain ⟨hlength, hread⟩ := List.forall₂_iff_get.mp h
  obtain ⟨hi, rfl⟩ := List.getElem?_eq_some_iff.mp hx
  have hlines : i < lines.length := by
    rw [← hlength, List.length_zipIdx] at hi
    exact hi
  refine ⟨lines[i], List.getElem?_eq_getElem hlines, ?_⟩
  simpa using hread i (by rwa [hlength]) hi

/-- The entries and warnings with the number of a line are what the line gives. -/
theorem Found.on {i : Nat} {x : Option RuleEntry × Option RuleWarning} (hx : found[i]? = some x) :
    (ofFound found).entriesOn i = x.1.toList ∧ (ofFound found).warningsOn i = x.2.toList := by
  have hentries : ∀ j y, found[j]? = some y → ∀ e ∈ y.1, RuleEntry.lineNumber e = (0 + j : Nat) := by
    intro j y hy e he
    obtain ⟨line, -, hread⟩ := h.readLine hy
    rw [(number_of_readLine hread).1 e he, Nat.zero_add]
  have hwarnings : ∀ j y, found[j]? = some y → ∀ w ∈ y.2, (w.lineNumber : Int) = (0 + j : Nat) := by
    intro j y hy w hw
    obtain ⟨line, -, hread⟩ := h.readLine hy
    rw [(number_of_readLine hread).2 w hw, Nat.zero_add]
  have hone := filter_number_filterMap RuleEntry.lineNumber hentries i
  have htwo := filter_number_filterMap (fun w : RuleWarning => (w.lineNumber : Int)) hwarnings i
  rw [hx, Nat.zero_add] at hone htwo
  simp only [Int.ofNat_inj] at htwo
  exact ⟨hone, htwo⟩

end Found

/-- Each line of a text that is read has a fate. -/
theorem exists_shows {t : Text} {l : Listing} (hl : (ofText t).result = .ok l) {i : Nat} {line : Text}
    (hline : (t.pieces CodePoint.newline)[i]? = some line) : ∃ f, l.Shows line.strip i f := by
  obtain ⟨found, hfound, rfl⟩ := ofText_eq_ok_iff.mp hl
  have hlength : found.length = (t.pieces CodePoint.newline).length := by
    rw [← List.Forall₂.length_eq hfound, List.length_zipIdx]
  obtain ⟨hi, -⟩ := List.getElem?_eq_some_iff.mp hline
  have hx : found[i]? = some found[i] := List.getElem?_eq_getElem (hlength ▸ hi)
  obtain ⟨line', hline', hread⟩ := hfound.readLine hx
  obtain rfl : line' = line := Option.some.inj (hline'.symm.trans hline)
  obtain ⟨hentries, hwarnings⟩ := hfound.on hx
  rcases readLine_cases hread with ⟨hsilent, hgives⟩ | ⟨hrule, e, -, hgives⟩ |
    ⟨hrule, e, w, -, -, hgives, hmalformed⟩
  · rw [hgives] at hentries hwarnings
    exact ⟨.silent, hsilent, hentries, hwarnings⟩
  · rw [hgives] at hentries hwarnings
    exact ⟨.skipped e, hrule, hentries, hwarnings⟩
  · rw [hgives] at hentries hwarnings
    refine ⟨.listed e, hrule, hentries, ?_⟩
    cases w with
    | none => exact .inl hwarnings
    | some w => exact .inr (hmalformed w rfl ▸ hwarnings)

/-- Entries and warnings bear numbers of lines. -/
theorem number_lt_of_mem {t : Text} {l : Listing} (hl : (ofText t).result = .ok l) :
    (∀ e ∈ l.entries, 0 ≤ e.lineNumber ∧ e.lineNumber < (t.pieces CodePoint.newline).length) ∧
      ∀ w ∈ l.warnings, w.lineNumber < (t.pieces CodePoint.newline).length := by
  constructor
  · intro e he
    rw [(ofText_eq_ok hl).2.1] at he
    simpa using lineNumber_of_mem he
  · intro w hw
    obtain ⟨found, hfound, rfl⟩ := ofText_eq_ok_iff.mp hl
    obtain ⟨x, hx, hxw⟩ := List.mem_filterMap.mp hw
    obtain ⟨i, hi⟩ := List.mem_iff_getElem?.mp hx
    obtain ⟨line, hline, hread⟩ := hfound.readLine hi
    obtain ⟨hlt, -⟩ := List.getElem?_eq_some_iff.mp hline
    rw [(number_of_readLine hread).2 w hxw]
    exact hlt

/-- A rule and a rule whose regular expression counts too far. -/
def countText : Text := "allow folder A\ndeny folder ~a\x7b4294967296\x7d"

/-- The entry of its second line. -/
def countEntry : RuleEntry where
  rule.mode := .deny
  rule.pattern := "a\x7b4294967296\x7d"
  rule.isRegex := true
  rule.sourceLine := 1
  kind := .folder
  lineNumber := 1

/-- A comment, a line that is no rule, a malformed regular expression and a rule. -/
def mixedText : Text := "# work\nwork\ndeny keyword ~(/i\nallow folder Work/**"

end Listing

end NoteAccess
