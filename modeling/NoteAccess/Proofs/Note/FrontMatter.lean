/-
  NoteAccess.Proofs.Note.FrontMatter

  Where the front matter of a note ends.  A text is a sequence of lines, each with
  what ends it (`linesOf`, `textOf_linesOf`), and a fence is a line of three hyphens
  and blanks.  Looking for the end of a line before a fence is looking for the fence
  among the lines (`cutClosing?_eq`).

  Since a line must end before the closing fence, the line after the opening fence
  is never it: the front matter ends with the first fence after that line, and
  everything behind this fence is the body (`split_eq`).  An empty block thus does
  not end where its second fence is (`split_emptyBlock`).
-/

import Mathlib.Data.List.TakeWhile
import NoteAccess.Note
import NoteAccess.Yaml.Document
import NoteAccess.Proofs.Text

namespace NoteAccess.FrontMatter

/-! ## Lines -/

/-- A line with what ends it: a line feed, a carriage return and a line feed, or nothing if it
    is the last one. -/
structure Line where
  content : Text
  ending : Text
  deriving DecidableEq

namespace Line

/-- The line with its end. -/
def whole (l : Line) : Text := l.content ++ l.ending

/-- Whether the line encloses front matter: it is made of three hyphens and blanks. -/
def isFence (l : Line) : Bool := (Text.dropLead? fence l.content).any (·.all isSpacing)

end Line

/-- A code point put in front of the first line. -/
def putFront (c : CodePoint) : List Line → List Line
  | [] => [⟨[c], []⟩]
  | l :: ls => ⟨c :: l.content, l.ending⟩ :: ls

/-- The lines of a text; never none. -/
def linesOf : Text → List Line
  | [] => [⟨[], []⟩]
  | CodePoint.newline :: rest => ⟨[], [CodePoint.newline]⟩ :: linesOf rest
  | CodePoint.carriageReturn :: CodePoint.newline :: rest =>
    ⟨[], [CodePoint.carriageReturn, CodePoint.newline]⟩ :: linesOf rest
  | c :: rest => putFront c (linesOf rest)

/-- The text of lines. -/
def textOf (ls : List Line) : Text := ls.flatMap Line.whole

/-- The text of lines without the end of the last one. -/
def blockOf : List Line → Text
  | [] => []
  | [l] => l.content
  | l :: next :: ls => l.whole ++ blockOf (next :: ls)

theorem linesOf_ne_nil (t : Text) : linesOf t ≠ [] := by
  unfold linesOf
  split
  · exact List.cons_ne_nil _ _
  · exact List.cons_ne_nil _ _
  · exact List.cons_ne_nil _ _
  · unfold putFront
    split <;> exact List.cons_ne_nil _ _

theorem exists_linesOf (t : Text) : ∃ l ls, linesOf t = l :: ls :=
  List.exists_cons_of_ne_nil (linesOf_ne_nil t)

/-- Where a line ends, an empty one ends. -/
theorem linesOf_of_lineEnd {t rest : Text} (h : afterLineEnd? t = some rest) :
    ∃ ending, t = ending ++ rest ∧ linesOf t = ⟨[], ending⟩ :: linesOf rest := by
  unfold afterLineEnd? at h
  split at h
  · cases h
    exact ⟨[CodePoint.newline], rfl, rfl⟩
  · cases h
    exact ⟨[CodePoint.carriageReturn, CodePoint.newline], rfl, rfl⟩
  · cases h

theorem lineEnd_cases {c : CodePoint} {t rest : Text} (h : afterLineEnd? (c :: t) = some rest) :
    (c = CodePoint.newline ∧ t = rest) ∨ (c = CodePoint.carriageReturn ∧ t = CodePoint.newline :: rest) := by
  unfold afterLineEnd? at h
  split at h
  · next he =>
    cases he
    cases h
    exact .inl ⟨rfl, rfl⟩
  · next he =>
    cases he
    cases h
    exact .inr ⟨rfl, rfl⟩
  · cases h

/-- Elsewhere a code point belongs to the first line. -/
theorem linesOf_cons {c : CodePoint} {rest : Text} (h : afterLineEnd? (c :: rest) = none) :
    linesOf (c :: rest) = putFront c (linesOf rest) := by
  rw [linesOf.eq_def]
  split
  · next he => cases he
  · next he =>
    cases he
    cases h
  · next he =>
    cases he
    cases h
  · next he =>
    cases he
    rfl

/-- The lines of a text are the text. -/
theorem textOf_linesOf (t : Text) : textOf (linesOf t) = t := by
  induction t using linesOf.induct with
  | case1 => rfl
  | case2 rest ih => exact congrArg (CodePoint.newline :: ·) ih
  | case3 rest ih => exact congrArg (CodePoint.carriageReturn :: CodePoint.newline :: ·) ih
  | case4 c rest hnewline hreturn ih =>
    obtain ⟨l, ls, hl⟩ := exists_linesOf rest
    rw [linesOf.eq_4 c rest hnewline hreturn, hl]
    rw [hl] at ih
    exact congrArg (c :: ·) ih

/-- No line goes on behind a line feed. -/
theorem newline_not_mem_content (t : Text) : ∀ l ∈ linesOf t, CodePoint.newline ∉ l.content := by
  induction t using linesOf.induct with
  | case1 => exact List.forall_mem_singleton.mpr List.not_mem_nil
  | case2 rest ih => exact List.forall_mem_cons.mpr ⟨List.not_mem_nil, ih⟩
  | case3 rest ih => exact List.forall_mem_cons.mpr ⟨List.not_mem_nil, ih⟩
  | case4 c rest hnewline hreturn ih =>
    obtain ⟨l, ls, hl⟩ := exists_linesOf rest
    rw [linesOf.eq_4 c rest hnewline hreturn, hl]
    rw [hl] at ih
    obtain ⟨hfirst, hrest⟩ := List.forall_mem_cons.mp ih
    refine List.forall_mem_cons.mpr ⟨?_, hrest⟩
    exact List.not_mem_cons_of_ne_of_not_mem (fun hc => hnewline hc.symm) hfirst

/-- A text is its first line and what follows its end, or its only line. -/
theorem linesOf_cases {t : Text} {l : Line} {ls : List Line} (h : linesOf t = l :: ls) :
    (t = l.content ∧ l.ending = [] ∧ ls = []) ∨
      ∃ rest, t = l.content ++ (l.ending ++ rest) ∧ afterLineEnd? (l.ending ++ rest) = some rest ∧
        ls = linesOf rest := by
  induction t generalizing l ls with
  | nil =>
    cases h
    exact .inl ⟨rfl, rfl, rfl⟩
  | cons c t ih =>
    cases hend : afterLineEnd? (c :: t) with
    | some rest =>
      obtain ⟨ending, ht, hlines⟩ := linesOf_of_lineEnd hend
      cases hlines.symm.trans h
      rw [ht] at hend
      exact .inr ⟨rest, ht, hend, rfl⟩
    | none =>
      obtain ⟨l', ls', hl⟩ := exists_linesOf t
      rw [linesOf_cons hend, hl] at h
      cases h
      rcases ih hl with ⟨ht, hending, hls⟩ | ⟨rest, ht, hend', hls⟩
      · exact .inl ⟨congrArg (c :: ·) ht, hending, hls⟩
      · exact .inr ⟨rest, congrArg (c :: ·) ht, hend', hls⟩

/-- Code points that end no line belong to the first one. -/
theorem linesOf_append {a t : Text} {l : Line} {ls : List Line}
    (ha : ∀ c ∈ a, c ≠ CodePoint.newline ∧ c ≠ CodePoint.carriageReturn) (h : linesOf t = l :: ls) :
    linesOf (a ++ t) = ⟨a ++ l.content, l.ending⟩ :: ls := by
  induction a with
  | nil => exact h
  | cons c a ih =>
    obtain ⟨⟨hnewline, hreturn⟩, ha⟩ := List.forall_mem_cons.mp ha
    have hend : afterLineEnd? (c :: (a ++ t)) = none := by
      unfold afterLineEnd?
      split
      · next he => exact absurd (List.cons.inj he).1 hnewline
      · next he => exact absurd (List.cons.inj he).1 hreturn
      · rfl
    rw [List.cons_append, linesOf_cons hend, ih ha]
    rfl

/-! ## Fences -/

theorem isFence_iff {l : Line} :
    l.isFence = true ↔ ∃ blanks : Text, (∀ c ∈ blanks, isSpacing c = true) ∧ l.content = fence ++ blanks := by
  unfold Line.isFence
  rw [Option.any_eq_true]
  constructor
  · rintro ⟨blanks, hdrop, hblanks⟩
    exact ⟨blanks, List.all_eq_true.mp hblanks, Text.eq_append_of_dropLead? hdrop⟩
  · rintro ⟨blanks, hblanks, hcontent⟩
    rw [hcontent]
    exact ⟨blanks, Text.dropLead?_append _ _, List.all_eq_true.mpr hblanks⟩

/-- No end of a line begins with a space or a tab. -/
theorem dropWhile_isSpacing_of_lineEnd {t rest : Text} (h : afterLineEnd? t = some rest) :
    t.dropWhile isSpacing = t := by
  unfold afterLineEnd? at h
  split at h
  · rfl
  · rfl
  · cases h

/-- Three hyphens and blanks, up to the end of a line or of the text, are a fence. -/
theorem fence_at {t : Text} {l : Line} {ls : List Line} (h : linesOf t = l :: ls) :
    if l.isFence then
      ∃ rest, Text.dropLead? fence t = some rest ∧
        ((rest.dropWhile isSpacing = [] ∧ ls = []) ∨
          ∃ body, afterLineEnd? (rest.dropWhile isSpacing) = some body ∧ ls = linesOf body)
    else
      ∀ rest, Text.dropLead? fence t = some rest →
        rest.dropWhile isSpacing ≠ [] ∧ afterLineEnd? (rest.dropWhile isSpacing) = none := by
  split
  · next hfence =>
    obtain ⟨blanks, hblanks, hcontent⟩ := isFence_iff.mp hfence
    rcases linesOf_cases h with ⟨ht, -, hls⟩ | ⟨body, ht, hend, hls⟩
    · refine ⟨blanks, by rw [ht, hcontent, Text.dropLead?_append], .inl ⟨?_, hls⟩⟩
      rw [← List.append_nil blanks, List.dropWhile_append_of_pos hblanks]
      rfl
    · refine ⟨blanks ++ (l.ending ++ body), ?_, .inr ⟨body, ?_, hls⟩⟩
      · rw [ht, hcontent, List.append_assoc, Text.dropLead?_append]
      · rw [List.dropWhile_append_of_pos hblanks, dropWhile_isSpacing_of_lineEnd hend, hend]
  · next hfence =>
    intro rest hrest
    -- Otherwise the first line would be the hyphens and the blanks.
    have hplain : ∀ c ∈ fence ++ rest.takeWhile isSpacing,
        c ≠ CodePoint.newline ∧ c ≠ CodePoint.carriageReturn := by
      rw [List.forall_mem_append]
      refine ⟨by decide, fun c hc => ?_⟩
      have hspacing : isSpacing c = true := List.mem_takeWhile_imp hc
      constructor
      · rintro rfl
        cases hspacing
      · rintro rfl
        cases hspacing
    have ht : t = (fence ++ rest.takeWhile isSpacing) ++ rest.dropWhile isSpacing := by
      rw [List.append_assoc, List.takeWhile_append_dropWhile]
      exact Text.eq_append_of_dropLead? hrest
    have hnone : ∀ ending ls', linesOf (rest.dropWhile isSpacing) ≠ ⟨[], ending⟩ :: ls' := by
      intro ending ls' hlines
      rw [ht, linesOf_append hplain hlines] at h
      cases h
      refine hfence (isFence_iff.mpr ⟨rest.takeWhile isSpacing, fun c hc => List.mem_takeWhile_imp hc, ?_⟩)
      exact List.append_nil _
    constructor
    · intro hnil
      rw [hnil] at hnone
      exact hnone [] [] rfl
    · cases hend : afterLineEnd? (rest.dropWhile isSpacing) with
      | none => rfl
      | some body =>
        obtain ⟨ending, -, hlines⟩ := linesOf_of_lineEnd hend
        exact absurd hlines (hnone ending _)

/-! ## The closing fence -/

/-- The lines before the first fence and the lines after it. -/
def cutAtFence? : List Line → Option (List Line × List Line)
  | [] => none
  | l :: ls => if l.isFence then some ([], ls) else (cutAtFence? ls).map fun (before, after) => (l :: before, after)

theorem cutAtFence?_append {before after : List Line} {close : Line} (hbefore : ∀ l ∈ before, l.isFence = false)
    (hclose : close.isFence = true) : cutAtFence? (before ++ close :: after) = some (before, after) := by
  induction before with
  | nil => rw [List.nil_append, cutAtFence?, if_pos hclose]
  | cons l before ih =>
    obtain ⟨hl, hbefore⟩ := List.forall_mem_cons.mp hbefore
    rw [List.cons_append, cutAtFence?, hl, ih hbefore]
    rfl

theorem cutAtFence?_eq_none {ls : List Line} (h : ∀ l ∈ ls, l.isFence = false) : cutAtFence? ls = none := by
  induction ls with
  | nil => rfl
  | cons l ls ih =>
    obtain ⟨hl, hls⟩ := List.forall_mem_cons.mp h
    rw [cutAtFence?, hl, ih hls]
    rfl

/-- Where a line ends, the closing fence follows if the next line is one. -/
theorem afterClosing?_of_lineEnd {t rest : Text} {l : Line} {ls : List Line} (hend : afterLineEnd? t = some rest)
    (h : linesOf rest = l :: ls) : afterClosing? t = if l.isFence then some (textOf ls) else none := by
  have hfence := fence_at h
  unfold afterClosing?
  rw [hend]
  dsimp only [Option.bind_eq_bind, Option.bind_some]
  split at hfence
  · next hl =>
    obtain ⟨after, hdrop, ⟨hnil, rfl⟩ | ⟨body, hbody, rfl⟩⟩ := hfence
    · rw [hdrop, Option.bind_some, hnil, if_pos hl]
      rfl
    · rw [hdrop, Option.bind_some, if_pos hl, textOf_linesOf]
      split
      · next hnil =>
        rw [hnil] at hbody
        cases hbody
      · exact hbody
  · next hl =>
    rw [if_neg hl]
    cases hdrop : Text.dropLead? fence rest with
    | none => rfl
    | some after =>
      obtain ⟨hne, hnone⟩ := hfence after hdrop
      rw [Option.bind_some]
      split
      · next hnil => exact absurd hnil hne
      · exact hnone

theorem blockOf_putFront (c : CodePoint) (l : Line) (ls : List Line) :
    blockOf (⟨c :: l.content, l.ending⟩ :: ls) = c :: blockOf (l :: ls) := by
  cases ls <;> rfl

/-- The closing fence is the first one behind the first line; the text before it has no end of
    a line at its end. -/
theorem cutClosing?_eq {t : Text} {first : Line} {ls : List Line} (h : linesOf t = first :: ls) (seen : Text) :
    cutClosing? seen t =
      (cutAtFence? ls).map fun (before, after) => (seen.reverse ++ blockOf (first :: before), textOf after) := by
  -- By induction on the text: a code point of the first line moves into what has been seen, and
  -- where the line ends, the next line either is the fence or becomes the first one.
  induction t generalizing seen first ls with
  | nil =>
    cases h
    rfl
  | cons c t ih =>
    rw [cutClosing?]
    cases hend : afterLineEnd? (c :: t) with
    | none =>
      have hopen : afterClosing? (c :: t) = none := by
        unfold afterClosing?
        rw [hend]
        rfl
      obtain ⟨l, ls', hl⟩ := exists_linesOf t
      rw [linesOf_cons hend, hl] at h
      cases h
      rw [hopen]
      dsimp only
      rw [ih hl]
      simp only [blockOf_putFront, List.reverse_cons, List.append_assoc, List.singleton_append]
    | some rest =>
      obtain ⟨l, ls', hl⟩ := exists_linesOf rest
      rw [afterClosing?_of_lineEnd hend hl]
      rcases lineEnd_cases hend with ⟨rfl, rfl⟩ | ⟨rfl, rfl⟩
      · have hlines : linesOf (CodePoint.newline :: t) = ⟨[], [CodePoint.newline]⟩ :: l :: ls' := by
          rw [linesOf, hl]
        cases h.symm.trans hlines
        cases hfence : l.isFence with
        | true => simp [cutAtFence?, hfence, blockOf]
        | false =>
          rw [if_neg Bool.false_ne_true]
          dsimp only
          rw [ih hl]
          simp [cutAtFence?, hfence, blockOf, Function.comp_def, Line.whole]
      · -- The line feed after the carriage return is an end of a line by itself.
        have hrest : linesOf (CodePoint.newline :: rest) = ⟨[], [CodePoint.newline]⟩ :: l :: ls' := by
          rw [linesOf, hl]
        have hlines : linesOf (CodePoint.carriageReturn :: CodePoint.newline :: rest) =
            ⟨[], [CodePoint.carriageReturn, CodePoint.newline]⟩ :: l :: ls' := by
          rw [linesOf, hl]
        cases h.symm.trans hlines
        cases hfence : l.isFence with
        | true => simp [cutAtFence?, hfence, blockOf]
        | false =>
          rw [if_neg Bool.false_ne_true]
          dsimp only
          rw [ih hrest]
          simp [cutAtFence?, hfence, blockOf, Function.comp_def, Line.whole]

/-! ## The note -/

/-- The front matter begins after an opening fence that is not the whole note. -/
theorem afterOpening?_eq {note : Text} {opening : Line} {ls : List Line} (h : linesOf note = opening :: ls) :
    (opening.isFence = true ∧ ∃ rest, afterOpening? note = some rest ∧ ls = linesOf rest) ∨
      (afterOpening? note = none ∧ (opening.isFence = false ∨ ls = [])) := by
  have hfence := fence_at h
  unfold afterOpening?
  split at hfence
  · next hl =>
    obtain ⟨rest, hdrop, ⟨hnil, hls⟩ | ⟨body, hbody, hls⟩⟩ := hfence
    · refine .inr ⟨?_, .inr hls⟩
      rw [hdrop]
      dsimp only [Option.bind_eq_bind, Option.bind_some]
      rw [hnil]
      rfl
    · refine .inl ⟨hl, body, ?_, hls⟩
      rw [hdrop]
      exact hbody
  · next hl =>
    refine .inr ⟨?_, .inl (by simpa using hl)⟩
    cases hdrop : Text.dropLead? fence note with
    | none => rfl
    | some rest => exact (hfence rest hdrop).2

section Loader

variable [Yaml.Loader]

/-- The entries of the front matter; what is no mapping has none. -/
def entriesOf (v : Yaml.Loader.Datum) : Entries :=
  match Layered.layer v with
  | .dict entries => entries
  | _ => []

theorem split_of_cut? {note block body : Text} (h : cut? note = some (block, body)) :
    split note = (Yaml.Loader.note block).map fun v => (entriesOf v, body) := by
  unfold split
  rw [h]
  dsimp only
  cases Yaml.Loader.note block with
  | error e => rfl
  | ok v =>
    dsimp only [bind, Except.bind, Except.map, entriesOf]
    cases Layered.layer v <;> rfl

theorem tags_of_split [Stack] {note : Text} {x : Except Yaml.Failure Yaml.Loader.Datum} {body : Text}
    (h : split note = x.map fun v => (entriesOf v, body)) :
    Note.tags note = x.bind fun v => (Note.declared (entriesOf v)).map (· ++ InlineTags.ofBody body) := by
  unfold Note.tags
  rw [h]
  cases x with
  | error e => rfl
  | ok v => cases hdeclared : Note.declared (entriesOf v) <;> simp [Except.map, Except.bind, bind, hdeclared, pure, Except.pure]

/-- A note that begins with a fence and has another one behind its second line: the front matter
    ends with the first such fence, and everything behind this fence is the body and is searched
    for tags.  Any other note has no front matter. -/
theorem split_eq [Stack] (note : Text) :
    (textOf (linesOf note) = note ∧ ∀ l ∈ linesOf note, CodePoint.newline ∉ l.content) ∧
    (∀ opening first before close after, linesOf note = opening :: first :: (before ++ close :: after) →
      opening.isFence = true → (∀ l ∈ before, l.isFence = false) → close.isFence = true →
      split note = ((Yaml.Loader.note (blockOf (first :: before))).map fun v => (entriesOf v, textOf after)) ∧
      Note.tags note = (Yaml.Loader.note (blockOf (first :: before))).bind fun v =>
        (Note.declared (entriesOf v)).map (· ++ InlineTags.ofBody (textOf after))) ∧
    ((∀ opening first rest, linesOf note = opening :: first :: rest → opening.isFence = true →
        ∀ l ∈ rest, l.isFence = false) →
      split note = .ok ([], note)) := by
  refine ⟨⟨textOf_linesOf note, newline_not_mem_content note⟩, ?_, ?_⟩
  · intro opening first before close after hlines hopening hbefore hclose
    have hcut : cut? note = some (blockOf (first :: before), textOf after) := by
      rcases afterOpening?_eq hlines with ⟨-, rest, hrest, hls⟩ | ⟨-, hfence | hnil⟩
      · rw [cut?, hrest, Option.bind_some, cutClosing?_eq hls.symm, cutAtFence?_append hbefore hclose]
        rfl
      · cases hopening.symm.trans hfence
      · cases hnil
    have hsplit := split_of_cut? hcut
    exact ⟨hsplit, tags_of_split hsplit⟩
  · intro h
    have hcut : cut? note = none := by
      obtain ⟨opening, ls, hlines⟩ := exists_linesOf note
      rw [cut?]
      rcases afterOpening?_eq hlines with ⟨hfence, rest, hrest, hls⟩ | ⟨hnone, -⟩
      · obtain ⟨first, ls', hfirst⟩ := exists_linesOf rest
        rw [hfirst] at hls
        rw [hls] at hlines
        rw [hrest, Option.bind_some, cutClosing?_eq hfirst, cutAtFence?_eq_none (h _ _ _ hlines hfence)]
        rfl
      · rw [hnone]
        rfl
    rw [split, hcut]

end Loader

attribute [local instance] Stack.usual Yaml.Loader.own

/-- Front matter with ends of lines of both kinds, and a body with one more fence in it. -/
def planNote : Text := "---\r\ntags: [a]\r\n--- \nbody #b\n---\n#c"

/-- The first fence behind the tags ends the front matter; the other one belongs to the body. -/
theorem split_eq_plan :
    split planNote = (Yaml.load "tags: [a]").map (fun v => (entriesOf v, ("body #b\n---\n#c" : Text))) ∧
      Note.tags planNote = (Yaml.load "tags: [a]").bind fun v =>
        (Note.declared (entriesOf v)).map (· ++ [("b" : Text), ("c" : Text)]) := by
  obtain ⟨-, hfence, -⟩ := split_eq planNote
  obtain ⟨hsplit, htags⟩ := hfence ⟨"---", "\r\n"⟩ ⟨"tags: [a]", "\r\n"⟩ [] ⟨"--- ", "\n"⟩
    [⟨"body #b", "\n"⟩, ⟨"---", "\n"⟩, ⟨"#c", []⟩] rfl rfl nofun rfl
  have hbody : InlineTags.ofBody (textOf [⟨"body #b", "\n"⟩, ⟨"---", "\n"⟩, ⟨"#c", []⟩]) =
      [("b" : Text), ("c" : Text)] := by decide +kernel
  rw [hbody] at htags
  exact ⟨hsplit, htags⟩

/-- A fence directly behind the opening one, and one more after a tag. -/
def emptyBlockNote : Text := "---\n---\n#ai-deny\n---\nrest"

/-- The first fence behind the opening one does not end the front matter, though the text between
    them can be loaded: the tag behind it is taken for a part of the front matter and is lost. -/
theorem split_emptyBlock :
    ∃ opening close after, linesOf emptyBlockNote = opening :: close :: after ∧ opening.isFence = true ∧
      close.isFence = true ∧ Yaml.Loader.note [] = .ok .null ∧ InlineTags.ofBody (textOf after) = [("ai-deny" : Text)] ∧
      split emptyBlockNote = .ok ([], ("rest" : Text)) ∧ Note.tags emptyBlockNote = .ok [] := by
  have hcut : cut? emptyBlockNote = some (("---\n#ai-deny" : Text), ("rest" : Text)) := rfl
  have htokens : Yaml.Token.ofText "---\n#ai-deny" = .ok [.documentStart] := by decide +kernel
  have hroot : Yaml.Node.ofText "---\n#ai-deny" = .ok (some .empty) := by
    rw [Yaml.Node.ofText, htokens]
    rfl
  have hload : Yaml.Loader.note ("---\n#ai-deny" : Text) = .ok .null := by
    show Yaml.load ("---\n#ai-deny" : Text) = .ok .null
    rw [Yaml.load, hroot]
    rfl
  have hrest : InlineTags.ofBody ("rest" : Text) = [] := by decide +kernel
  have hsplit : split emptyBlockNote = .ok ([], ("rest" : Text)) := by
    rw [split_of_cut? hcut, hload]
    rfl
  have htags : Note.tags emptyBlockNote = .ok [] := by
    rw [tags_of_split (split_of_cut? hcut), hload, hrest]
    rfl
  have hbody : InlineTags.ofBody (textOf [⟨"#ai-deny", "\n"⟩, ⟨"---", "\n"⟩, ⟨"rest", []⟩]) =
      [("ai-deny" : Text)] := by decide +kernel
  exact ⟨⟨"---", "\n"⟩, ⟨"---", "\n"⟩, _, rfl, rfl, rfl, rfl, hbody, hsplit, htags⟩

end NoteAccess.FrontMatter
