/-
  NoteAccess.Proofs.Note.Code

  Where the tags of a body are written.  Leaving out blocks of code takes whole lines away,
  so what is left of a line stands in the body as it is (`keepsLines_dropBlocks`).  Leaving
  out code inside lines may join what is on either side of it (`withoutSpans_dropSpans`).
  So a tag is written in the body with, at most, code inside lines between its signs, and
  as it is unless such code joins two of them (`ofBody_written`).
-/

import Mathlib.Data.List.TakeWhile
import NoteAccess.Note.InlineTags
import NoteAccess.Proofs.Note.InlineTags

namespace NoteAccess.InlineTags

open CodePoint (hash backtick newline)

variable {body t rest kept span tag w : Text} {c : CodePoint}

/-! ## Code inside lines -/

/-- Code inside a line: a text between backticks, without a backtick and without the end of a line. -/
def IsSpan (span : Text) : Prop :=
  ∃ inner, span = backtick :: (inner ++ [backtick]) ∧ backtick ∉ inner ∧ newline ∉ inner

/-- The second text is what is left of the first one without some of the code inside its lines. -/
inductive WithoutSpans : Text → Text → Prop
  | nil : WithoutSpans [] []
  | keep (c : CodePoint) {t kept : Text} (h : WithoutSpans t kept) : WithoutSpans (c :: t) (c :: kept)
  | drop {span t kept : Text} (hspan : IsSpan span) (h : WithoutSpans t kept) : WithoutSpans (span ++ t) kept

theorem WithoutSpans.refl (t : Text) : WithoutSpans t t := by
  induction t with
  | nil => exact .nil
  | cons c t ih => exact .keep c ih

/-- Code begins behind a backtick exactly if another one follows in the line. -/
theorem eq_span_of_afterSpan? {after : Text} (h : afterSpan? t = some after) :
    ∃ span, IsSpan span ∧ backtick :: t = span ++ after := by
  unfold afterSpan? at h
  split at h
  · next hafter =>
    cases h
    have hsplit := List.takeWhile_append_dropWhile (p := fun c => c != backtick && c != newline) (l := t)
    rw [hafter] at hsplit
    have hinner : ∀ c ∈ t.takeWhile fun c => c != backtick && c != newline, c ≠ backtick ∧ c ≠ newline := by
      intro c hc
      simpa using List.mem_takeWhile_imp hc
    refine ⟨backtick :: (t.takeWhile (fun c => c != backtick && c != newline) ++ [backtick]),
      ⟨_, rfl, fun hc => (hinner _ hc).1 rfl, fun hc => (hinner _ hc).2 rfl⟩, ?_⟩
    rw [List.cons_append, List.append_assoc, List.singleton_append, hsplit]
  · cases h

/-- What is kept beside code in lines. -/
theorem withoutSpans_dropSpans (fuel : Nat) (t : Text) :
    ∃ kept, WithoutSpans t kept ∧ ∀ seen, dropSpans seen fuel t = seen.reverse ++ kept := by
  induction fuel generalizing t with
  | zero => exact ⟨t, .refl t, fun seen => rfl⟩
  | succ fuel ih =>
    cases t with
    | nil => exact ⟨[], .nil, fun seen => (List.append_nil _).symm⟩
    | cons c t =>
      cases hafter : (if c = backtick then afterSpan? t else none) with
      | some after =>
        obtain ⟨kept, hkept, hdrop⟩ := ih after
        split at hafter
        · next hc =>
          subst hc
          obtain ⟨span, hspan, hsplit⟩ := eq_span_of_afterSpan? hafter
          refine ⟨kept, hsplit ▸ .drop hspan hkept, fun seen => ?_⟩
          rw [dropSpans, if_pos rfl, hafter]
          exact hdrop seen
        · cases hafter
      | none =>
        obtain ⟨kept, hkept, hdrop⟩ := ih t
        refine ⟨c :: kept, .keep c hkept, fun seen => ?_⟩
        rw [dropSpans, hafter]
        dsimp only
        rw [hdrop, List.reverse_cons, List.append_assoc, List.singleton_append]

/-- A part of what is kept comes from a part of the text. -/
theorem WithoutSpans.append {a b : Text} (h : WithoutSpans t (a ++ b)) :
    ∃ s u, t = s ++ u ∧ WithoutSpans s a ∧ WithoutSpans u b := by
  generalize hab : a ++ b = kept at h
  induction h generalizing a with
  | nil =>
    obtain ⟨rfl, rfl⟩ := List.append_eq_nil_iff.mp hab
    exact ⟨[], [], rfl, .nil, .nil⟩
  | keep c h ih =>
    cases a with
    | nil =>
      cases hab
      exact ⟨[], _, rfl, .nil, .keep c h⟩
    | cons d a =>
      obtain ⟨rfl, hrest⟩ := List.cons.inj hab
      obtain ⟨s, u, rfl, hs, hu⟩ := ih hrest
      exact ⟨d :: s, u, rfl, .keep d hs, hu⟩
  | @drop span t kept hspan h ih =>
    obtain ⟨s, u, rfl, hs, hu⟩ := ih hab
    exact ⟨span ++ s, u, (List.append_assoc ..).symm, .drop hspan hs, hu⟩

/-- In front of the first code point that is kept there is nothing but code. -/
theorem WithoutSpans.cons (h : WithoutSpans t (c :: kept)) :
    ∃ (spans : List Text) (rest : Text), (∀ s ∈ spans, IsSpan s) ∧ t = spans.flatten ++ c :: rest ∧ WithoutSpans rest kept := by
  generalize hkept : c :: kept = all at h
  induction h with
  | nil => cases hkept
  | keep d h ih =>
    cases hkept
    exact ⟨[], _, fun _ hs => absurd hs List.not_mem_nil, rfl, h⟩
  | @drop span t all hspan h ih =>
    obtain ⟨spans, rest, hspans, rfl, hrest⟩ := ih hkept
    exact ⟨span :: spans, rest, List.forall_mem_cons.mpr ⟨hspan, hspans⟩, by simp, hrest⟩

/-- Code inside lines has no end of a line in it. -/
theorem WithoutSpans.newline_not_mem (h : WithoutSpans t kept) (hkept : newline ∉ kept) : newline ∉ t := by
  induction h with
  | nil => exact hkept
  | keep c h ih =>
    rw [List.mem_cons, not_or] at hkept ⊢
    exact ⟨hkept.1, ih hkept.2⟩
  | drop hspan h ih =>
    obtain ⟨inner, rfl, -, hinner⟩ := hspan
    simp only [List.mem_append, List.mem_cons, List.not_mem_nil, or_false, not_or]
    exact ⟨⟨by decide, hinner, by decide⟩, ih hkept⟩

/-! ## Blocks of code -/

/-- The text is at the end of a line. -/
def AtLineEnd (t : Text) : Prop := t = [] ∨ t.head? = some newline

/-- What is at the beginning of a line, or within one, of the second text is so in the first one. -/
def KeepsLines (t kept : Text) : Prop :=
  ∀ w, newline ∉ w → (w <+: kept → w <+: t) ∧ (w <:+: kept → w <:+: t)

theorem KeepsLines.refl (t : Text) : KeepsLines t t := fun _ _ => ⟨id, id⟩

theorem KeepsLines.cons (c : CodePoint) (h : KeepsLines t kept) : KeepsLines (c :: t) (c :: kept) := by
  have hfront : ∀ w, newline ∉ w → w <+: c :: kept → w <+: c :: t := by
    intro w hw hkept
    cases w with
    | nil => exact List.nil_prefix
    | cons d w =>
      obtain ⟨rfl, hafter⟩ := List.cons_prefix_cons.mp hkept
      exact List.cons_prefix_cons.mpr ⟨rfl, (h w fun hmem => hw (List.mem_cons_of_mem d hmem)).1 hafter⟩
  refine fun w hw => ⟨hfront w hw, fun hkept => ?_⟩
  obtain hkept | hkept := List.infix_cons_iff.mp hkept
  · exact (hfront w hw hkept).isInfix
  · exact ((h w hw).2 hkept).trans (List.suffix_cons c t).isInfix

/-- What is left out up to the end of a line joins nothing. -/
theorem KeepsLines.drop (block : Text) (hend : AtLineEnd kept) (h : KeepsLines rest kept) :
    KeepsLines (block ++ rest) kept := by
  refine fun w hw => ⟨fun hkept => ?_, fun hkept => ((h w hw).2 hkept).trans (List.suffix_append block rest).isInfix⟩
  cases w with
  | nil => exact List.nil_prefix
  | cons d w =>
    obtain ⟨after, rfl⟩ := hkept
    obtain hnil | hhead := hend
    · cases hnil
    · cases hhead
      exact absurd List.mem_cons_self hw

/-- A block of code ends where its last line does. -/
theorem eq_append_of_afterFence? {fence after : Text} (h : afterFence? fence t = some after) :
    (∃ block, t = block ++ after) ∧ AtLineEnd after := by
  induction t with
  | nil => cases h
  | cons c t ih =>
    rw [afterFence?] at h
    split at h
    · next closed hclosed =>
      cases h
      split at hclosed
      · next hc =>
        obtain ⟨back, hback, hend⟩ := Option.bind_eq_some_iff.mp hclosed
        dsimp only at hend
        split at hend
        · next hcond =>
          cases hend
          have hsplit := List.takeWhile_append_dropWhile (p := fun c => c == CodePoint.space || c == CodePoint.tab) (l := back)
          refine ⟨⟨c :: (fence ++ back.takeWhile fun c => c == CodePoint.space || c == CodePoint.tab), ?_⟩, ?_⟩
          · rw [List.cons_append, List.append_assoc, hsplit, Text.eq_append_of_dropLead? hback]
          · simpa [AtLineEnd] using hcond
        · cases hend
      · cases hclosed
    · obtain ⟨⟨block, rfl⟩, hend⟩ := ih h
      exact ⟨⟨c :: block, rfl⟩, hend⟩

theorem eq_append_of_afterBlock? {after : Text} (h : afterBlock? t = some after) :
    (∃ block, t = block ++ after) ∧ AtLineEnd after := by
  obtain ⟨fence, -, hfence⟩ := List.exists_of_findSome?_eq_some h
  obtain ⟨back, hback, hafter⟩ := Option.bind_eq_some_iff.mp hfence
  obtain ⟨⟨block, rfl⟩, hend⟩ := eq_append_of_afterFence? hafter
  exact ⟨⟨fence ++ block, by rw [Text.eq_append_of_dropLead? hback, List.append_assoc]⟩, hend⟩

/-- What is kept beside blocks of code, of which none begins within a line. -/
theorem keepsLines_dropBlocks (lineStart : Bool) (fuel : Nat) (t : Text) :
    ∃ kept, KeepsLines t kept ∧ (lineStart = false → AtLineEnd t → AtLineEnd kept) ∧
      ∀ seen, dropBlocks lineStart seen fuel t = seen.reverse ++ kept := by
  induction fuel generalizing lineStart t with
  | zero => exact ⟨t, .refl t, fun _ => id, fun seen => rfl⟩
  | succ fuel ih =>
    cases t with
    | nil => exact ⟨[], .refl [], fun _ => id, fun seen => (List.append_nil _).symm⟩
    | cons c t =>
      cases hafter : (if lineStart then afterBlock? (c :: t) else none) with
      | some after =>
        obtain ⟨kept, hkept, hend, hdrop⟩ := ih false after
        split at hafter
        · next hstart =>
          obtain ⟨⟨block, hblock⟩, hafterEnd⟩ := eq_append_of_afterBlock? hafter
          refine ⟨kept, hblock ▸ hkept.drop block (hend rfl hafterEnd), fun hfalse => ?_, fun seen => ?_⟩
          · cases hstart.symm.trans hfalse
          · rw [dropBlocks, if_pos hstart, hafter]
            exact hdrop seen
        · cases hafter
      | none =>
        obtain ⟨kept, hkept, -, hdrop⟩ := ih (c == newline) t
        refine ⟨c :: kept, hkept.cons c, fun _ hend => ?_, fun seen => ?_⟩
        · exact .inr (hend.resolve_left (List.cons_ne_nil c t))
        · rw [dropBlocks, hafter]
          dsimp only
          rw [hdrop, List.reverse_cons, List.append_assoc, List.singleton_append]

/-! ## Written tags -/

/-- Code inside a line stands between two signs that could belong to one tag. -/
def Joins (body : Text) : Prop :=
  ∃ (c d : CodePoint) (spans : List Text), (c = hash ∨ isTagPart c = true) ∧ isTagPart d = true ∧ spans ≠ [] ∧
    (∀ s ∈ spans, IsSpan s) ∧ c :: (spans.flatten ++ [d]) <:+: body

/-- Behind a sign of a tag the rest of the tag stands as it is, unless code joins two signs. -/
theorem prefix_of_withoutSpans (hjoins : ¬ Joins body) (h : WithoutSpans t tag) (htag : ∀ d ∈ tag, isTagPart d = true)
    (hc : c = hash ∨ isTagPart c = true) (hpart : c :: t <:+: body) : tag <+: t := by
  induction tag generalizing c t with
  | nil => exact List.nil_prefix
  | cons d tag ih =>
    obtain ⟨hd, htag⟩ := List.forall_mem_cons.mp htag
    obtain ⟨spans, rest, hspans, rfl, hrest⟩ := h.cons
    cases spans with
    | nil =>
      have hrestPart : d :: rest <:+: body := (List.suffix_cons c (d :: rest)).isInfix.trans hpart
      exact List.cons_prefix_cons.mpr ⟨rfl, ih hrest htag (.inr hd) hrestPart⟩
    | cons span spans =>
      refine absurd ⟨c, d, span :: spans, hc, hd, List.cons_ne_nil _ _, hspans, ?_⟩ hjoins
      refine List.IsInfix.trans (List.IsPrefix.isInfix ?_) hpart
      exact List.cons_prefix_cons.mpr ⟨rfl, by simp⟩

theorem mem_ofBody_iff : tag ∈ ofBody body ↔ ∃ i, TagAt (dropCode body) i tag := by
  have hscan : ofBody body = (tagsFrom [] (dropCode body)).map Prod.snd := scan_eq [] [] (dropCode body)
  rw [hscan, List.mem_map]
  constructor
  · rintro ⟨⟨i, tag⟩, hmem, rfl⟩
    exact ⟨i, (mem_tagsFrom.mp hmem).2⟩
  · rintro ⟨i, htag⟩
    exact ⟨(i, tag), mem_tagsFrom.mpr ⟨Nat.zero_le i, htag⟩, rfl⟩

/-- A part of a line without code is a part of a line of the body that has, at most, code inside it. -/
theorem exists_written (hw : newline ∉ w) (h : w <:+: dropCode body) :
    ∃ written, written <:+: body ∧ newline ∉ written ∧ WithoutSpans written w := by
  obtain ⟨lines, hlines, -, hblocks⟩ := keepsLines_dropBlocks true body.length body
  obtain ⟨kept, hkept, hspans⟩ := withoutSpans_dropSpans lines.length lines
  have hcode : dropCode body = kept := by
    rw [dropCode, hblocks []]
    exact hspans []
  rw [hcode] at h
  obtain ⟨front, back, rfl⟩ := h
  obtain ⟨s, u, rfl, hs, -⟩ := hkept.append
  obtain ⟨before, written, rfl, -, hwritten⟩ := hs.append
  have hline := hwritten.newline_not_mem hw
  exact ⟨written, (hlines written hline).2 ⟨before, u, rfl⟩, hline, hwritten⟩

/-- The tags of a body are those of the text without code.  Each is written in the body behind a number sign in
    one line, with, at most, code between its signs; and it is written there as it is, unless code in the body
    stands between two signs that could belong to one tag. -/
theorem ofBody_written (body : Text) :
    (∀ tag, tag ∈ ofBody body ↔ ∃ i, TagAt (dropCode body) i tag) ∧
    (∀ tag ∈ ofBody body, ∃ written, hash :: written <:+: body ∧ newline ∉ written ∧ WithoutSpans written tag) ∧
    (¬ Joins body → ∀ tag ∈ ofBody body, hash :: tag <:+: body) := by
  have hwritten : ∀ tag ∈ ofBody body, (∀ d ∈ tag, isTagPart d = true) ∧
      ∃ written, hash :: written <:+: body ∧ newline ∉ written ∧ WithoutSpans written tag := by
    intro tag htag
    obtain ⟨i, front, back, hbody, -, -, hpart, -⟩ := mem_ofBody_iff.mp htag
    have hline : newline ∉ hash :: tag := by
      rw [List.mem_cons, not_or]
      exact ⟨by decide, fun hmem => absurd (hpart _ hmem) (by decide +kernel)⟩
    obtain ⟨written, hinfix, hwritten, hwithout⟩ := exists_written hline ⟨front, back, by rw [hbody]; simp⟩
    obtain ⟨spans, rest, -, rfl, hrest⟩ := hwithout.cons
    refine ⟨hpart, rest, (List.suffix_append _ _).isInfix.trans hinfix, fun hmem => hwritten ?_, hrest⟩
    exact List.mem_append_right _ (List.mem_cons_of_mem _ hmem)
  refine ⟨fun tag => mem_ofBody_iff, fun tag htag => (hwritten tag htag).2, fun hjoins tag htag => ?_⟩
  obtain ⟨hpart, written, hinfix, -, hwithout⟩ := hwritten tag htag
  have hprefix := prefix_of_withoutSpans hjoins hwithout hpart (.inl rfl) hinfix
  exact (List.cons_prefix_cons.mpr ⟨rfl, hprefix⟩).isInfix.trans hinfix

/-- Code that joins two signs stands right behind one of them. -/
theorem Joins.exists_infix (h : Joins body) : ∃ c, (c = hash ∨ isTagPart c = true) ∧ [c, backtick] <:+: body := by
  obtain ⟨c, d, spans, hc, -, hne, hspans, hpart⟩ := h
  obtain ⟨span, spans, rfl⟩ := List.exists_cons_of_ne_nil hne
  obtain ⟨inner, rfl, -, -⟩ := hspans span List.mem_cons_self
  exact ⟨c, hc, List.IsInfix.trans (List.IsPrefix.isInfix ⟨_, rfl⟩) hpart⟩

/-- Code beside tags and a block of code. -/
def beside : Text := "`#no;` #work `#;` x\n```\n#hidden\n```\n#a-/b"

theorem ofBody_written_beside :
    ¬ Joins beside ∧ hash :: ("work" : Text) <:+: beside ∧ hash :: ("a-/b" : Text) <:+: beside ∧
      ¬ ∃ i, TagAt (dropCode beside) i "hidden" := by
  have hjoins : ¬ Joins beside := by
    intro h
    obtain ⟨c, hc, hpart⟩ := h.exists_infix
    have hapart : ∀ c ∈ beside, (c = hash ∨ isTagPart c = true) → ¬ [c, backtick] <:+: beside := by decide +kernel
    exact hapart c (hpart.subset List.mem_cons_self) hc hpart
  obtain ⟨htags, -, hwritten⟩ := ofBody_written beside
  refine ⟨hjoins, hwritten hjoins _ ?_, hwritten hjoins _ ?_, fun h => absurd ((htags _).mpr h) ?_⟩
  · decide +kernel
  · decide +kernel
  · decide +kernel

/-- Code within a tag is left out of it. -/
theorem ofBody_joined :
    ("ai-allow" : Text) ∈ ofBody "#ai-`x`allow" ∧ ¬ hash :: ("ai-allow" : Text) <:+: ("#ai-`x`allow" : Text) := by
  decide +kernel

end NoteAccess.InlineTags
