/-
  NoteAccess.Proofs.Note.InlineTags

  Which tags are found in the body of a note.  A tag stands at a position (`TagAt`) if it is
  the longest run behind a number sign there that may begin one.  Each position is looked at
  with what is in front of it (`here?`), so the scan finds exactly the tags at all the
  positions, in order (`scan_eq`).  The matches of the expression for inline tags are the
  same: what a match takes is skipped, but no tag begins there (`findFrom_eq`).
-/

import Mathlib.Data.List.Basic
import NoteAccess.Note.InlineTags
import NoteAccess.Proofs.Text
import NoteAccess.Proofs.Regex.Finding

namespace NoteAccess.InlineTags

open CodePoint (hash backtick tilde)

variable {front back rest body run tag : Text} {c : CodePoint} {i : Nat}

/-! ## Tags at positions -/

/-- A tag at a position: the longest run of its code points behind a number sign that follows nothing that
    keeps it from beginning a tag, and not made of digits and separators only. -/
def TagAt (body : Text) (i : Nat) (tag : Text) : Prop :=
  ∃ front back, body = front ++ hash :: (tag ++ back) ∧ front.length = i ∧
    (∀ c ∈ front.getLast?, blocksTag c = false) ∧ (∀ c ∈ tag, isTagPart c = true) ∧
    (∀ c ∈ back.head?, isTagPart c = false) ∧ ∃ c ∈ tag, isTagCore c = true

/-- Whether a tag may begin behind a text. -/
def isFree (front : Text) : Bool := !front.getLast?.any blocksTag

/-- The tag that begins here, behind a text. -/
def here? (front : Text) : Text → Option Text
  | [] => none
  | c :: rest =>
    let run := rest.takeWhile isTagPart
    if c = hash && isFree front && run.any isTagCore then some run else none

/-- The tags behind a text, with their positions. -/
def tagsFrom (front : Text) : Text → List (Nat × Text)
  | [] => []
  | c :: rest => ((here? front (c :: rest)).map (front.length, ·)).toList ++ tagsFrom (front ++ [c]) rest

theorem isTagPart_hash : isTagPart hash = false := by
  decide +kernel

theorem isTagPart_of_isTagCore (h : isTagCore c = true) : isTagPart c = true := by
  simp only [isTagCore, Bool.and_eq_true] at h
  simp [isTagPart, h.1]

theorem isFree_concat (front : Text) (c : CodePoint) : isFree (front ++ [c]) = !blocksTag c := by
  rw [isFree, List.getLast?_concat, Option.any_some]

theorem isFree_iff : isFree front = true ↔ ∀ c ∈ front.getLast?, blocksTag c = false := by
  rw [isFree]
  cases front.getLast? <;> simp

/-- A tag is found here exactly if there is a number sign that may begin one, and the run behind it is one. -/
theorem here?_cons_eq_some_iff :
    here? front (c :: rest) = some tag ↔
      c = hash ∧ isFree front = true ∧ tag = rest.takeWhile isTagPart ∧ ∃ c ∈ tag, isTagCore c = true := by
  rw [here?]
  simp only [Bool.and_eq_true, decide_eq_true_eq]
  constructor
  · intro h
    split at h
    · next hcond =>
      cases h
      exact ⟨hcond.1.1, hcond.1.2, rfl, List.any_eq_true.mp hcond.2⟩
    · cases h
  · rintro ⟨hc, hfree, rfl, hcore⟩
    exact if_pos ⟨⟨hc, hfree⟩, List.any_eq_true.mpr hcore⟩

/-- A tag stands at a position exactly if it is found there. -/
theorem tagAt_iff : TagAt (front ++ rest) front.length tag ↔ here? front rest = some tag := by
  constructor
  · rintro ⟨before, back, hbody, hlength, hfree, hpart, hback, hcore⟩
    obtain ⟨rfl, rfl⟩ := List.append_inj hbody hlength.symm
    rw [here?_cons_eq_some_iff]
    exact ⟨rfl, isFree_iff.mpr hfree, (Regex.takeWhile_run hpart hback).symm, hcore⟩
  · intro h
    cases rest with
    | nil => cases h
    | cons c rest =>
      obtain ⟨rfl, hfree, rfl, hcore⟩ := here?_cons_eq_some_iff.mp h
      exact ⟨front, rest.dropWhile isTagPart, by rw [List.takeWhile_append_dropWhile], rfl, isFree_iff.mp hfree,
        List.all_eq_true.mp List.all_takeWhile, Regex.head?_dropWhile_run isTagPart rest, hcore⟩

theorem mem_tagsFrom : (i, tag) ∈ tagsFrom front rest ↔ front.length ≤ i ∧ TagAt (front ++ rest) i tag := by
  induction rest generalizing front with
  | nil =>
    refine iff_of_false List.not_mem_nil ?_
    rintro ⟨hle, before, back, hbody, hlength, -⟩
    have hsize := congrArg List.length hbody
    simp only [List.length_append, List.length_cons, List.length_nil] at hsize
    omega
  | cons c rest ih =>
    rw [tagsFrom, List.mem_append, ih, List.length_append, List.length_singleton, List.append_assoc,
      List.singleton_append, Option.mem_toList, Option.map_eq_some_iff]
    constructor
    · rintro (⟨tag', htag, he⟩ | ⟨hle, htag⟩)
      · cases he
        exact ⟨Nat.le_refl _, tagAt_iff.mpr htag⟩
      · exact ⟨Nat.le_of_succ_le hle, htag⟩
    · rintro ⟨hle, htag⟩
      rcases Nat.eq_or_lt_of_le hle with rfl | hlt
      · exact .inl ⟨tag, tagAt_iff.mp htag, rfl⟩
      · exact .inr ⟨hlt, htag⟩

/-- The tags are in the order of their positions. -/
theorem pairwise_tagsFrom (front rest : Text) : ((tagsFrom front rest).map Prod.fst).Pairwise (· < ·) := by
  induction rest generalizing front with
  | nil => exact .nil
  | cons c rest ih =>
    rw [tagsFrom, List.map_append, List.pairwise_append]
    refine ⟨?_, ih _, ?_⟩
    · cases here? front (c :: rest) <;> simp
    · intro i hi j hj
      obtain ⟨⟨i', tag⟩, hmem, rfl⟩ := List.mem_map.mp hi
      obtain ⟨⟨j', tag'⟩, hmem', rfl⟩ := List.mem_map.mp hj
      obtain ⟨tag'', -, he⟩ := Option.map_eq_some_iff.mp (Option.mem_toList.mp hmem)
      cases he
      have hle := (mem_tagsFrom.mp hmem').1
      rw [List.length_append, List.length_singleton] at hle
      exact hle

/-! ## The scan -/

/-- The scan finds the tags at all positions. -/
theorem scan_eq (front : Text) (seen : List Text) (rest : Text) :
    scan (isFree front) seen rest = seen.reverse ++ (tagsFrom front rest).map Prod.snd := by
  induction rest generalizing front seen with
  | nil => exact (List.append_nil _).symm
  | cons c rest ih =>
    have hnext := fun seen => ih (front ++ [c]) seen
    simp only [isFree_concat] at hnext
    rw [scan, tagsFrom, here?, hnext]
    split <;> simp

/-! ## Code -/

theorem afterBlock?_eq_none {t : Text} (h : ∀ fence ∈ codeFences, ¬ fence <+: t) : afterBlock? t = none := by
  refine List.findSome?_eq_none_iff.mpr fun fence hfence => ?_
  cases hlead : Text.dropLead? fence t with
  | none => rfl
  | some rest => exact absurd ⟨rest, (Text.eq_append_of_dropLead? hlead).symm⟩ (h fence hfence)

/-- Where no fence is, there is no block of code. -/
theorem dropBlocks_eq {t : Text} (h : ∀ fence ∈ codeFences, ¬ fence <:+: t) (lineStart : Bool) (seen : Text)
    (fuel : Nat) : dropBlocks lineStart seen fuel t = seen.reverse ++ t := by
  induction fuel generalizing lineStart seen t with
  | zero => rfl
  | succ fuel ih =>
    cases t with
    | nil => exact (List.append_nil _).symm
    | cons c t =>
      have hblock : (if lineStart then afterBlock? (c :: t) else none) = none := by
        split
        · exact afterBlock?_eq_none fun fence hfence hlead => h fence hfence hlead.isInfix
        · rfl
      have hrest : ∀ fence ∈ codeFences, ¬ fence <:+: t :=
        fun fence hfence hpart => h fence hfence (hpart.trans (List.suffix_cons c t).isInfix)
      rw [dropBlocks, hblock]
      dsimp only
      rw [ih hrest, List.reverse_cons, List.append_assoc, List.singleton_append]

/-- Where no backtick is, there is no code in a line. -/
theorem dropSpans_eq {t : Text} (h : backtick ∉ t) (seen : Text) (fuel : Nat) :
    dropSpans seen fuel t = seen.reverse ++ t := by
  induction fuel generalizing seen t with
  | zero => rfl
  | succ fuel ih =>
    cases t with
    | nil => exact (List.append_nil _).symm
    | cons c t =>
      rw [List.mem_cons, not_or] at h
      rw [dropSpans, if_neg (Ne.symm h.1)]
      dsimp only
      rw [ih h.2, List.reverse_cons, List.append_assoc, List.singleton_append]

theorem dropCode_eq_self (hticks : backtick ∉ body) (htildes : ¬ List.replicate 3 tilde <:+: body) :
    dropCode body = body := by
  have hfences : ∀ fence ∈ codeFences, ¬ fence <:+: body := by
    intro fence hfence
    simp only [codeFences, List.mem_cons, List.not_mem_nil, or_false] at hfence
    rcases hfence with rfl | rfl
    · exact fun hpart => hticks (hpart.subset List.mem_cons_self)
    · exact htildes
  rw [dropCode, dropBlocks_eq hfences]
  exact dropSpans_eq hticks [] _

/-! ## The expression -/

/-- The expression for a tag, whose text is its first group. -/
def expression : Text := "(?<![\\w#/&])#([\\w/-]*[^\\W\\d][\\w/-]*)"

open Regex

/-- The code points of tags, as a set. -/
def partSet : Charset := ⟨false, .keep, [.category .word false false, .point CodePoint.slash, .point CodePoint.minus]⟩

/-- The code points that make a run a tag, as a set. -/
def coreSet : Charset := ⟨true, .keep, [.category .word false true, .category .digit false false]⟩

/-- The code points after which no tag begins, as a set. -/
def blockSet : Charset :=
  ⟨false, .keep, [.category .word false false, .point hash, .point CodePoint.slash, .point CodePoint.ampersand]⟩

/-- The group of the expression: two loops over the code points of tags, and what makes them a tag between. -/
def tagGroup : Node Step := .group 1 (.seq (.loop .greedy 0 none (.leaf (.one partSet)))
  (.seq (.leaf (.one coreSet)) (.loop .greedy 0 none (.leaf (.one partSet)))))

/-- The expression, ready for matching. -/
def program : Program where
  tree := .seq (.behind true (some 1) (.leaf (.one blockSet)))
    (.seq (.leaf (.one ⟨false, .keep, [.point hash]⟩)) tagGroup)
  groups := 2

theorem compile_expression : compile {} expression = .ok program := by
  decide +kernel

theorem accepts_part : (Step.one partSet).Accepts (isTagPart · = true) :=
  (accepts_one partSet).congr fun c => by
    simp [partSet, Charset.contains, Fold.apply, Member.holds, Category.holds, isTagPart, or_assoc]

theorem accepts_core : (Step.one coreSet).Accepts (isTagCore · = true) :=
  (accepts_one coreSet).congr fun c => by
    simp [coreSet, Charset.contains, Fold.apply, Member.holds, Category.holds, isTagCore]

theorem accepts_block : (Step.one blockSet).Accepts (blocksTag · = true) :=
  (accepts_one blockSet).congr fun c => by
    simp [blockSet, Charset.contains, Fold.apply, Member.holds, Category.holds, blocksTag, or_assoc]

theorem accepts_hash : (Step.one ⟨false, .keep, [.point hash]⟩).Accepts ((· == hash) · = true) :=
  (accepts_one _).congr fun c => by
    simp [Charset.contains, Fold.apply, Member.holds]

/-- Where the match of a tag ends, with the marks of its group. -/
def tagState (i size : Nat) : State := ⟨i + 1 + size, #[none, none, some (i + 1), some (i + 1 + size)]⟩

/-- The group of a match takes the whole run behind the number sign, if it holds what makes it a tag. -/
theorem run_tagGroup (front : Text) (c : CodePoint) (rest : Text) :
    tagGroup.run (front ++ c :: rest).toArray ⟨front.length + 1, Array.replicate (2 * program.groups) none⟩ some =
      if (rest.takeWhile isTagPart).any isTagCore then
        some (tagState front.length (rest.takeWhile isTagPart).length) else none := by
  have hsplit : front ++ c :: rest = front ++ [c] ++ (rest.takeWhile isTagPart ++ rest.dropWhile isTagPart) := by
    rw [List.takeWhile_append_dropWhile, List.append_assoc, List.singleton_append]
  have hlength : front.length + 1 = (front ++ [c]).length := by simp
  rw [tagGroup, Node.run, State.mark, hsplit, hlength]
  refine run_star_leaf_star accepts_part accepts_core (fun d => isTagPart_of_isTagCore)
    (List.all_eq_true.mp List.all_takeWhile) (head?_dropWhile_run isTagPart rest) ?_
  rw [List.length_append, ← hlength]
  rfl

/-- A match begins here exactly if a tag does, and takes all of it. -/
theorem run_program (front rest : Text) :
    program.tree.run (front ++ rest).toArray ⟨front.length, Array.replicate (2 * program.groups) none⟩ some =
      (here? front rest).map fun tag => tagState front.length tag.length := by
  have htree : program.tree = .seq (.behind true (some 1) (.leaf (.one blockSet)))
    (.seq (.leaf (.one ⟨false, .keep, [.point hash]⟩)) tagGroup) := rfl
  rw [htree, Node.run, run_notBehind accepts_block, Node.run, run_leaf_front accepts_hash]
  cases rest with
  | nil => simp [here?]
  | cons c rest =>
    rw [run_tagGroup, here?, List.head?_cons, Option.any_some, isFree]
    by_cases hc : c = hash
    · cases front.getLast?.any blocksTag
      · cases (rest.takeWhile isTagPart).any isTagCore <;> simp [hc]
      · simp
    · simp [hc]

theorem groupText_tagState (front : Text) (c : CodePoint) (tag back : Text) :
    (tagState front.length tag.length).groupText 1 (front ++ c :: (tag ++ back)) = tag := by
  have hspan : (tagState front.length tag.length).span? 1 =
      some (front.length + 1, front.length + 1 + tag.length) := if_pos (Nat.le_add_right _ _)
  have hsplit : front ++ c :: (tag ++ back) = front ++ [c] ++ (tag ++ back) := by simp
  have hlength : front.length + 1 = (front ++ [c]).length := by simp
  rw [State.groupText, hspan]
  dsimp only
  rw [hsplit, hlength, List.take_length_add_append, List.take_left, List.drop_left]

/-- No tag begins within the run of a tag. -/
theorem tagsFrom_append (hrun : ∀ c ∈ run, isTagPart c = true) (front back : Text) :
    tagsFrom front (run ++ back) = tagsFrom (front ++ run) back := by
  induction run generalizing front with
  | nil => rw [List.nil_append, List.append_nil]
  | cons c run ih =>
    obtain ⟨hc, hrun⟩ := List.forall_mem_cons.mp hrun
    have hnone : here? front (c :: (run ++ back)) = none := by
      refine Option.eq_none_iff_forall_ne_some.mpr fun tag htag => ?_
      obtain ⟨rfl, -⟩ := here?_cons_eq_some_iff.mp htag
      cases isTagPart_hash.symm.trans hc
    rw [List.cons_append, tagsFrom, hnone, ih hrun, List.append_assoc, List.singleton_append]
    rfl

/-- The matches of the expression are the tags at all positions: what a match takes is skipped, and no tag
    begins there. -/
theorem findFrom_eq (fuel : Nat) (front rest : Text) (h : rest.length < fuel) :
    (program.findFrom (front ++ rest).toArray front.length fuel).map (·.groupText 1 (front ++ rest)) =
      (tagsFrom front rest).map Prod.snd := by
  -- By induction on the fuel.  Where no tag begins, the search goes on with the next code point; where one
  -- does, it goes on behind the run, and so do the positions with a tag.
  induction fuel generalizing front rest with
  | zero => exact absurd h (Nat.not_lt_zero _)
  | succ fuel ih =>
    have hinside : ¬ (front ++ rest).toArray.size < front.length := by simp
    rw [Program.findFrom, if_neg hinside, run_program]
    cases rest with
    | nil =>
      show List.map _ (program.findFrom _ (front.length + 1) fuel) = []
      rw [findFrom_beyond (by simp)]
      rfl
    | cons c rest =>
      cases hhere : here? front (c :: rest) with
      | none =>
        have hnext := ih (front ++ [c]) rest (Nat.lt_of_succ_lt_succ h)
        rw [List.append_assoc, List.singleton_append, List.length_append, List.length_singleton] at hnext
        rw [tagsFrom, hhere]
        exact hnext
      | some tag =>
        obtain ⟨-, -, htag, -⟩ := here?_cons_eq_some_iff.mp hhere
        have hpart : ∀ d ∈ tag, isTagPart d = true := htag ▸ List.all_eq_true.mp List.all_takeWhile
        obtain ⟨back, rfl⟩ : ∃ back, rest = tag ++ back :=
          ⟨rest.dropWhile isTagPart, by rw [htag, List.takeWhile_append_dropWhile]⟩
        have hlength : max (tagState front.length tag.length).pos (front.length + 1) = (front ++ c :: tag).length := by
          show max (front.length + 1 + tag.length) (front.length + 1) = _
          rw [Nat.max_eq_left (Nat.le_add_right _ _), List.length_append, List.length_cons]
          omega
        have hnext := ih (front ++ c :: tag) back (by
          simp only [List.length_cons, List.length_append] at h
          omega)
        rw [List.append_assoc, List.cons_append] at hnext
        rw [tagsFrom, hhere, tagsFrom_append hpart, List.append_assoc, List.singleton_append]
        show (tagState _ _).groupText 1 _ :: (program.findFrom _ (max _ _) fuel).map _ =
          tag :: (tagsFrom (front ++ c :: tag) back).map Prod.snd
        rw [hlength, groupText_tagState, hnext]

/-! ## Tags of bodies -/

/-- The tags of a body without code are those at its positions, each once and in order, and no others.  They
    are the first groups of the matches of the expression, one after the other. -/
theorem ofBody_exact (hticks : backtick ∉ body) (htildes : ¬ List.replicate 3 tilde <:+: body) :
    (∃ found : List (Nat × Text), ofBody body = found.map Prod.snd ∧ (found.map Prod.fst).Pairwise (· < ·) ∧
      ∀ i tag, (i, tag) ∈ found ↔ TagAt body i tag) ∧
    ∃ p, compile {} expression = .ok p ∧ ofBody body = p.findGroup 1 body := by
  have hscan : ofBody body = (tagsFrom [] body).map Prod.snd := by
    rw [ofBody, dropCode_eq_self hticks htildes]
    exact scan_eq [] [] body
  refine ⟨⟨tagsFrom [] body, hscan, pairwise_tagsFrom [] body, fun i tag => ?_⟩, program, compile_expression, ?_⟩
  · rw [mem_tagsFrom, List.nil_append]
    exact and_iff_right (Nat.zero_le i)
  · rw [hscan]
    exact (findFrom_eq (body.length + 1) [] body (Nat.lt_succ_self _)).symm

/-- Digits alone, number signs side by side, a separator at the end of a tag, and letters beyond the basic
    alphabet. -/
def mixed : Text := "#2024 ##a #x-#y/ é#no &#z #٣ß (#b)"

theorem ofBody_exact_mixed :
    backtick ∉ mixed ∧ ¬ List.replicate 3 tilde <:+: mixed ∧ (∃ i, TagAt mixed i "y/") ∧
      (∀ i, ¬ TagAt mixed i "2024") ∧
      ∃ p, compile {} expression = .ok p ∧ p.findGroup 1 mixed = (["x-", "y/", "٣ß", "b"] : List Text) := by
  have hticks : backtick ∉ mixed := by decide +kernel
  have htildes : ¬ List.replicate 3 tilde <:+: mixed := by decide +kernel
  have hbody : ofBody mixed = (["x-", "y/", "٣ß", "b"] : List Text) := by decide +kernel
  obtain ⟨⟨found, hfound, -, hexact⟩, p, hp, hmatches⟩ := ofBody_exact hticks htildes
  have hmem : ∀ tag : Text, tag ∈ ofBody mixed ↔ ∃ i, TagAt mixed i tag := by
    intro tag
    rw [hfound, List.mem_map]
    constructor
    · rintro ⟨⟨i, tag⟩, hin, rfl⟩
      exact ⟨i, (hexact i tag).mp hin⟩
    · rintro ⟨i, htag⟩
      exact ⟨(i, tag), (hexact i tag).mpr htag, rfl⟩
  refine ⟨hticks, htildes, (hmem _).mp ?_, fun i htag => ?_, p, hp, hmatches.symm.trans hbody⟩
  · rw [hbody]
    decide +kernel
  · have habsent := (hmem _).mpr ⟨i, htag⟩
    rw [hbody] at habsent
    revert habsent
    decide +kernel

end NoteAccess.InlineTags
