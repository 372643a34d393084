/-
  NoteAccess.Proofs.Regex.Language

  The texts that a tree takes, wherever they stand (`Node.Takes`), with a lemma for each form of a
  tree.  A program matches the whole of the texts that its tree takes (`fullMatch_iff`).
-/

import NoteAccess.Proofs.Regex.Search

namespace NoteAccess.Regex

/-! ## Leaves -/

/-- The leaf takes the code points with a property, one at a time. -/
structure Step.Accepts (x : Step) (p : CodePoint → Prop) : Prop where
  unit : x.isUnit = true
  takes_iff : ∀ text i, x.takes text i = true ↔ ∃ c, text[i]? = some c ∧ p c

section Leaves

variable {x : Step} {p q : CodePoint → Prop}

theorem Step.Accepts.congr (h : x.Accepts p) (hpq : ∀ c, p c ↔ q c) : x.Accepts q :=
  ⟨h.unit, fun text i => (h.takes_iff text i).trans (exists_congr fun c => and_congr_right fun _ => hpq c)⟩

theorem accepts_one (x : Charset) : (Step.one x).Accepts (x.contains · = true) :=
  ⟨rfl, fun _ _ => Option.any_eq_true ..⟩

theorem accepts_any : Step.any.Accepts fun _ => True := by
  refine ⟨rfl, fun text i => ?_⟩
  have hany : Step.any.takes text i = decide (i < text.size) := rfl
  rw [hany, decide_eq_true_iff]
  constructor
  · exact fun hlt => ⟨text[i], Array.getElem?_eq_getElem hlt, trivial⟩
  · rintro ⟨c, hc, -⟩
    exact (Array.getElem?_eq_some_iff.mp hc).1

/-- A leaf takes a code point behind `front` if what follows has it there. -/
theorem Step.Accepts.takes_behind (h : x.Accepts p) (front back : Text) (j : Nat) :
    x.takes (front ++ back).toArray (front.length + j) = true ↔ ∃ c, back[j]? = some c ∧ p c := by
  rw [h.takes_iff, List.getElem?_toArray, List.getElem?_append_right (Nat.le_add_right _ _),
    Nat.add_sub_cancel_left]

end Leaves

/-! ## Trees -/

/-- What the tree takes is told by the text alone: behind any beginning it takes the texts with a
    property, and leaves the marks of groups as they are. -/
def Node.Takes (n : Node Step) (L : Text → Prop) : Prop :=
  ∀ (front back : Text) (marks : Array (Option Nat)) (k : Next),
    (n.run (front ++ back).toArray ⟨front.length, marks⟩ k).isSome = true ↔
      ∃ u v, back = u ++ v ∧ L u ∧ (k ⟨(front ++ u).length, marks⟩).isSome = true

section Trees

variable {x y : Step} {p q : CodePoint → Prop} {a b : Node Step} {L M : Text → Prop}

theorem Node.Takes.congr (h : a.Takes L) (hLM : ∀ u, L u ↔ M u) : a.Takes M := by
  intro front back marks k
  rw [h front back marks k]
  simp only [hLM]

theorem takes_empty : Node.empty.Takes (· = []) := by
  intro front back marks k
  constructor
  · exact fun hk => ⟨[], back, rfl, rfl, by rwa [List.append_nil]⟩
  · rintro ⟨_, v, -, rfl, hk⟩
    rwa [List.append_nil] at hk

/-- A leaf takes the first code point of what follows. -/
theorem takes_leaf (h : x.Accepts p) : (Node.leaf x).Takes fun u => ∃ c, u = [c] ∧ p c := by
  intro front back marks k
  have hrun : ((Node.leaf x).run (front ++ back).toArray ⟨front.length, marks⟩ k).isSome = true ↔
      x.takes (front ++ back).toArray (front.length + 0) = true ∧
        (k ⟨front.length + 1, marks⟩).isSome = true := by
    have hunit := h.unit
    cases x with
    | any | one =>
      rw [Node.run]
      unfold Step.run
      dsimp only
      split <;> simp_all [State.at_]
    | place | backref => cases hunit
  have hlength : ∀ c : CodePoint, (front ++ [c]).length = front.length + 1 := fun c => by simp
  rw [hrun, h.takes_behind]
  constructor
  · rintro ⟨⟨c, hc, hp⟩, hk⟩
    cases back with
    | nil => cases hc
    | cons d v =>
      cases hc
      exact ⟨[c], v, rfl, ⟨c, rfl, hp⟩, by rwa [hlength]⟩
  · rintro ⟨_, v, rfl, ⟨c, rfl, hp⟩, hk⟩
    rw [hlength] at hk
    exact ⟨⟨c, rfl, hp⟩, hk⟩

/-- A greedy loop over a leaf takes a run of what follows. -/
theorem takes_star (h : x.Accepts p) : (Node.loop .greedy 0 none (.leaf x)).Takes fun u => ∀ c ∈ u, p c := by
  intro front back marks k
  have hrun : (Node.loop .greedy 0 none (.leaf x)).run (front ++ back).toArray ⟨front.length, marks⟩ k =
      unitLoop (front ++ back).toArray x .greedy 0 none ⟨front.length, marks⟩ k := by
    rw [Node.run, if_pos h.unit]
  rw [hrun, isSome_unitLoop]
  simp only [h.takes_behind]
  constructor
  · rintro ⟨m, -, -, htakes, hk⟩
    -- The run is not longer than what follows, where its code points are.
    have hm : m ≤ back.length := by
      cases m with
      | zero => exact Nat.zero_le _
      | succ m =>
        obtain ⟨c, hc, -⟩ := htakes m (Nat.lt_succ_self m)
        exact (List.getElem?_eq_some_iff.mp hc).1
    refine ⟨back.take m, back.drop m, (List.take_append_drop m back).symm, fun c hc => ?_, ?_⟩
    · obtain ⟨j, hj, rfl⟩ := List.mem_iff_getElem.mp hc
      rw [List.length_take_of_le hm] at hj
      obtain ⟨c, hc, hp⟩ := htakes j hj
      obtain ⟨hlt, rfl⟩ := List.getElem?_eq_some_iff.mp hc
      rwa [List.getElem_take]
    · rw [List.length_append, List.length_take_of_le hm]
      exact hk
  · rintro ⟨u, v, rfl, hu, hk⟩
    refine ⟨u.length, Nat.zero_le _, fun n hn => absurd hn (Option.not_mem_none n), fun j hj => ?_, ?_⟩
    · exact ⟨u[j], by rw [List.getElem?_append_left hj, List.getElem?_eq_getElem hj], hu _ (List.getElem_mem hj)⟩
    · rw [List.length_append] at hk
      exact hk

/-- Texts one after the other. -/
def Concat (L M : Text → Prop) (t : Text) : Prop := ∃ u v, t = u ++ v ∧ L u ∧ M v

/-- Where one tree leads to another, they take texts one after the other. -/
theorem takes_of_run {n : Node Step} (ha : a.Takes L) (hb : b.Takes M)
    (hrun : ∀ text s k, n.run text s k = a.run text s fun s' => b.run text s' k) : n.Takes (Concat L M) := by
  intro front back marks k
  rw [hrun, ha]
  constructor
  · rintro ⟨u, rest, rfl, hu, hk⟩
    rw [← List.append_assoc, hb] at hk
    obtain ⟨v, back, rfl, hv, hk⟩ := hk
    exact ⟨u ++ v, back, (List.append_assoc ..).symm, ⟨u, v, rfl, hu, hv⟩, by rwa [← List.append_assoc]⟩
  · rintro ⟨_, back, rfl, ⟨u, v, rfl, hu, hv⟩, hk⟩
    refine ⟨u, v ++ back, List.append_assoc .., hu, ?_⟩
    rw [List.append_assoc, ← List.append_assoc, hb]
    exact ⟨v, back, rfl, hv, by rwa [List.append_assoc]⟩

theorem takes_seq (ha : a.Takes L) (hb : b.Takes M) : (Node.seq a b).Takes (Concat L M) :=
  takes_of_run ha hb fun _ _ _ => rfl

theorem takes_ofList_append {ns ms : List (Node Step)} (hns : (Node.ofList ns).Takes L)
    (hms : (Node.ofList ms).Takes M) : (Node.ofList (ns ++ ms)).Takes (Concat L M) :=
  takes_of_run hns hms fun _ s k => run_ofList_append ns ms s k

/-- A loop of at most one round takes nothing or what its body takes. -/
theorem takes_optional (h : (Node.seq a b).Takes L) :
    (Node.loop .greedy 0 (some 1) (.seq a b)).Takes fun u => u = [] ∨ L u := by
  intro front back marks k
  rw [isSome_run_optional, h]
  constructor
  · rintro (⟨u, v, rfl, hu, hk⟩ | hk)
    · exact ⟨u, v, rfl, .inr hu, hk⟩
    · exact ⟨[], back, rfl, .inl rfl, by rwa [List.append_nil]⟩
  · rintro ⟨u, v, rfl, rfl | hu, hk⟩
    · rw [List.append_nil] at hk
      exact .inr hk
    · exact .inl ⟨u, v, rfl, hu, hk⟩

/-- In front of a leaf, a look ahead leaves out the code points of another one. -/
theorem takes_notAhead (hx : x.Accepts p) (hy : y.Accepts q) :
    (Node.seq (.ahead true (.leaf x)) (.leaf y)).Takes fun u => ∃ c, u = [c] ∧ ¬ p c ∧ q c := by
  intro front back marks k
  have hnext := takes_leaf hx front back marks some
  rw [Node.run, Node.run]
  split
  · next s' hs' =>
    rw [hs'] at hnext
    rw [if_pos rfl]
    obtain ⟨_, v, rfl, ⟨c, rfl, hp⟩, -⟩ := hnext.mp rfl
    refine iff_of_false Bool.false_ne_true ?_
    rintro ⟨_, v', hback, ⟨d, rfl, hnot, -⟩, -⟩
    exact hnot ((List.cons.inj hback).1 ▸ hp)
  · next hnone =>
    rw [hnone] at hnext
    rw [if_pos rfl, takes_leaf hy]
    -- What follows does not begin with what the look ahead leaves out.
    have hfree : ∀ c v, back = [c] ++ v → ¬ p c :=
      fun c v hback hp => Bool.false_ne_true (hnext.mpr ⟨[c], v, hback, ⟨c, rfl, hp⟩, rfl⟩)
    constructor
    · rintro ⟨_, v, hback, ⟨c, rfl, hq⟩, hk⟩
      exact ⟨[c], v, hback, ⟨c, rfl, hfree c v hback, hq⟩, hk⟩
    · rintro ⟨_, v, hback, ⟨c, rfl, -, hq⟩, hk⟩
      exact ⟨[c], v, hback, ⟨c, rfl, hq⟩, hk⟩

/-- A program matches the whole of the texts that its tree takes. -/
theorem fullMatch_iff {e : Program} (h : e.tree.Takes L) (t : Text) : e.fullMatch t = true ↔ L t := by
  have hrun := h [] t (Array.replicate (2 * e.groups) none) fun s => if s.pos = t.length then some s else none
  refine hrun.trans ?_
  constructor
  · rintro ⟨u, v, rfl, hu, hk⟩
    have hv : v = [] := by
      split at hk
      · next hlength => simpa using hlength
      · cases hk
    rwa [hv, List.append_nil]
  · intro ht
    exact ⟨t, [], (List.append_nil t).symm, ht, by simp⟩

/-- A tree takes the texts with one property only. -/
theorem Node.Takes.unique (hL : a.Takes L) (hM : a.Takes M) (u : Text) : L u ↔ M u :=
  (fullMatch_iff (e := ⟨a, 0⟩) hL u).symm.trans (fullMatch_iff (e := ⟨a, 0⟩) hM u)

end Trees

/-- A choice takes what one of its alternatives takes. -/
theorem takes_choice {flags : Flags} (hflags : flags.ignoreCase = false) {branches : List (List (Node Atom))}
    (hne : branches ≠ []) (fuel : Nat) {L : List (Node Atom) → Text → Prop}
    (h : ∀ b ∈ branches, ((Node.ofList b).map (Atom.step flags)).Takes (L b)) :
    ((Node.ofList (Reader.choice branches fuel)).map (Atom.step flags)).Takes fun u => ∃ b ∈ branches, L b u := by
  intro front back marks k
  rw [isSome_run_choice hflags hne]
  constructor
  · rintro ⟨b, hb, hrun⟩
    obtain ⟨u, v, hback, hu, hk⟩ := (h b hb front back marks k).mp hrun
    exact ⟨u, v, hback, ⟨b, hb, hu⟩, hk⟩
  · rintro ⟨u, v, hback, ⟨b, hb, hu⟩, hk⟩
    exact ⟨b, hb, (h b hb front back marks k).mpr ⟨u, v, hback, hu, hk⟩⟩

end NoteAccess.Regex
