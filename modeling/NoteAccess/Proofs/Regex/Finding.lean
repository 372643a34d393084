/-
  NoteAccess.Proofs.Regex.Finding

  The matches of a program one after the other (`Program.findFrom`), and where exactly the
  first one ends that the search comes to.  A greedy loop over a leaf takes the longest run
  if what follows succeeds there (`run_star`); with a leaf behind it that the run has to
  hold as well, it gives up as much as that leaf needs, and the loop behind that leaf takes
  the rest of the run again (`run_star_leaf_star`).
-/

import NoteAccess.Proofs.Regex.Language

namespace NoteAccess.Regex

/-! ## Matches -/

/-- The matches of a program that takes at least one code point: each search begins where the match
    before it ends. -/
def Program.findFrom (p : Program) (text : Array CodePoint) (start : Nat) : Nat → List State
  | 0 => []
  | fuel + 1 =>
    if text.size < start then []
    else match p.tree.run text ⟨start, Array.replicate (2 * p.groups) none⟩ some with
      | some s => s :: findFrom p text (max s.pos (start + 1)) fuel
      | none => findFrom p text (start + 1) fuel

theorem findFrom_beyond {p : Program} {text : Array CodePoint} {start : Nat} (h : text.size < start) (fuel : Nat) :
    p.findFrom text start fuel = [] := by
  cases fuel with
  | zero => rfl
  | succ fuel => rw [Program.findFrom, if_pos h]

/-- The text of a group that has matched. -/
def State.groupText (s : State) (n : Nat) (t : Text) : Text :=
  match s.span? n with
  | some (a, b) => (t.take b).drop a
  | none => []

/-- The text of a group in all the matches. -/
def Program.findGroup (p : Program) (n : Nat) (t : Text) : List Text :=
  (p.findFrom t.toArray 0 (t.length + 1)).map (·.groupText n t)

section Runs

variable {x y : Step} {q r : CodePoint → Bool} {front back run rest : Text} {marks : Array (Option Nat)} {k : Next}
  {done : State}

/-! ## Leaves and loops at a place -/

theorem Step.Accepts.takes_front (h : x.Accepts (q · = true)) (front back : Text) :
    x.takes (front ++ back).toArray front.length = back.head?.any q := by
  have hbehind := h.takes_behind front back 0
  rw [Nat.add_zero] at hbehind
  rw [Bool.eq_iff_iff, hbehind, Option.any_eq_true, List.head?_eq_getElem?]

/-- A leaf takes the first code point of what follows. -/
theorem run_leaf_front (h : x.Accepts (q · = true)) (front back : Text) (marks : Array (Option Nat)) (k : Next) :
    (Node.leaf x).run (front ++ back).toArray ⟨front.length, marks⟩ k =
      if back.head?.any q then k ⟨front.length + 1, marks⟩ else none := by
  have htakes := h.takes_front front back
  have hunit := h.unit
  cases x with
  | any | one =>
    rw [← htakes]
    rfl
  | place | backref => cases hunit

/-- Looking behind for a leaf looks at the last code point in front. -/
theorem run_notBehind (h : x.Accepts (q · = true)) (front back : Text) (marks : Array (Option Nat)) (k : Next) :
    (Node.behind true (some 1) (.leaf x)).run (front ++ back).toArray ⟨front.length, marks⟩ k =
      if front.getLast?.any q then none else k ⟨front.length, marks⟩ := by
  rw [Node.run]
  dsimp only
  rcases List.eq_nil_or_concat front with rfl | ⟨before, c, rfl⟩
  · rfl
  · have hlength : (before.concat c).length - 1 = before.length := by simp
    have hpos : ¬ (before.concat c).length < 1 := by simp
    have hlast := run_leaf_front h before (c :: back) marks some
    rw [if_neg hpos, State.at_, hlength, List.concat_eq_append, List.append_assoc, List.singleton_append, hlast,
      List.head?_cons, List.getLast?_concat]
    cases (some c).any q <;> rfl

/-- The run that a loop over a leaf takes is the longest one. -/
theorem runLength_front (h : x.Accepts (q · = true)) (front back : Text) :
    runLength (front ++ back).toArray x front.length back.length = (back.takeWhile q).length := by
  induction back generalizing front with
  | nil => rfl
  | cons c back ih =>
    have hnext := ih (front ++ [c])
    rw [List.append_assoc, List.singleton_append, List.length_append, List.length_singleton] at hnext
    rw [List.length_cons, runLength, h.takes_front, List.head?_cons, Option.any_some, List.takeWhile_cons, hnext]
    split <;> rfl

theorem run_star_eq_fewer (h : x.Accepts (q · = true)) (front back : Text) (marks : Array (Option Nat)) (k : Next) :
    (Node.loop .greedy 0 none (.leaf x)).run (front ++ back).toArray ⟨front.length, marks⟩ k =
      fewer ⟨front.length, marks⟩ k 0 (back.takeWhile q).length := by
  have hroom : (front ++ back).toArray.size - front.length = back.length := by simp
  rw [Node.run, if_pos h.unit, unitLoop]
  dsimp only
  rw [hroom, runLength_front h, if_neg (Nat.not_lt_zero _)]

theorem fewer_of_some {s : State} {least n : Nat} (hle : least ≤ n) (hk : k (s.at_ (s.pos + n)) = some done) :
    fewer s k least n = some done := by
  cases n with
  | zero => rwa [fewer, if_pos (Nat.le_zero.mp hle)]
  | succ n => rw [fewer, if_neg (Nat.not_lt.mpr hle), hk]

theorem exists_of_fewer {s : State} {least n : Nat} (h : fewer s k least n = some done) :
    ∃ m ≤ n, k (s.at_ (s.pos + m)) = some done := by
  induction n with
  | zero =>
    rw [fewer] at h
    split at h
    · exact ⟨0, Nat.le_refl 0, h⟩
    · cases h
  | succ n ih =>
    rw [fewer] at h
    split at h
    · cases h
    · split at h
      · next d hd => exact ⟨n + 1, Nat.le_refl _, hd.trans h⟩
      · obtain ⟨m, hm, hk⟩ := ih h
        exact ⟨m, Nat.le_succ_of_le hm, hk⟩

/-- Whatever the loop has to give up, it ends in the same state. -/
theorem fewer_eq_some {s : State} {m n : Nat} (hm : m ≤ n)
    (hall : ∀ m ≤ n, k (s.at_ (s.pos + m)) = none ∨ k (s.at_ (s.pos + m)) = some done)
    (hk : k (s.at_ (s.pos + m)) = some done) : fewer s k 0 n = some done := by
  have hsome := (isSome_fewer 0 n).mpr ⟨m, Nat.zero_le m, hm, Option.isSome_iff_exists.mpr ⟨done, hk⟩⟩
  obtain ⟨d, hd⟩ := Option.isSome_iff_exists.mp hsome
  obtain ⟨m', hm', hk'⟩ := exists_of_fewer hd
  rcases hall m' hm' with hnone | hdone
  · cases hnone.symm.trans hk'
  · exact hd.trans (hk'.symm.trans hdone)

theorem takeWhile_run (hrun : ∀ c ∈ run, q c = true) (hrest : ∀ c ∈ rest.head?, q c = false) :
    (run ++ rest).takeWhile q = run := by
  have hstop : rest.takeWhile q = [] := by
    cases rest with
    | nil => rfl
    | cons c rest => exact List.takeWhile_cons_of_neg (by simp [hrest c rfl])
  rw [List.takeWhile_append_of_pos hrun, hstop, List.append_nil]

/-- What is behind a run does not go on with it. -/
theorem head?_dropWhile_run (q : CodePoint → Bool) (t : Text) : ∀ c ∈ (t.dropWhile q).head?, q c = false := by
  intro c hc
  have hnot := List.head?_dropWhile_not q t
  rw [hc] at hnot
  exact hnot

/-- A greedy loop takes the longest run if what follows succeeds there. -/
theorem run_star (h : x.Accepts (q · = true)) (hrun : ∀ c ∈ run, q c = true) (hrest : ∀ c ∈ rest.head?, q c = false)
    (hk : k ⟨(front ++ run).length, marks⟩ = some done) :
    (Node.loop .greedy 0 none (.leaf x)).run (front ++ (run ++ rest)).toArray ⟨front.length, marks⟩ k = some done := by
  rw [run_star_eq_fewer h, takeWhile_run hrun hrest]
  rw [List.length_append] at hk
  exact fewer_of_some (Nat.zero_le _) hk

/-- A leaf in the middle of a run takes what it needs, and the loop behind it the rest of the run. -/
theorem run_leaf_star (hx : x.Accepts (q · = true)) (hy : y.Accepts (r · = true))
    (hsub : ∀ c, r c = true → q c = true) (hrun : ∀ c ∈ run, q c = true) (hrest : ∀ c ∈ rest.head?, q c = false)
    (hk : k ⟨(front ++ run).length, marks⟩ = some done) :
    (Node.seq (.leaf y) (.loop .greedy 0 none (.leaf x))).run (front ++ (run ++ rest)).toArray
      ⟨front.length, marks⟩ k = if run.head?.any r then some done else none := by
  rw [Node.run, run_leaf_front hy]
  cases run with
  | nil =>
    -- What follows the run is no code point of it, so it is not one that the leaf takes.
    have hnot : ¬ rest.head?.any r = true := by
      intro h
      obtain ⟨c, hc, hr⟩ := (Option.any_eq_true ..).mp h
      exact absurd (hsub c hr) (by simp [hrest c hc])
    exact if_neg hnot
  | cons c run =>
    rw [List.cons_append, List.head?_cons, List.head?_cons, Option.any_some]
    split
    · have hlength : front.length + 1 = (front ++ [c]).length := by simp
      have happend : front ++ c :: (run ++ rest) = front ++ [c] ++ (run ++ rest) := by simp
      rw [hlength, happend]
      refine run_star hx (fun d hd => hrun d (List.mem_cons_of_mem c hd)) hrest ?_
      rwa [List.append_assoc]
    · rfl

/-- Where a run has to hold a code point of its own kind, the loops in front of it and behind it take the
    whole run. -/
theorem run_star_leaf_star (hx : x.Accepts (q · = true)) (hy : y.Accepts (r · = true))
    (hsub : ∀ c, r c = true → q c = true) (hrun : ∀ c ∈ run, q c = true) (hrest : ∀ c ∈ rest.head?, q c = false)
    (hk : k ⟨(front ++ run).length, marks⟩ = some done) :
    (Node.seq (.loop .greedy 0 none (.leaf x)) (.seq (.leaf y) (.loop .greedy 0 none (.leaf x)))).run
      (front ++ (run ++ rest)).toArray ⟨front.length, marks⟩ k = if run.any r then some done else none := by
  rw [Node.run, run_star_eq_fewer hx, takeWhile_run hrun hrest]
  -- Wherever the first loop stops, the leaf takes the next code point of the run, and then the rest of the
  -- run is taken, or the search goes back.
  have hbehind : ∀ m ≤ run.length,
      (Node.seq (.leaf y) (.loop .greedy 0 none (.leaf x))).run (front ++ (run ++ rest)).toArray
        ⟨front.length + m, marks⟩ k = if (run.drop m).head?.any r then some done else none := by
    intro m hm
    have happend : front ++ (run ++ rest) = front ++ run.take m ++ (run.drop m ++ rest) := by
      rw [List.append_assoc, ← List.append_assoc (run.take m), List.take_append_drop]
    have hlength : front.length + m = (front ++ run.take m).length := by
      rw [List.length_append, List.length_take_of_le hm]
    rw [happend, hlength]
    refine run_leaf_star hx hy hsub (fun c hc => hrun c (List.mem_of_mem_drop hc)) hrest ?_
    rwa [List.append_assoc, List.take_append_drop]
  split
  · next hany =>
    obtain ⟨c, hc, hr⟩ := List.any_eq_true.mp hany
    obtain ⟨m, hm, rfl⟩ := List.mem_iff_getElem.mp hc
    refine fewer_eq_some (Nat.le_of_lt hm) (fun m hm => ?_) ?_
    · have hm := hbehind m hm
      split at hm
      · exact .inr hm
      · exact .inl hm
    · refine (hbehind m (Nat.le_of_lt hm)).trans (if_pos ?_)
      rwa [List.head?_drop, List.getElem?_eq_getElem hm, Option.any_some]
  · next hany =>
    refine Option.eq_none_iff_forall_ne_some.mpr fun d hd => hany ?_
    obtain ⟨m, hm, hk'⟩ := exists_of_fewer hd
    have hdone := (hbehind m hm).symm.trans hk'
    split at hdone
    · next hhead =>
      obtain ⟨c, hc, hr⟩ := (Option.any_eq_true ..).mp hhead
      exact List.any_eq_true.mpr ⟨c, List.mem_of_mem_drop (List.mem_of_mem_head? hc), hr⟩
    · cases hdone

end Runs

end NoteAccess.Regex
