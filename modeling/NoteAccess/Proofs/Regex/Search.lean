/-
  NoteAccess.Proofs.Regex.Search

  What a search comes to, without regard to the order in which it tries things: whether it goes on
  to a success.  A choice does if one of its alternatives does (`isSome_run_choice`), whatever is
  taken out of them when they are read, and a loop over a leaf does behind any number of rounds
  within its bounds (`isSome_unitLoop`).

  In trees without flags of their own, compiling only settles what the leaves mean
  (`settle_eq_map`).
-/

import NoteAccess.Regex.Search

namespace NoteAccess.Regex

/-! ## Settled trees -/

/-- The tree with other leaves. -/
def Node.map {α β : Type} (f : α → β) : Node α → Node β
  | leaf a => .leaf (f a)
  | empty => .empty
  | seq a b => .seq (a.map f) (b.map f)
  | alt a b => .alt (a.map f) (b.map f)
  | group n a => .group n (a.map f)
  | flagged on off a => .flagged on off (a.map f)
  | loop g least most a => .loop g least most (a.map f)
  | atomic a => .atomic (a.map f)
  | ahead negated a => .ahead negated (a.map f)
  | behind negated width a => .behind negated width (a.map f)
  | ifGroup n a b => .ifGroup n (a.map f) (b.map f)

/-- The tree has no flags of its own, and nothing looks behind. -/
def Node.IsFlat {α : Type} : Node α → Prop
  | leaf _ | empty => True
  | flagged .. | behind .. => False
  | seq a b | alt a b | ifGroup _ a b => a.IsFlat ∧ b.IsFlat
  | group _ a | loop _ _ _ a | atomic a | ahead _ a => a.IsFlat

/-- The flags only settle what the leaves of such a tree mean. -/
theorem settle_eq_map {flags : Flags} (hflags : flags.template = false) {n : Node Atom} (h : n.IsFlat) :
    n.settle flags = .ok (n.map (Atom.step flags)) := by
  induction n with
  | leaf a => rfl
  | empty => rfl
  | seq a b iha ihb => rw [Node.settle, iha h.1, ihb h.2]; rfl
  | alt a b iha ihb => rw [Node.settle, iha h.1, ihb h.2]; rfl
  | group n a ih => rw [Node.settle, ih h]; rfl
  | flagged on off a => exact h.elim
  | loop g least most a ih => rw [Node.settle, hflags, ih h]; rfl
  | atomic a ih => rw [Node.settle, ih h]; rfl
  | ahead negated a ih => rw [Node.settle, ih h]; rfl
  | behind negated width a => exact h.elim
  | ifGroup n a b iha ihb => rw [Node.settle, iha h.1, ihb h.2]; rfl

/-- An expression is compiled if it is read and its flags can be settled. -/
theorem toOption_compile (flags : Flags) (t : Text) :
    (compile flags t).toOption = (read flags t).toOption.bind fun e =>
      (e.tree.settle e.flags).toOption.map fun tree => { tree, groups := e.groups } := by
  unfold compile
  cases read flags t with
  | error f => rfl
  | ok e =>
    have hmap : ∀ x : Except Failure (Node Step),
        (x >>= fun tree => pure ({ tree, groups := e.groups } : Program)).toOption =
          x.toOption.map fun tree => { tree, groups := e.groups } := by
      intro x
      cases x <;> rfl
    exact hmap (e.tree.settle e.flags)

section Lists

variable {α β : Type}

theorem Node.map_ofList (f : α → β) (ns : List (Node α)) : (ofList ns).map f = ofList (ns.map (Node.map f)) := by
  induction ns with
  | nil => rfl
  | cons n ns ih =>
    cases ns with
    | nil => rfl
    | cons m ms => exact congrArg (Node.seq (n.map f)) ih

theorem Node.map_ofChoices (f : α → β) (ns : List (Node α)) :
    (ofChoices ns).map f = ofChoices (ns.map (Node.map f)) := by
  induction ns with
  | nil => rfl
  | cons n ns ih =>
    cases ns with
    | nil => rfl
    | cons m ms => exact congrArg (Node.alt (n.map f)) ih

theorem Node.isFlat_ofList {ns : List (Node α)} : (ofList ns).IsFlat ↔ ∀ n ∈ ns, n.IsFlat := by
  induction ns with
  | nil => exact iff_of_true trivial fun n hn => absurd hn List.not_mem_nil
  | cons n ns ih =>
    cases ns with
    | nil => rw [List.forall_mem_singleton]; rfl
    | cons m ms => rw [List.forall_mem_cons, ← ih]; rfl

theorem Node.isFlat_ofChoices {ns : List (Node α)} : (ofChoices ns).IsFlat ↔ ∀ n ∈ ns, n.IsFlat := by
  induction ns with
  | nil => exact iff_of_true trivial fun n hn => absurd hn List.not_mem_nil
  | cons n ns ih =>
    cases ns with
    | nil => rw [List.forall_mem_singleton]; rfl
    | cons m ms => rw [List.forall_mem_cons, ← ih]; rfl

end Lists

/-! ## Sequences and choices -/

/-- Whether the program matches the whole of a text. -/
def Program.fullMatch (p : Program) (t : Text) : Bool :=
  (p.tree.run t.toArray ⟨0, Array.replicate (2 * p.groups) none⟩ fun s =>
    if s.pos = t.length then some s else none).isSome

section Search

variable {text : Array CodePoint} {s : State} {k : Next}

theorem run_ofList_cons (n : Node Step) (ns : List (Node Step)) (s : State) (k : Next) :
    (Node.ofList (n :: ns)).run text s k = n.run text s fun s' => (Node.ofList ns).run text s' k := by
  cases ns with
  | nil => rfl
  | cons m ms => rfl

theorem run_ofList_append (ns ms : List (Node Step)) (s : State) (k : Next) :
    (Node.ofList (ns ++ ms)).run text s k =
      (Node.ofList ns).run text s fun s' => (Node.ofList ms).run text s' k := by
  induction ns generalizing s with
  | nil => rfl
  | cons n ns ih =>
    rw [List.cons_append, run_ofList_cons, run_ofList_cons]
    exact congrArg (n.run text s) (funext fun s' => ih s')

/-- A choice goes on where one of its alternatives does. -/
theorem isSome_run_alt (a b : Node Step) :
    ((Node.alt a b).run text s k).isSome = ((a.run text s k).isSome || (b.run text s k).isSome) := by
  rw [Node.run]
  split
  · next h => rw [h]; rfl
  · next h => rw [h]; rfl

theorem isSome_run_ofChoices {ns : List (Node Step)} (hne : ns ≠ []) :
    ((Node.ofChoices ns).run text s k).isSome = ns.any fun n => (n.run text s k).isSome := by
  induction ns with
  | nil => exact absurd rfl hne
  | cons n ns ih =>
    cases ns with
    | nil => simp [Node.ofChoices]
    | cons m ms =>
      rw [List.any_cons, ← ih (List.cons_ne_nil _ _)]
      exact isSome_run_alt n _

/-- A leaf goes on in one way at most. -/
theorem run_leaf (x : Step) (s : State) (k : Next) :
    (Node.leaf x).run text s k = (x.run text s some).bind k := by
  rw [Node.run]
  unfold Step.run
  split
  · split <;> rfl
  · split
    · rfl
    · split <;> rfl
  · split <;> rfl

/-- A set takes the code point at hand. -/
theorem isSome_run_one (x : Charset) :
    ((Node.leaf (.one x)).run text s k).isSome = true ↔
      ∃ c, text[s.pos]? = some c ∧ x.contains c = true ∧ (k (s.at_ (s.pos + 1))).isSome = true := by
  have hrun : (Node.leaf (.one x)).run text s k =
      if (text[s.pos]?).any x.contains then k (s.at_ (s.pos + 1)) else none := rfl
  rw [hrun]
  cases htext : text[s.pos]? with
  | none => simp
  | some c =>
    rw [Option.any_some]
    split
    · next hc => simp [hc]
    · next hc => simp [hc]

/-! ## Loops -/

theorem isSome_fewer (least n : Nat) :
    (fewer s k least n).isSome = true ↔ ∃ m, least ≤ m ∧ m ≤ n ∧ (k (s.at_ (s.pos + m))).isSome = true := by
  induction n with
  | zero =>
    rw [fewer]
    split
    · next hleast =>
      constructor
      · exact fun hk => ⟨0, Nat.le_of_eq hleast, Nat.le_refl 0, hk⟩
      · rintro ⟨m, -, hm, hk⟩
        rw [Nat.le_zero.mp hm] at hk
        exact hk
    · next hleast =>
      refine iff_of_false Bool.false_ne_true ?_
      rintro ⟨m, hge, hm, -⟩
      omega
  | succ n ih =>
    have hsplit : (∃ m, least ≤ m ∧ m ≤ n + 1 ∧ (k (s.at_ (s.pos + m))).isSome = true) ↔
        (least ≤ n + 1 ∧ (k (s.at_ (s.pos + (n + 1)))).isSome = true) ∨
          ∃ m, least ≤ m ∧ m ≤ n ∧ (k (s.at_ (s.pos + m))).isSome = true := by
      constructor
      · rintro ⟨m, hge, hle, hk⟩
        rcases Nat.lt_or_eq_of_le hle with hlt | rfl
        · exact .inr ⟨m, hge, Nat.le_of_lt_succ hlt, hk⟩
        · exact .inl ⟨hge, hk⟩
      · rintro (⟨hge, hk⟩ | ⟨m, hge, hle, hk⟩)
        · exact ⟨n + 1, hge, Nat.le_refl _, hk⟩
        · exact ⟨m, hge, Nat.le_succ_of_le hle, hk⟩
    rw [hsplit, fewer]
    split
    · next hlt =>
      refine iff_of_false Bool.false_ne_true ?_
      rintro (⟨hge, -⟩ | ⟨m, hge, hle, -⟩) <;> omega
    · next hge =>
      split
      · next r hr => exact iff_of_true rfl (.inl ⟨Nat.not_lt.mp hge, by rw [hr]; rfl⟩)
      · next hnone =>
        rw [ih, or_iff_right]
        rintro ⟨-, hk⟩
        rw [hnone] at hk
        cases hk

/-- A run is as long as the leaf takes code points in a row, unless it is cut off. -/
theorem le_runLength {x : Step} {i m fuel : Nat} :
    m ≤ runLength text x i fuel ↔ m ≤ fuel ∧ ∀ j < m, x.takes text (i + j) = true := by
  induction fuel generalizing i m with
  | zero =>
    rw [runLength, Nat.le_zero, iff_self_and]
    rintro rfl j hj
    exact absurd hj (Nat.not_lt_zero j)
  | succ fuel ih =>
    cases m with
    | zero => exact iff_of_true (Nat.zero_le _) ⟨Nat.zero_le _, fun j hj => absurd hj (Nat.not_lt_zero j)⟩
    | succ m =>
      -- The code points behind the first one are counted from the next position.
      have hshift : (∀ j < m, x.takes text (i + (j + 1)) = true) ↔ ∀ j < m, x.takes text (i + 1 + j) = true :=
        forall₂_congr fun j _ => by rw [Nat.add_comm j, Nat.add_assoc]
      rw [Nat.forall_lt_succ_left, hshift, Nat.add_zero i, runLength]
      split
      · next hfirst => rw [Nat.add_le_add_iff_right, ih, and_iff_right hfirst, Nat.add_le_add_iff_right]
      · next hfirst =>
        refine iff_of_false (Nat.not_succ_le_zero m) ?_
        rintro ⟨-, htakes, -⟩
        exact hfirst htakes

theorem lt_size_of_takes {x : Step} {i : Nat} (h : x.takes text i = true) : i < text.size := by
  unfold Step.takes at h
  split at h
  · exact of_decide_eq_true h
  · obtain ⟨c, hc, -⟩ := (Option.any_eq_true ..).mp h
    exact (Array.getElem?_eq_some_iff.mp hc).1
  · cases h

/-- A greedy loop over a leaf goes on behind any number of code points within its bounds. -/
theorem isSome_unitLoop (x : Step) (least : Nat) (most : Option Nat) :
    (unitLoop text x .greedy least most s k).isSome = true ↔
      ∃ m, least ≤ m ∧ (∀ n ∈ most, m ≤ n) ∧ (∀ j < m, x.takes text (s.pos + j) = true) ∧
        (k (s.at_ (s.pos + m))).isSome = true := by
  have hsize : ∀ m, (∀ j < m, x.takes text (s.pos + j) = true) → m ≤ text.size - s.pos := by
    intro m htakes
    cases m with
    | zero => exact Nat.zero_le _
    | succ m =>
      have hlast := lt_size_of_takes (htakes m (Nat.lt_succ_self m))
      omega
  -- The run is cut off at the end of the text, and behind the most code points if there is a bound.
  obtain ⟨room, hrun, hroom⟩ : ∃ room,
      unitLoop text x .greedy least most s k =
        (if runLength text x s.pos room < least then none else fewer s k least (runLength text x s.pos room)) ∧
      ∀ m, (∀ j < m, x.takes text (s.pos + j) = true) → (m ≤ room ↔ ∀ n ∈ most, m ≤ n) := by
    cases most with
    | none =>
      refine ⟨text.size - s.pos, rfl, fun m htakes => iff_of_true (hsize m htakes) fun n hn => ?_⟩
      exact absurd hn (Option.not_mem_none n)
    | some n =>
      refine ⟨min n (text.size - s.pos), rfl, fun m htakes => ?_⟩
      simpa [Nat.le_min] using fun _ => hsize m htakes
  have hfewer : ∀ n, (if n < least then none else fewer s k least n).isSome = true ↔
      ∃ m, least ≤ m ∧ m ≤ n ∧ (k (s.at_ (s.pos + m))).isSome = true := by
    intro n
    split
    · next hlt =>
      refine iff_of_false Bool.false_ne_true ?_
      rintro ⟨m, hge, hle, -⟩
      omega
    · exact isSome_fewer least n
  rw [hrun, hfewer]
  refine exists_congr fun m => and_congr_right fun _ => ?_
  rw [le_runLength, and_congr_left (hroom m), and_assoc]

/-- A loop of at most one round goes on behind its body or where it is. -/
theorem isSome_run_optional (a b : Node Step) :
    ((Node.loop .greedy 0 (some 1) (.seq a b)).run text s k).isSome = true ↔
      ((Node.seq a b).run text s k).isSome = true ∨ (k s).isSome = true := by
  have hrun : (Node.loop .greedy 0 (some 1) (.seq a b)).run text s k =
      rounds ((Node.seq a b).run text) .greedy 0 (some 1) (0 + text.size + 3) 0 none s k := rfl
  -- There is no second round.
  have hsecond : ∀ s',
      rounds ((Node.seq a b).run text) .greedy 0 (some 1) (0 + text.size + 2) (0 + 1) (some s.pos) s' k = k s' :=
    fun _ => rfl
  have hfirst : (decide (0 < 1) && (none : Option Nat) != some s.pos) = true := rfl
  rw [hrun, rounds.eq_def]
  dsimp only
  rw [if_neg (Nat.not_lt_zero 0), if_pos hfirst]
  simp only [hsecond]
  split
  · next r hr => rw [hr]; simp
  · next hnone => rw [hnone]; simp

end Search

/-! ## Sets -/

/-- Whether a member of a set holds a code point, where letter case matters. -/
def SetItem.holds (flags : Flags) (c : CodePoint) (i : SetItem) : Bool :=
  (i.members .keep flags.ascii).1.any (·.holds c)

section Sets

variable {flags : Flags} (hflags : flags.ignoreCase = false)

include hflags

theorem ofFlags_eq_keep : Fold.ofFlags flags = .keep := by
  rw [Fold.ofFlags, hflags]
  rfl

theorem contains_ofItems (negated : Bool) (items : List SetItem) (c : CodePoint) :
    (Charset.ofItems flags negated items).contains c = (items.any (·.holds flags c) != negated) := by
  have hkept : ∀ i : SetItem, (i.members .keep flags.ascii).2 = false := by
    intro i
    cases i <;> rfl
  have hfold : ((items.map (SetItem.members .keep flags.ascii)).any (·.2)) = false := by
    simp [List.any_map, hkept]
  unfold Charset.ofItems Charset.contains
  rw [ofFlags_eq_keep hflags]
  simp only [hfold, Bool.false_eq_true, if_false, Fold.apply, List.any_flatMap, List.any_map]
  rfl

theorem contains_ofChar (negated : Bool) (c d : CodePoint) :
    (Charset.ofChar flags negated c).contains d = ((d == c) != negated) := by
  unfold Charset.ofChar Charset.contains
  rw [ofFlags_eq_keep hflags]
  simp [Fold.hasCase, Fold.apply, Member.holds]

end Sets

theorem holds_single (flags : Flags) (c d : CodePoint) : (SetItem.single c).holds flags d = (d == c) := by
  simp [SetItem.holds, SetItem.members, Member.holds]

theorem holds_range (flags : Flags) (lo hi d : CodePoint) :
    (SetItem.range lo hi).holds flags d = (decide (lo ≤ d) && decide (d ≤ hi)) := by
  simp [SetItem.holds, SetItem.members, Member.holds]

/-! ## Alternatives -/

section Alternatives

variable {α β : Type}

theorem mapM_cons_eq_some {f : α → Option β} {x : α} {xs : List α} {zs : List β} :
    (x :: xs).mapM f = some zs ↔ ∃ y ys, f x = some y ∧ xs.mapM f = some ys ∧ zs = y :: ys := by
  rw [List.mapM_cons]
  constructor
  · intro h
    obtain ⟨y, hy, hrest⟩ := Option.bind_eq_some_iff.mp h
    obtain ⟨ys, hys, he⟩ := Option.bind_eq_some_iff.mp hrest
    cases he
    exact ⟨y, ys, hy, hys, rfl⟩
  · rintro ⟨y, ys, hy, hys, rfl⟩
    rw [hy, hys]
    rfl

theorem mem_of_mapM {f : α → Option β} {xs : List α} {ys : List β} (h : xs.mapM f = some ys) {y : β} :
    y ∈ ys ↔ ∃ x ∈ xs, f x = some y := by
  induction xs generalizing ys with
  | nil =>
    rw [List.mapM_nil] at h
    cases h
    simp
  | cons x xs ih =>
    obtain ⟨z, zs, hz, hzs, rfl⟩ := mapM_cons_eq_some.mp h
    rw [List.mem_cons, ih hzs]
    simp only [List.mem_cons, exists_eq_or_imp, hz, Option.some.injEq, eq_comm (a := y)]

theorem exists_of_mapM {f : α → Option β} {xs : List α} {ys : List β} (h : xs.mapM f = some ys) :
    ∀ x ∈ xs, ∃ y, f x = some y := by
  induction xs generalizing ys with
  | nil => exact fun x hx => absurd hx List.not_mem_nil
  | cons x xs ih =>
    obtain ⟨z, zs, hz, hzs, rfl⟩ := mapM_cons_eq_some.mp h
    exact List.forall_mem_cons.mpr ⟨⟨z, hz⟩, ih hzs⟩

/-- What a partial map comes from, if there is but one thing that each value comes from. -/
theorem eq_map_of_mapM {f : α → Option β} {g : β → α} (h : ∀ x y, f x = some y → x = g y) {xs : List α} {ys : List β}
    (hmap : xs.mapM f = some ys) : xs = ys.map g := by
  induction xs generalizing ys with
  | nil =>
    rw [List.mapM_nil] at hmap
    cases hmap
    rfl
  | cons x xs ih =>
    obtain ⟨y, zs, hy, hzs, rfl⟩ := mapM_cons_eq_some.mp hmap
    rw [List.map_cons, ← h x y hy, ← ih hzs]

/-- The alternatives are what is left of them behind the shared leaf. -/
theorem eq_map_of_sharedHead? {branches : List (List (Node Atom))} {a : Atom} {rests : List (List (Node Atom))}
    (h : Reader.sharedHead? branches = some (a, rests)) : branches = rests.map (.leaf a :: ·) := by
  unfold Reader.sharedHead? at h
  split at h
  · next b tail others =>
    obtain ⟨found, hfound, he⟩ := Option.map_eq_some_iff.mp h
    cases he
    refine eq_map_of_mapM (fun branch rest hrest => ?_) hfound
    split at hrest
    · split at hrest
      · next hb =>
        cases hrest
        rw [hb]
      · cases hrest
    · cases hrest
  · cases h

/-- The members of a set that an alternative amounts to. -/
def branchItems? (branch : List (Node Atom)) : Option (List SetItem) :=
  match branch with
  | [.leaf (.char c)] => some [SetItem.single c]
  | [.leaf (.set false items)] => some items
  | _ => none

section Choices

variable {text : Array CodePoint} {s : State} {k : Next} {flags : Flags} (hflags : flags.ignoreCase = false)
  {branches : List (List (Node Atom))}

include hflags

theorem isSome_run_set (items : List SetItem) :
    ((Node.leaf (Atom.step flags (.set false items))).run text s k).isSome = true ↔
      ∃ c, text[s.pos]? = some c ∧ (∃ i ∈ items, i.holds flags c = true) ∧ (k (s.at_ (s.pos + 1))).isSome = true := by
  rw [Atom.step, isSome_run_one]
  simp only [contains_ofItems hflags, Bool.bne_false, List.any_eq_true]

theorem isSome_run_branch {branch : List (Node Atom)} {items : List SetItem} (h : branchItems? branch = some items) :
    (((Node.ofList branch).map (Atom.step flags)).run text s k).isSome = true ↔
      ((Node.leaf (Atom.step flags (.set false items))).run text s k).isSome = true := by
  unfold branchItems? at h
  split at h
  · cases h
    rw [isSome_run_set hflags]
    refine (isSome_run_one _).trans ?_
    simp only [contains_ofChar hflags, Bool.bne_false, List.mem_singleton, exists_eq_left, holds_single]
  · cases h
    rfl
  · cases h

/-- A set in place of alternatives that are single code points and sets. -/
theorem isSome_run_asSet? {items : List SetItem} (h : Reader.asSet? branches = some items) :
    ((Node.leaf (Atom.step flags (.set false items))).run text s k).isSome = true ↔
      ∃ b ∈ branches, (((Node.ofList b).map (Atom.step flags)).run text s k).isSome = true := by
  obtain ⟨found, hfound, rfl⟩ := Option.map_eq_some_iff.mp h
  have hfound : branches.mapM branchItems? = some found := hfound
  -- A member of the set is one of an alternative, which takes the same code points.
  rw [isSome_run_set hflags]
  simp only [List.mem_eraseDups, List.mem_flatten]
  constructor
  · rintro ⟨c, hc, ⟨i, ⟨items, hitems, hi⟩, hholds⟩, hk⟩
    obtain ⟨b, hb, hbitems⟩ := (mem_of_mapM hfound).mp hitems
    refine ⟨b, hb, (isSome_run_branch hflags hbitems).mpr ?_⟩
    exact (isSome_run_set hflags items).mpr ⟨c, hc, ⟨i, hi, hholds⟩, hk⟩
  · rintro ⟨b, hb, hrun⟩
    obtain ⟨items, hbitems⟩ := exists_of_mapM hfound b hb
    have hitems := (mem_of_mapM hfound).mpr ⟨b, hb, hbitems⟩
    rw [isSome_run_branch hflags hbitems, isSome_run_set hflags] at hrun
    obtain ⟨c, hc, ⟨i, hi, hholds⟩, hk⟩ := hrun
    exact ⟨c, hc, ⟨i, ⟨items, hitems, hi⟩, hholds⟩, hk⟩

omit hflags in
theorem isSome_run_branches (hne : branches ≠ []) :
    (((Node.ofChoices (branches.map Node.ofList)).map (Atom.step flags)).run text s k).isSome = true ↔
      ∃ b ∈ branches, (((Node.ofList b).map (Atom.step flags)).run text s k).isSome = true := by
  rw [Node.map_ofChoices, isSome_run_ofChoices (by simpa using hne), List.any_map, List.any_map, List.any_eq_true]
  rfl

/-- A choice goes on where one of its alternatives does, whatever is taken out of them. -/
theorem isSome_run_choice (hne : branches ≠ []) (fuel : Nat) (s : State) :
    (((Node.ofList (Reader.choice branches fuel)).map (Atom.step flags)).run text s k).isSome = true ↔
      ∃ b ∈ branches, (((Node.ofList b).map (Atom.step flags)).run text s k).isSome = true := by
  induction fuel generalizing branches s with
  | zero => exact isSome_run_branches hne
  | succ fuel ih =>
    rw [Reader.choice]
    split
    · next a rests hshared =>
      have hbranches := eq_map_of_sharedHead? hshared
      subst hbranches
      have hrests : rests ≠ [] := by
        rintro rfl
        exact hne rfl
      -- Behind the shared leaf the choice is between the rests.
      have hbehind : ∀ ns : List (Node Atom), ((Node.ofList (.leaf a :: ns)).map (Atom.step flags)).run text s k =
          ((Atom.step flags a).run text s some).bind
            fun s' => ((Node.ofList ns).map (Atom.step flags)).run text s' k := by
        intro ns
        rw [Node.map_ofList, List.map_cons, run_ofList_cons, Node.map, run_leaf, Node.map_ofList]
      have hmem : (∃ b ∈ rests.map (.leaf a :: ·),
            (((Node.ofList b).map (Atom.step flags)).run text s k).isSome = true) ↔
          ∃ r ∈ rests, (((Node.ofList (.leaf a :: r)).map (Atom.step flags)).run text s k).isSome = true := by
        constructor
        · rintro ⟨_, hb, hrun⟩
          obtain ⟨r, hr, rfl⟩ := List.mem_map.mp hb
          exact ⟨r, hr, hrun⟩
        · rintro ⟨r, hr, hrun⟩
          exact ⟨_, List.mem_map_of_mem hr, hrun⟩
      rw [hmem]
      simp only [hbehind]
      cases (Atom.step flags a).run text s some with
      | none => simp
      | some s' => exact ih hrests s'
    · split
      · next items hset => exact isSome_run_asSet? hflags hset
      · exact isSome_run_branches hne

end Choices

theorem isFlat_ofBranches {branches : List (List (Node Atom))} (h : ∀ b ∈ branches, ∀ n ∈ b, n.IsFlat) :
    (Node.ofChoices (branches.map Node.ofList)).IsFlat := by
  refine Node.isFlat_ofChoices.mpr fun n hn => ?_
  obtain ⟨b, hb, rfl⟩ := List.mem_map.mp hn
  exact Node.isFlat_ofList.mpr (h b hb)

theorem isFlat_choice {branches : List (List (Node Atom))} (h : ∀ b ∈ branches, ∀ n ∈ b, n.IsFlat) (fuel : Nat) :
    ∀ n ∈ Reader.choice branches fuel, n.IsFlat := by
  induction fuel generalizing branches with
  | zero => exact List.forall_mem_singleton.mpr (isFlat_ofBranches h)
  | succ fuel ih =>
    rw [Reader.choice]
    split
    · next a rests hshared =>
      rw [eq_map_of_sharedHead? hshared] at h
      refine List.forall_mem_cons.mpr ⟨trivial, ih fun r hr n hn => ?_⟩
      exact h _ (List.mem_map_of_mem hr) n (List.mem_cons_of_mem _ hn)
    · split
      · exact List.forall_mem_singleton.mpr trivial
      · exact List.forall_mem_singleton.mpr (isFlat_ofBranches h)

end Alternatives

end NoteAccess.Regex
