/-
  NoteAccess.Proofs.Glob.Choices

  Patterns as trees of groups, and the choices that they stand for: an alternative for each group,
  the leftmost group varying slowest (`Tree.choices`).  Written as a pattern (`Tree.text`), a tree
  is expanded to its choices (`expandBraces_text`).  That takes nested calls, one more than the most
  groups that a choice comes by (`Tree.turns`), and if there is no room for them the expansion fails
  (`expandWithin_text`).

  The scans that look for a group and for the commas of its body read the text of a tree in one
  go, whatever stands behind it (`Tree.scanGroup_text`, `Tree.splitBody_text`).
-/

import NoteAccess.Proofs.Glob.Expansion
import NoteAccess.Proofs.Glob.Segments
import NoteAccess.Stack

namespace NoteAccess.Glob

/-! ## Trees -/

mutual

/-- A pattern: code points and groups, one after the other. -/
inductive Tree where
  | done
  | literal (c : CodePoint) (rest : Tree)
  | group (alternatives : Branches) (rest : Tree)

/-- The alternatives of a group, of which there are two or more. -/
inductive Branches where
  | two (first second : Tree)
  | more (first : Tree) (others : Branches)

end

/-- The alternatives in order. -/
def Branches.toList : Branches → List Tree
  | two first second => [first, second]
  | more first others => first :: others.toList

mutual

/-- The pattern as it is written. -/
def Tree.text : Tree → Text
  | .done => []
  | .literal c rest => c :: rest.text
  | .group alternatives rest =>
    CodePoint.openBrace :: (alternatives.text ++ CodePoint.closeBrace :: rest.text)

/-- Alternatives have commas between them. -/
def Branches.text : Branches → Text
  | .two first second => first.text ++ CodePoint.comma :: second.text
  | .more first others => first.text ++ CodePoint.comma :: others.text

end

mutual

/-- What the pattern stands for: one alternative is chosen for each group, and the choices of a
    group stay while those behind it vary. -/
def Tree.choices : Tree → List Text
  | .done => [[]]
  | .literal c rest => rest.choices.map (c :: ·)
  | .group alternatives rest => alternatives.choices.flatMap fun u => rest.choices.map (u ++ ·)

/-- What is chosen from the alternatives, one after the other. -/
def Branches.choices : Branches → List Text
  | .two first second => first.choices ++ second.choices
  | .more first others => first.choices ++ others.choices

end

mutual

/-- The most groups that are come by when an alternative is chosen for each. -/
def Tree.turns : Tree → Nat
  | .done => 0
  | .literal _ rest => rest.turns
  | .group alternatives rest => alternatives.turns + 1 + rest.turns

/-- The most groups in an alternative. -/
def Branches.turns : Branches → Nat
  | .two first second => max first.turns second.turns
  | .more first others => max first.turns others.turns

end

/-- Whether a code point stands for itself, inside a group or outside of all groups. -/
def isOrdinary (inside : Bool) (c : CodePoint) : Bool :=
  c != CodePoint.openBrace && c != CodePoint.closeBrace && c != CodePoint.backslash &&
    !(inside && c == CodePoint.comma)

mutual

/-- Whether all literal code points stand for themselves; in a group a comma does not. -/
def Tree.isPlain (inside : Bool) : Tree → Bool
  | .done => true
  | .literal c rest => isOrdinary inside c && rest.isPlain inside
  | .group alternatives rest => alternatives.isPlain && rest.isPlain inside

/-- Whether this is so in all alternatives. -/
def Branches.isPlain : Branches → Bool
  | .two first second => first.isPlain true && second.isPlain true
  | .more first others => first.isPlain true && others.isPlain

end

theorem isOrdinary_iff {inside : Bool} {c : CodePoint} :
    isOrdinary inside c = true ↔ c ≠ CodePoint.openBrace ∧ c ≠ CodePoint.closeBrace ∧
      c ≠ CodePoint.backslash ∧ (inside = true → c ≠ CodePoint.comma) := by
  simp only [isOrdinary, Bool.and_eq_true, bne_iff_ne, Bool.not_eq_true', Bool.and_eq_false_iff,
    beq_eq_false_iff_ne, and_assoc]
  cases inside <;> simp

/-- What stands for itself in a group does so outside, too. -/
theorem isOrdinary_outside {inside : Bool} {c : CodePoint} (h : isOrdinary inside c = true) :
    isOrdinary false c = true := by
  obtain ⟨hopen, hclose, hback, -⟩ := isOrdinary_iff.mp h
  exact isOrdinary_iff.mpr ⟨hopen, hclose, hback, fun hfalse => absurd hfalse Bool.false_ne_true⟩

theorem Tree.isPlain_outside {inside : Bool} {t : Tree} (h : t.isPlain inside = true) :
    t.isPlain false = true := by
  match t with
  | .done => rfl
  | .literal c rest =>
    rw [isPlain, Bool.and_eq_true] at h ⊢
    exact ⟨isOrdinary_outside h.1, isPlain_outside h.2⟩
  | .group alternatives rest =>
    rw [isPlain, Bool.and_eq_true] at h ⊢
    exact ⟨h.1, isPlain_outside h.2⟩

theorem Branches.isPlain_of_mem {b : Branches} (h : b.isPlain = true) :
    ∀ t ∈ b.toList, t.isPlain true = true := by
  match b with
  | .two first second =>
    rw [isPlain, Bool.and_eq_true] at h
    exact List.forall_mem_cons.mpr ⟨h.1, List.forall_mem_singleton.mpr h.2⟩
  | .more first others =>
    rw [isPlain, Bool.and_eq_true] at h
    exact List.forall_mem_cons.mpr ⟨h.1, isPlain_of_mem h.2⟩

/-! ## Looking for a group -/

section Scan

variable {before body rest : Text} {depth : Nat}

theorem scanGroup_openBrace :
    scanGroup false before (some (depth, body)) (CodePoint.openBrace :: rest) =
      scanGroup false before (some (depth + 1, CodePoint.openBrace :: body)) rest := rfl

theorem scanGroup_closeBrace :
    scanGroup false before (some (depth + 1, body)) (CodePoint.closeBrace :: rest) =
      scanGroup false before (some (depth, CodePoint.closeBrace :: body)) rest := rfl

theorem scanGroup_comma :
    scanGroup false before (some (depth, body)) (CodePoint.comma :: rest) =
      scanGroup false before (some (depth, CodePoint.comma :: body)) rest := rfl

theorem scanGroup_ordinary {inside : Bool} {c : CodePoint} (h : isOrdinary inside c = true) :
    scanGroup false before (some (depth, body)) (c :: rest) =
      scanGroup false before (some (depth, c :: body)) rest := by
  obtain ⟨hopen, hclose, hback, -⟩ := isOrdinary_iff.mp h
  rw [scanGroup.eq_def]
  dsimp only
  rw [if_neg Bool.false_ne_true, if_neg hback, if_neg hopen, if_neg hclose]

/-- The group ends, and it is found if its body has several pieces. -/
theorem scanGroup_end (h : 2 ≤ (splitBody 0 body.reverse).length) :
    scanGroup false before (some (0, body)) (CodePoint.closeBrace :: rest) =
      some ⟨before.reverse, body.reverse, rest⟩ := by
  have hclose : scanGroup false before (some (0, body)) (CodePoint.closeBrace :: rest) =
      if 2 ≤ (splitBody 0 body.reverse).length then some ⟨before.reverse, body.reverse, rest⟩
      else scanGroup false (CodePoint.closeBrace :: body ++ CodePoint.openBrace :: before) none rest := rfl
  rw [hclose, if_pos h]

end Scan

mutual

/-- Inside a group, the text of a tree is read to its end: groups in it are closed again. -/
theorem Tree.scanGroup_text (t : Tree) {inside : Bool} (h : t.isPlain inside = true) (before body rest : Text)
    (depth : Nat) :
    scanGroup false before (some (depth, body)) (t.text ++ rest) =
      scanGroup false before (some (depth, t.text.reverse ++ body)) rest := by
  match t with
  | .done => rfl
  | .literal c t =>
    rw [Tree.isPlain, Bool.and_eq_true] at h
    rw [Tree.text, List.cons_append, scanGroup_ordinary h.1, t.scanGroup_text h.2, List.reverse_cons,
      List.append_assoc, List.singleton_append]
  | .group alternatives t =>
    rw [Tree.isPlain, Bool.and_eq_true] at h
    have hwhole : (CodePoint.openBrace :: (alternatives.text ++ CodePoint.closeBrace :: t.text)) ++ rest =
        CodePoint.openBrace :: (alternatives.text ++ (CodePoint.closeBrace :: (t.text ++ rest))) := by simp
    have hbody : (CodePoint.openBrace :: (alternatives.text ++ CodePoint.closeBrace :: t.text)).reverse ++ body =
        t.text.reverse ++ (CodePoint.closeBrace ::
          (alternatives.text.reverse ++ (CodePoint.openBrace :: body))) := by simp
    -- The alternatives are read one level deeper, and the brace behind them leads back.
    rw [Tree.text, hwhole, hbody, scanGroup_openBrace, alternatives.scanGroup_text h.1, scanGroup_closeBrace,
      t.scanGroup_text h.2]

theorem Branches.scanGroup_text (b : Branches) (h : b.isPlain = true) (before body rest : Text) (depth : Nat) :
    scanGroup false before (some (depth, body)) (b.text ++ rest) =
      scanGroup false before (some (depth, b.text.reverse ++ body)) rest := by
  match b with
  | .two first second =>
    rw [Branches.isPlain, Bool.and_eq_true] at h
    rw [Branches.text, List.append_assoc, List.cons_append, first.scanGroup_text h.1, scanGroup_comma,
      second.scanGroup_text h.2]
    simp
  | .more first others =>
    rw [Branches.isPlain, Bool.and_eq_true] at h
    rw [Branches.text, List.append_assoc, List.cons_append, first.scanGroup_text h.1, scanGroup_comma,
      others.scanGroup_text h.2]
    simp

end

/-! ## Looking for commas -/

mutual

/-- In a body, the text of a tree belongs to the first piece. -/
theorem Tree.splitBody_text (t : Tree) (h : t.isPlain true = true) {depth : Int} (hdepth : 0 ≤ depth)
    (rest : Text) :
    splitBody depth (t.text ++ rest) = (splitBody depth rest).modifyHead (t.text ++ ·) := by
  match t with
  | .done =>
    obtain ⟨piece, pieces, hrest⟩ := List.exists_cons_of_ne_nil (splitBody_ne_nil depth rest)
    rw [Tree.text, List.nil_append, hrest]
    rfl
  | .literal c t =>
    rw [Tree.isPlain, Bool.and_eq_true] at h
    obtain ⟨hopen, hclose, -, hcomma⟩ := isOrdinary_iff.mp h.1
    have hsame : depthAfter depth c = depth := by rw [depthAfter, if_neg hopen, if_neg hclose]
    rw [Tree.text, List.cons_append, splitBody_cons fun hc => absurd hc (hcomma rfl), hsame,
      t.splitBody_text h.2 hdepth, List.modifyHead_modifyHead]
    rfl
  | .group alternatives t =>
    rw [Tree.isPlain, Bool.and_eq_true] at h
    have hwhole : (CodePoint.openBrace :: (alternatives.text ++ CodePoint.closeBrace :: t.text)) ++ rest =
        CodePoint.openBrace :: (alternatives.text ++ (CodePoint.closeBrace :: (t.text ++ rest))) := by simp
    have hin : depthAfter depth CodePoint.openBrace = depth + 1 := rfl
    have hout : depthAfter (depth + 1) CodePoint.closeBrace = depth := Int.add_sub_cancel depth 1
    -- One level deeper the commas between the alternatives end no piece.
    rw [Tree.text, hwhole, splitBody_cons (fun hc => absurd hc (by decide)), hin,
      alternatives.splitBody_text h.1 (by omega), splitBody_cons (fun hc => absurd hc (by decide)), hout,
      t.splitBody_text h.2 hdepth]
    simp only [List.modifyHead_modifyHead]
    congr 1
    funext piece
    simp

/-- Deeper inside, so do alternatives with their commas. -/
theorem Branches.splitBody_text (b : Branches) (h : b.isPlain = true) {depth : Int} (hdepth : 1 ≤ depth)
    (rest : Text) :
    splitBody depth (b.text ++ rest) = (splitBody depth rest).modifyHead (b.text ++ ·) := by
  have hcomma : ∀ rest, splitBody depth (CodePoint.comma :: rest) =
      (splitBody depth rest).modifyHead (CodePoint.comma :: ·) :=
    fun rest => splitBody_cons (fun _ => by omega) rest
  match b with
  | .two first second =>
    rw [Branches.isPlain, Bool.and_eq_true] at h
    rw [Branches.text, List.append_assoc, List.cons_append, first.splitBody_text h.1 (by omega), hcomma,
      second.splitBody_text h.2 (by omega)]
    simp only [List.modifyHead_modifyHead]
    congr 1
    funext piece
    simp
  | .more first others =>
    rw [Branches.isPlain, Bool.and_eq_true] at h
    rw [Branches.text, List.append_assoc, List.cons_append, first.splitBody_text h.1 (by omega), hcomma,
      others.splitBody_text h.2 hdepth]
    simp only [List.modifyHead_modifyHead]
    congr 1
    funext piece
    simp

end

/-- A tree by itself is a single piece, up to a comma. -/
theorem Tree.splitBody_text_comma {t : Tree} (h : t.isPlain true = true) (rest : Text) :
    splitBody 0 (t.text ++ CodePoint.comma :: rest) = t.text :: splitBody 0 rest := by
  rw [t.splitBody_text h (Int.le_refl 0), splitBody_comma, List.modifyHead_cons, List.append_nil]

theorem Tree.splitBody_text_self {t : Tree} (h : t.isPlain true = true) : splitBody 0 t.text = [t.text] := by
  have hnil := t.splitBody_text h (Int.le_refl 0) []
  rwa [List.append_nil, splitBody, List.modifyHead_cons, List.append_nil] at hnil

/-- The pieces of a body are the alternatives that it was written with. -/
theorem Branches.splitBody_text_self {b : Branches} (h : b.isPlain = true) :
    splitBody 0 b.text = b.toList.map Tree.text := by
  match b with
  | .two first second =>
    rw [isPlain, Bool.and_eq_true] at h
    rw [text, Tree.splitBody_text_comma h.1, Tree.splitBody_text_self h.2]
    rfl
  | .more first others =>
    rw [isPlain, Bool.and_eq_true] at h
    rw [text, Tree.splitBody_text_comma h.1, splitBody_text_self h.2]
    rfl

theorem Branches.two_le_length (b : Branches) : 2 ≤ b.toList.length := by
  match b with
  | .two first second => exact Nat.le_refl 2
  | .more first others => exact Nat.le_succ_of_le others.two_le_length

/-! ## The first group -/

/-- A tree behind another one. -/
def Tree.append : Tree → Tree → Tree
  | .done, u => u
  | .literal c t, u => .literal c (t.append u)
  | .group alternatives t, u => .group alternatives (t.append u)

/-- A tree behind code points. -/
def Tree.behind (lead : Text) (t : Tree) : Tree := lead.foldr .literal t

theorem Tree.text_append (t u : Tree) : (t.append u).text = t.text ++ u.text := by
  match t with
  | .done => rfl
  | .literal c t => rw [append, text, text, t.text_append u, List.cons_append]
  | .group alternatives t =>
    rw [append, text, text, t.text_append u, List.cons_append, List.append_assoc, List.cons_append]

theorem Tree.isPlain_append {inside : Bool} {t u : Tree} (ht : t.isPlain inside = true)
    (hu : u.isPlain inside = true) : (t.append u).isPlain inside = true := by
  match t with
  | .done => exact hu
  | .literal c t =>
    rw [isPlain, Bool.and_eq_true] at ht
    rw [append, isPlain, ht.1, Bool.true_and, isPlain_append ht.2 hu]
  | .group alternatives t =>
    rw [isPlain, Bool.and_eq_true] at ht
    rw [append, isPlain, ht.1, Bool.true_and, isPlain_append ht.2 hu]

/-- What is chosen from the first tree stays while the choices of the second vary. -/
theorem Tree.choices_append (t u : Tree) :
    (t.append u).choices = t.choices.flatMap fun s => u.choices.map (s ++ ·) := by
  match t with
  | .done => simp [append, choices]
  | .literal c t =>
    simp [append, choices, t.choices_append u, List.map_flatMap, List.flatMap_map, Function.comp_def]
  | .group alternatives t =>
    simp [append, choices, t.choices_append u, List.map_flatMap, List.flatMap_map, List.flatMap_assoc,
      Function.comp_def]

theorem Branches.choices_eq (b : Branches) : b.choices = b.toList.flatMap Tree.choices := by
  match b with
  | .two first second => simp [choices, toList]
  | .more first others => simp [choices, toList, others.choices_eq]

theorem Tree.text_behind (lead : Text) (t : Tree) : (behind lead t).text = lead ++ t.text := by
  induction lead with
  | nil => rfl
  | cons c lead ih => exact congrArg (c :: ·) ih

theorem Tree.choices_behind (lead : Text) (t : Tree) : (behind lead t).choices = t.choices.map (lead ++ ·) := by
  induction lead with
  | nil => exact (List.map_id _).symm
  | cons c lead ih =>
    have hcons : (behind (c :: lead) t).choices = (behind lead t).choices.map (c :: ·) := rfl
    rw [hcons, ih, List.map_map]
    rfl

theorem Tree.isPlain_behind {lead : Text} {t : Tree} :
    (behind lead t).isPlain false = true ↔ (∀ c ∈ lead, isOrdinary false c = true) ∧ t.isPlain false = true := by
  induction lead with
  | nil => exact (and_iff_right fun c hc => absurd hc List.not_mem_nil).symm
  | cons c lead ih =>
    have hcons : (behind (c :: lead) t).isPlain false = (isOrdinary false c && (behind lead t).isPlain false) := rfl
    rw [hcons, Bool.and_eq_true, ih, List.forall_mem_cons, and_assoc]

/-- A tree is code points, with a group behind them if there is one. -/
theorem Tree.eq_behind (t : Tree) :
    (∃ lead, t = behind lead .done) ∨ ∃ lead alternatives rest, t = behind lead (.group alternatives rest) := by
  match t with
  | .done => exact .inl ⟨[], rfl⟩
  | .literal c t =>
    rcases t.eq_behind with ⟨lead, ht⟩ | ⟨lead, alternatives, rest, ht⟩
    · exact .inl ⟨c :: lead, congrArg (literal c) ht⟩
    · exact .inr ⟨c :: lead, alternatives, rest, congrArg (literal c) ht⟩
  | .group alternatives t => exact .inr ⟨[], alternatives, t, rfl⟩

/-- No group begins before code points that stand for themselves end. -/
theorem scanGroup_append {lead : Text} (h : ∀ c ∈ lead, isOrdinary false c = true) (before rest : Text) :
    scanGroup false before none (lead ++ rest) = scanGroup false (lead.reverse ++ before) none rest := by
  induction lead generalizing before with
  | nil => rfl
  | cons c lead ih =>
    obtain ⟨hc, hlead⟩ := List.forall_mem_cons.mp h
    obtain ⟨hopen, -, hback, -⟩ := isOrdinary_iff.mp hc
    rw [List.cons_append, scanGroup, if_neg Bool.false_ne_true, if_neg hback, if_neg hopen, ih hlead,
      List.reverse_cons, List.append_assoc, List.singleton_append]

/-- The first group of a tree is the first one that is found. -/
theorem firstGroup?_behind {lead : Text} {alternatives : Branches} {rest : Tree}
    (hlead : ∀ c ∈ lead, isOrdinary false c = true) (h : alternatives.isPlain = true) :
    firstGroup? (Tree.behind lead (.group alternatives rest)).text = some ⟨lead, alternatives.text, rest.text⟩ := by
  have hlength : 2 ≤ (splitBody 0 alternatives.text).length := by
    rw [Branches.splitBody_text_self h, List.length_map]
    exact alternatives.two_le_length
  have hopen : ∀ rest, scanGroup false lead.reverse none (CodePoint.openBrace :: rest) =
      scanGroup false lead.reverse (some (0, [])) rest := fun _ => rfl
  have hend : 2 ≤ (splitBody 0 alternatives.text.reverse.reverse).length := by
    rwa [List.reverse_reverse]
  rw [firstGroup?, Tree.text_behind, scanGroup_append hlead, List.append_nil, Tree.text, hopen,
    alternatives.scanGroup_text h, List.append_nil, scanGroup_end hend, List.reverse_reverse,
    List.reverse_reverse]

/-! ## The expansion of a tree -/

/-- The patterns that a tree is expanded to next: each alternative in front of what is behind the
    first group. -/
theorem nextPatterns_behind {lead : Text} {alternatives : Branches} {rest : Tree}
    (hlead : ∀ c ∈ lead, isOrdinary false c = true) (h : alternatives.isPlain = true) :
    nextPatterns (Tree.behind lead (.group alternatives rest)).text =
      alternatives.toList.map fun t => (Tree.behind lead (t.append rest)).text := by
  rw [nextPatterns_of_some (firstGroup?_behind hlead h), Group.alternatives, Branches.splitBody_text_self h,
    List.map_map]
  refine List.map_congr_left fun t _ => ?_
  rw [Tree.text_behind, Tree.text_append, ← List.append_assoc]
  rfl

/-- Written as a pattern, a tree is expanded to its choices. -/
theorem expandBraces_text (t : Tree) (h : t.isPlain false = true) : expandBraces t.text = t.choices := by
  -- By induction on the number of groups: an alternative in the place of its group has fewer.
  induction hcount : t.text.count CodePoint.openBrace using Nat.strongRecOn generalizing t with
  | _ n ih =>
    rcases t.eq_behind with ⟨lead, rfl⟩ | ⟨lead, alternatives, rest, rfl⟩
    · obtain ⟨hlead, -⟩ := Tree.isPlain_behind.mp h
      have hopen : CodePoint.openBrace ∉ lead := fun hmem => (isOrdinary_iff.mp (hlead _ hmem)).1 rfl
      rw [Tree.text_behind, Tree.choices_behind, Tree.text, List.append_nil, expandBraces_of_not_mem hopen,
        Tree.choices, List.map_singleton, List.append_nil]
    · obtain ⟨hlead, hgroup⟩ := Tree.isPlain_behind.mp h
      rw [Tree.isPlain, Bool.and_eq_true] at hgroup
      obtain ⟨halternatives, hrest⟩ := hgroup
      have hnext : nextPatterns (Tree.behind lead (.group alternatives rest)).text =
          alternatives.toList.map fun u => (Tree.behind lead (u.append rest)).text :=
        nextPatterns_behind hlead halternatives
      have hne : alternatives.toList ≠ [] := by
        intro hnil
        have hlength := alternatives.two_le_length
        rw [hnil] at hlength
        cases hlength
      have heach : ∀ u ∈ alternatives.toList, expandBraces (Tree.behind lead (u.append rest)).text =
          (Tree.behind lead (u.append rest)).choices := by
        intro u hu
        have hplain : (Tree.behind lead (u.append rest)).isPlain false = true :=
          Tree.isPlain_behind.mpr
            ⟨hlead, Tree.isPlain_append (Tree.isPlain_outside (Branches.isPlain_of_mem halternatives u hu)) hrest⟩
        have hlt := count_lt_of_mem_nextPatterns (hnext ▸ List.mem_map_of_mem hu)
        exact ih _ (hcount ▸ hlt) _ hplain rfl
      calc expandBraces (Tree.behind lead (.group alternatives rest)).text
          = alternatives.toList.flatMap fun u => expandBraces (Tree.behind lead (u.append rest)).text := by
            rw [expandBraces_eq, hnext, if_neg (by simpa using hne), List.flatMap_map]
        _ = alternatives.toList.flatMap fun u => (Tree.behind lead (u.append rest)).choices :=
            List.flatMap_congr heach
        _ = (Tree.behind lead (.group alternatives rest)).choices := by
            simp only [Tree.choices_behind, Tree.choices_append, Tree.choices, Branches.choices_eq,
              List.map_flatMap, List.flatMap_assoc]

/-! ## Room for the expansion of a tree -/

theorem Tree.turns_append (t u : Tree) : (t.append u).turns = t.turns + u.turns := by
  match t with
  | .done => exact (Nat.zero_add _).symm
  | .literal c t => exact t.turns_append u
  | .group alternatives t =>
    show alternatives.turns + 1 + (t.append u).turns = alternatives.turns + 1 + t.turns + u.turns
    rw [t.turns_append u, Nat.add_assoc _ t.turns]

theorem Tree.turns_behind (lead : Text) (t : Tree) : (behind lead t).turns = t.turns := by
  induction lead with
  | nil => rfl
  | cons c lead ih => exact ih

theorem Branches.turns_lt_iff {b : Branches} {n : Nat} : b.turns < n ↔ ∀ t ∈ b.toList, t.turns < n := by
  match b with
  | .two first second =>
    rw [turns, Nat.max_lt, toList, List.forall_mem_cons, List.forall_mem_singleton]
  | .more first others =>
    rw [turns, Nat.max_lt, toList, List.forall_mem_cons, others.turns_lt_iff]

/-- There is room for the expansion of a tree if there is for one call more than the groups that a
    choice comes by. -/
theorem fits_text (t : Tree) (h : t.isPlain false = true) (room : Nat) :
    fits room t.text = true ↔ t.turns < room := by
  -- By induction on the room: each alternative is expanded in one call less.
  induction room generalizing t with
  | zero => exact iff_of_false Bool.false_ne_true (Nat.not_lt_zero _)
  | succ room ih =>
    rcases t.eq_behind with ⟨lead, rfl⟩ | ⟨lead, alternatives, rest, rfl⟩
    · obtain ⟨hlead, -⟩ := Tree.isPlain_behind.mp h
      have hopen : CodePoint.openBrace ∉ lead := fun hmem => (isOrdinary_iff.mp (hlead _ hmem)).1 rfl
      rw [Tree.turns_behind, Tree.text_behind, Tree.text, List.append_nil]
      refine iff_of_true (fits_of_count_lt ?_) (Nat.succ_pos room)
      rw [List.count_eq_zero_of_not_mem hopen]
      exact Nat.succ_pos room
    · obtain ⟨hlead, hgroup⟩ := Tree.isPlain_behind.mp h
      rw [Tree.isPlain, Bool.and_eq_true] at hgroup
      obtain ⟨halternatives, hrest⟩ := hgroup
      have heach : ∀ u ∈ alternatives.toList,
          (fits room (Tree.behind lead (u.append rest)).text = true ↔ u.turns < room - rest.turns) := by
        intro u hu
        have hplain : (Tree.behind lead (u.append rest)).isPlain false = true :=
          Tree.isPlain_behind.mpr
            ⟨hlead, Tree.isPlain_append (Tree.isPlain_outside (Branches.isPlain_of_mem halternatives u hu)) hrest⟩
        rw [ih _ hplain, Tree.turns_behind, Tree.turns_append]
        omega
      rw [fits, nextPatterns_behind hlead halternatives, List.all_map, List.all_eq_true, Tree.turns_behind,
        Tree.turns]
      calc (∀ u ∈ alternatives.toList, fits room (Tree.behind lead (u.append rest)).text = true)
          ↔ ∀ u ∈ alternatives.toList, u.turns < room - rest.turns := forall₂_congr heach
        _ ↔ alternatives.turns < room - rest.turns := Branches.turns_lt_iff.symm
        _ ↔ alternatives.turns + 1 + rest.turns < room + 1 := by omega

/-- Written as a pattern, a tree is expanded to its choices if there is room for that, and else the
    expansion fails. -/
theorem expandWithin_text (t : Tree) (h : t.isPlain false = true) (room : Nat) :
    expandWithin room t.text = if t.turns < room then .ok t.choices else .error .tooDeep := by
  rw [expandWithin_eq, expandBraces_text t h]
  exact if_congr (fits_text t h room) rfl rfl

/-- The pattern `{a,b{c,d}}-{,x,}`: a group inside an alternative, and one with empty
    alternatives behind it. -/
def nestedTree : Tree :=
  .group (.two (.literal 'a' .done) (.literal 'b' (.group (.two (.literal 'c' .done) (.literal 'd' .done)) .done)))
    (.literal '-' (.group (.more .done (.two (.literal 'x' .done) .done)) .done))

theorem expandWithin_text_nested :
    nestedTree.text = "{a,b{c,d}}-{,x,}" ∧ nestedTree.isPlain false = true ∧
      expandWithin Stack.limit nestedTree.text = .ok nestedTree.choices :=
  ⟨by decide, by decide, (expandWithin_text nestedTree (by decide) Stack.limit).trans (if_pos (by decide))⟩

example : nestedTree.choices =
    (["a-", "a-x", "a-", "bc-", "bc-x", "bc-", "bd-", "bd-x", "bd-"] : List Text) := by decide

/-! ## A group in a group in a group -/

/-- The letter `a` or a group like this one, so many times. -/
def towerTree : Nat → Tree
  | 0 => .literal 'a' .done
  | n + 1 => .group (.two (.literal 'a' .done) (towerTree n)) .done

/-- As a pattern, it begins with all opening braces and ends with all closing ones. -/
theorem towerTree_text (n : Nat) :
    (towerTree n).text = (List.replicate n ("\x7ba," : Text)).flatten ++
      ('a' : CodePoint) :: List.replicate n CodePoint.closeBrace := by
  induction n with
  | zero => rfl
  | succ n ih =>
    have hcons : (towerTree (n + 1)).text =
        ("\x7ba," : Text) ++ ((towerTree n).text ++ [CodePoint.closeBrace]) := by
      simp [towerTree, Tree.text, Branches.text]
    rw [hcons, ih, List.replicate_succ, List.flatten_cons, List.replicate_succ']
    simp

theorem towerTree_isPlain (inside : Bool) (n : Nat) : (towerTree n).isPlain inside = true := by
  induction n generalizing inside with
  | zero => cases inside <;> rfl
  | succ n ih =>
    rw [towerTree, Tree.isPlain, Branches.isPlain, ih true]
    rfl

theorem towerTree_turns (n : Nat) : (towerTree n).turns = n := by
  induction n with
  | zero => rfl
  | succ n ih =>
    rw [towerTree, Tree.turns, Branches.turns, ih]
    simp [Tree.turns]

/-- In each group `a` may be chosen, and in the end it has to be. -/
theorem towerTree_choices (n : Nat) : (towerTree n).choices = List.replicate (n + 1) "a" := by
  induction n with
  | zero => rfl
  | succ n ih =>
    rw [towerTree, Tree.choices, Branches.choices, ih]
    simp [Tree.choices, List.replicate_succ]

/-- There is no room for as many groups in each other as calls may be nested at all. -/
theorem expandWithin_towerTree :
    (towerTree 1000).text = (List.replicate 1000 ("\x7ba," : Text)).flatten ++
        ('a' : CodePoint) :: List.replicate 1000 CodePoint.closeBrace ∧
      (towerTree 1000).isPlain false = true ∧ (towerTree 1000).choices = List.replicate 1001 "a" ∧
      expandWithin Stack.limit (towerTree 1000).text = .error .tooDeep := by
  refine ⟨towerTree_text 1000, towerTree_isPlain false 1000, towerTree_choices 1000, ?_⟩
  rw [expandWithin_text _ (towerTree_isPlain false 1000), towerTree_turns]
  exact if_neg (Nat.lt_irrefl Stack.limit)

end NoteAccess.Glob
