/-
  NoteAccess.Proofs.Glob.Expansion

  How the expansion of braces goes on.  A pattern with a group of alternatives is taken up again
  with each of them in the place of the group (`nextPatterns`); these have fewer opening braces
  (`count_lt_of_mem_nextPatterns`), and in the end there is no group left
  (`nextPatterns_of_mem_expandBraces`).  The calls that do this are nested, one for each time a
  pattern is taken up again; whether there is room for them says `fits`, and without it there is
  nothing but a failure (`expandWithin_eq`).

  The program of a glob has the parts of each pattern that it is expanded to (`branches`).
-/

import NoteAccess.Glob

namespace NoteAccess.Glob

variable {pattern p q : Text} {g : Group}

/-! ## Pieces of a body -/

/-- The depth behind a code point. -/
def depthAfter (depth : Int) (c : CodePoint) : Int :=
  if c = CodePoint.openBrace then depth + 1 else if c = CodePoint.closeBrace then depth - 1 else depth

theorem splitBody_cons_eq (depth : Int) (c : CodePoint) (t : Text) :
    splitBody depth (c :: t) =
      if c = CodePoint.comma && depthAfter depth c == 0 then [] :: splitBody (depthAfter depth c) t
      else match splitBody (depthAfter depth c) t with
        | [] => [[c]]
        | piece :: pieces => (c :: piece) :: pieces := rfl

theorem splitBody_ne_nil (depth : Int) (t : Text) : splitBody depth t ≠ [] := by
  cases t with
  | nil => exact List.cons_ne_nil _ _
  | cons c t =>
    rw [splitBody_cons_eq]
    split
    · exact List.cons_ne_nil _ _
    · split
      · exact List.cons_ne_nil _ _
      · exact List.cons_ne_nil _ _

/-- A comma at the outer level ends a piece. -/
theorem splitBody_comma (t : Text) : splitBody 0 (CodePoint.comma :: t) = [] :: splitBody 0 t := rfl

/-- Anything else belongs to the first piece. -/
theorem splitBody_cons {depth : Int} {c : CodePoint} (h : c = CodePoint.comma → depth ≠ 0) (t : Text) :
    splitBody depth (c :: t) = (splitBody (depthAfter depth c) t).modifyHead (c :: ·) := by
  have hinner : (c = CodePoint.comma && depthAfter depth c == 0) = false := by
    rw [Bool.and_eq_false_iff]
    by_cases hc : c = CodePoint.comma
    · subst hc
      exact .inr (beq_false_of_ne (h rfl))
    · exact .inl (decide_eq_false hc)
  rw [splitBody_cons_eq, hinner, if_neg Bool.false_ne_true]
  obtain ⟨piece, pieces, hrest⟩ := List.exists_cons_of_ne_nil (splitBody_ne_nil (depthAfter depth c) t)
  rw [hrest, List.modifyHead_cons]

/-! ## Going on -/

/-- The patterns that a pattern is expanded to next: each alternative of the first group in the
    place of the group, if there is one. -/
def nextPatterns (pattern : Text) : List Text :=
  match firstGroup? pattern with
  | none => []
  | some g => g.alternatives.map fun piece => g.before ++ piece ++ g.after

theorem nextPatterns_of_none (h : firstGroup? pattern = none) : nextPatterns pattern = [] := by
  rw [nextPatterns, h]

theorem nextPatterns_of_some (h : firstGroup? pattern = some g) :
    nextPatterns pattern = g.alternatives.map fun piece => g.before ++ piece ++ g.after := by
  rw [nextPatterns, h]

theorem nextPatterns_eq_nil_iff : nextPatterns pattern = [] ↔ firstGroup? pattern = none := by
  cases h : firstGroup? pattern with
  | none => exact iff_of_true (nextPatterns_of_none h) rfl
  | some g =>
    rw [nextPatterns_of_some h, List.map_eq_nil_iff]
    exact iff_of_false (splitBody_ne_nil 0 g.body) (Option.some_ne_none g)

/-- Each of them has fewer opening braces. -/
theorem count_lt_of_mem_nextPatterns (h : q ∈ nextPatterns p) :
    q.count CodePoint.openBrace < p.count CodePoint.openBrace := by
  cases hg : firstGroup? p with
  | none =>
    rw [nextPatterns_of_none hg] at h
    exact absurd h List.not_mem_nil
  | some g =>
    rw [nextPatterns_of_some hg] at h
    obtain ⟨piece, hpiece, rfl⟩ := List.mem_map.mp h
    exact Group.count_lt hg hpiece

/-- A pattern is expanded to itself, or to what the next patterns are expanded to. -/
theorem expandBraces_eq (pattern : Text) :
    expandBraces pattern =
      if nextPatterns pattern = [] then [pattern] else (nextPatterns pattern).flatMap expandBraces := by
  cases hg : firstGroup? pattern with
  | none =>
    rw [if_pos (nextPatterns_eq_nil_iff.mpr hg), expandBraces]
    split
    · rfl
    · next hsome =>
      rw [hg] at hsome
      cases hsome
  | some g =>
    have hne : nextPatterns pattern ≠ [] := by
      rw [ne_eq, nextPatterns_eq_nil_iff, hg]
      exact Option.some_ne_none g
    rw [if_neg hne, nextPatterns_of_some hg, List.flatMap_map, expandBraces]
    split
    · next hnone =>
      rw [hg] at hnone
      cases hnone
    · next g' hsome =>
      rw [hg] at hsome
      cases hsome
      -- The expansion carries along that each piece is one of the alternatives.
      have hattach := List.flatMap_map Subtype.val
        (fun piece => expandBraces (g.before ++ piece ++ g.after)) g.alternatives.attach
      rw [List.attach_map_subtype_val] at hattach
      exact hattach.symm

theorem expandBraces_of_nextPatterns_nil (h : nextPatterns pattern = []) : expandBraces pattern = [pattern] := by
  rw [expandBraces_eq, if_pos h]

/-- Without an opening brace no group begins. -/
theorem scanGroup_eq_none {escaped : Bool} {before t : Text} (h : CodePoint.openBrace ∉ t) :
    scanGroup escaped before none t = none := by
  induction t generalizing escaped before with
  | nil => rfl
  | cons c t ih =>
    obtain ⟨hc, ht⟩ := not_or.mp (mt List.mem_cons.mpr h)
    rw [scanGroup, if_neg (Ne.symm hc)]
    split
    · exact ih ht
    · split
      · exact ih ht
      · exact ih ht

/-- A pattern without braces is its only expansion. -/
theorem expandBraces_of_not_mem (h : CodePoint.openBrace ∉ pattern) : expandBraces pattern = [pattern] :=
  expandBraces_of_nextPatterns_nil (nextPatterns_of_none (scanGroup_eq_none h))

/-- What a pattern is expanded to has no group that could be expanded. -/
theorem nextPatterns_of_mem_expandBraces (h : q ∈ expandBraces p) : nextPatterns q = [] := by
  -- By induction on the number of opening braces.
  induction hcount : p.count CodePoint.openBrace using Nat.strongRecOn generalizing p with
  | _ n ih =>
    rw [expandBraces_eq] at h
    split at h
    · next hnil => rwa [List.mem_singleton.mp h]
    · obtain ⟨r, hr, hq⟩ := List.mem_flatMap.mp h
      exact ih _ (hcount ▸ count_lt_of_mem_nextPatterns hr) hq rfl

/-- A pattern is expanded to one pattern at least. -/
theorem expandBraces_ne_nil (p : Text) : expandBraces p ≠ [] := by
  induction hcount : p.count CodePoint.openBrace using Nat.strongRecOn generalizing p with
  | _ n ih =>
    rw [expandBraces_eq]
    split
    · exact List.cons_ne_nil _ _
    · next hne =>
      obtain ⟨r, rest, hr⟩ := List.exists_cons_of_ne_nil hne
      have hlt := count_lt_of_mem_nextPatterns (hr ▸ List.mem_cons_self ..)
      rw [hr, List.flatMap_cons]
      exact List.append_ne_nil_of_left_ne_nil (ih _ (hcount ▸ hlt) r rfl) _

/-! ## Room -/

/-- Whether the calls that expand a pattern may be nested as deep as they are. -/
def fits : Nat → Text → Bool
  | 0, _ => false
  | room + 1, pattern => (nextPatterns pattern).all (fits room)

/-- Of values that a condition turns into failures, all are there or none. -/
theorem mapM_ite {ε α β : Type} (p : α → Bool) (f : α → β) (e : ε) (l : List α) :
    l.mapM (fun a => if p a = true then (.ok (f a) : Except ε β) else .error e) =
      if l.all p = true then .ok (l.map f) else .error e := by
  induction l with
  | nil => rfl
  | cons a l ih =>
    rw [List.mapM_cons, ih, List.all_cons]
    cases p a with
    | false => rfl
    | true =>
      cases l.all p with
      | false => rfl
      | true => rfl

/-- A pattern that is taken up again is expanded to what the next patterns are expanded to. -/
theorem expandWithin_succ (h : firstGroup? pattern = some g) (room : Nat) :
    expandWithin (room + 1) pattern =
      ((nextPatterns pattern).mapM (expandWithin room)).map List.flatten := by
  rw [expandWithin, h, nextPatterns_of_some h, List.mapM_map]
  rfl

/-- There is room for an expansion, and it is the whole of it, or there is none. -/
theorem expandWithin_eq (room : Nat) (pattern : Text) :
    expandWithin room pattern =
      if fits room pattern = true then .ok (expandBraces pattern) else .error .tooDeep := by
  induction room generalizing pattern with
  | zero => rfl
  | succ room ih =>
    rw [fits]
    cases hg : firstGroup? pattern with
    | none =>
      rw [expandBraces_of_nextPatterns_nil (nextPatterns_of_none hg), nextPatterns_of_none hg, expandWithin, hg]
      rfl
    | some g =>
      have hne : nextPatterns pattern ≠ [] := fun hnil =>
        Option.some_ne_none g (hg.symm.trans (nextPatterns_eq_nil_iff.mp hnil))
      have hnext : (nextPatterns pattern).mapM (expandWithin room) =
          if (nextPatterns pattern).all (fits room) = true then .ok ((nextPatterns pattern).map expandBraces)
          else .error .tooDeep := by
        rw [← mapM_ite]
        exact congrArg (fun f => (nextPatterns pattern).mapM f) (funext ih)
      rw [expandWithin_succ hg, hnext, expandBraces_eq, if_neg hne]
      split
      · rfl
      · rfl

/-- More room does no harm. -/
theorem fits_mono {room more : Nat} (hle : room ≤ more) (h : fits room pattern = true) :
    fits more pattern = true := by
  induction room generalizing more pattern with
  | zero => cases h
  | succ room ih =>
    obtain ⟨more, rfl⟩ : ∃ n, more = n + 1 := ⟨more - 1, by omega⟩
    rw [fits, List.all_eq_true] at h ⊢
    exact fun q hq => ih (by omega) (h q hq)

/-- A call for each opening brace is more than enough. -/
theorem fits_of_count_lt {room : Nat} (h : pattern.count CodePoint.openBrace < room) :
    fits room pattern = true := by
  induction room generalizing pattern with
  | zero => exact absurd h (Nat.not_lt_zero _)
  | succ room ih =>
    rw [fits, List.all_eq_true]
    intro q hq
    exact ih (Nat.lt_of_lt_of_le (count_lt_of_mem_nextPatterns hq) (Nat.le_of_lt_succ h))

/-! ## Programs -/

/-- The parts of each pattern that a glob is expanded to. -/
def branches (pattern : Text) : List (List Fragment) := (expandBraces pattern).map fragments

theorem branches_ne_nil (pattern : Text) : branches pattern ≠ [] := by
  rw [branches, ne_eq, List.map_eq_nil_iff]
  exact expandBraces_ne_nil pattern

theorem branches_of_expandBraces (h : expandBraces pattern = [pattern]) : branches pattern = [fragments pattern] := by
  rw [branches, h, List.map_singleton]

theorem compile?_eq (pattern : Text) :
    compile? pattern =
      if (branches pattern).all (·.all Fragment.isValid) then some ⟨branches pattern⟩ else none := rfl

theorem isSome_compile?_eq (pattern : Text) :
    (compile? pattern).isSome = (branches pattern).all (·.all Fragment.isValid) := by
  rw [compile?_eq]
  split
  · next h => exact h.symm
  · next h => exact (Bool.eq_false_iff.mpr h).symm

/-- There is room for the program of a glob if there is for its expansion. -/
theorem compileWithin_eq (room : Nat) (pattern : Text) :
    compileWithin room pattern =
      if fits room pattern = true then .ok (compile? pattern) else .error .tooDeep := by
  rw [compileWithin, expandWithin_eq]
  split
  · rfl
  · rfl

/-- A pattern that is its only expansion has one list of parts, which all have to be in order. -/
theorem compile?_of_expandBraces (h : expandBraces pattern = [pattern]) :
    compile? pattern =
      if (fragments pattern).all Fragment.isValid then some ⟨[fragments pattern]⟩ else none := by
  rw [compile?_eq, branches_of_expandBraces h, List.all_cons, List.all_nil, Bool.and_true]

end NoteAccess.Glob
