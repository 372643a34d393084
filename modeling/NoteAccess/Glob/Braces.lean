/-
  NoteAccess.Glob.Braces

  Alternatives in braces.  The first group at the outer level that has at least
  two alternatives is replaced by each of them in turn, and the results are
  expanded again; a group without a comma of its own stays as it is.  A code
  point after a backslash neither opens nor closes a group.

  Each step removes the two braces of the group, so the number of opening braces
  falls (`Group.count_lt`), which is why the expansion ends.  But the steps are
  calls inside calls: `expandWithin` is the expansion in the room there is for
  them, and `expandBraces` what it comes to if the room does not matter.
-/

import NoteAccess.Fault

namespace NoteAccess.Glob

/-- A group in braces with the text around it. -/
structure Group where
  before : Text
  body : Text
  after : Text

/-! ## Alternatives of a group -/

/-- The pieces of a group's body between its own commas; `depth` counts the open
    braces, less the closing ones that have no opening one. -/
def splitBody (depth : Int) : Text → List Text
  | [] => [[]]
  | c :: rest =>
    let depth' := if c = CodePoint.openBrace then depth + 1
      else if c = CodePoint.closeBrace then depth - 1 else depth
    if c = CodePoint.comma && depth' == 0 then [] :: splitBody depth' rest
    else match splitBody depth' rest with
      | [] => [[c]]
      | piece :: pieces => (c :: piece) :: pieces

/-- The alternatives of a group. -/
def Group.alternatives (g : Group) : List Text := splitBody 0 g.body

/-- A piece of a body has no more of any code point than the body. -/
theorem count_le_of_mem_splitBody {x : CodePoint} {piece : Text} {body : Text} {depth : Int}
    (h : piece ∈ splitBody depth body) : piece.count x ≤ body.count x := by
  induction body generalizing depth piece with
  | nil => simp_all [splitBody]
  | cons c rest ih =>
    unfold splitBody at h
    simp only at h
    generalize (if c = CodePoint.openBrace then depth + 1
      else if c = CodePoint.closeBrace then depth - 1 else depth) = depth' at h
    split at h
    · rcases List.mem_cons.1 h with rfl | h
      · simp
      · exact Nat.le_trans (ih h) (by simp [List.count_cons])
    · split at h
      · rw [List.mem_singleton] at h
        subst h
        simp [List.count_cons]
      · next piece' pieces he =>
        rcases List.mem_cons.1 h with rfl | h
        · have := ih (he ▸ List.mem_cons_self : piece' ∈ splitBody depth' rest)
          simp only [List.count_cons]
          omega
        · have := ih (he ▸ List.mem_cons_of_mem _ h : piece ∈ splitBody depth' rest)
          simp only [List.count_cons]
          omega

/-! ## The first group -/

/-- The first group with several alternatives, given whether a backslash came just
    before, what was read before the group in reverse and, inside a group, its depth
    and its body so far in reverse. -/
def scanGroup (escaped : Bool) (before : Text) (inside : Option (Nat × Text)) : Text → Option Group
  | [] => none
  | c :: rest =>
    match inside with
    | none =>
      if escaped then scanGroup false (c :: before) none rest
      else if c = CodePoint.backslash then scanGroup true (c :: before) none rest
      else if c = CodePoint.openBrace then scanGroup false before (some (0, [])) rest
      else scanGroup false (c :: before) none rest
    | some (depth, body) =>
      if escaped then scanGroup false before (some (depth, c :: body)) rest
      else if c = CodePoint.backslash then scanGroup true before (some (depth, c :: body)) rest
      else if c = CodePoint.openBrace then scanGroup false before (some (depth + 1, c :: body)) rest
      else if c = CodePoint.closeBrace then
        match depth with
        | 0 =>
          if 2 ≤ (splitBody 0 body.reverse).length then some ⟨before.reverse, body.reverse, rest⟩
          else scanGroup false (c :: body ++ CodePoint.openBrace :: before) none rest
        | depth + 1 => scanGroup false before (some (depth, c :: body)) rest
      else scanGroup false before (some (depth, c :: body)) rest

/-- The first group of a pattern with several alternatives. -/
def firstGroup? (pattern : Text) : Option Group := scanGroup false [] none pattern

/-- The whole text that a scan has read or still has to read. -/
def scanned (before : Text) (inside : Option (Nat × Text)) (rest : Text) : Text :=
  match inside with
  | none => before.reverse ++ rest
  | some (_, body) => before.reverse ++ CodePoint.openBrace :: (body.reverse ++ rest)

/-- The parts of a found group make up the text that was scanned. -/
theorem scanGroup_eq_some {escaped : Bool} {before : Text} {inside : Option (Nat × Text)} {t : Text}
    {g : Group} (h : scanGroup escaped before inside t = some g) :
    scanned before inside t =
      g.before ++ CodePoint.openBrace :: (g.body ++ CodePoint.closeBrace :: g.after) := by
  induction t generalizing escaped before inside with
  | nil => simp [scanGroup] at h
  | cons c rest ih =>
    unfold scanGroup at h
    split at h
    · split at h
      · rw [← ih h]; simp [scanned]
      split at h
      · rw [← ih h]; simp [scanned]
      split at h
      · next hc => rw [← ih h]; simp [scanned, hc]
      · rw [← ih h]; simp [scanned]
    · split at h
      · rw [← ih h]; simp [scanned]
      split at h
      · rw [← ih h]; simp [scanned]
      split at h
      · rw [← ih h]; simp [scanned]
      split at h
      · next hc =>
        split at h
        · split at h
          · cases h; simp [scanned, hc]
          · rw [← ih h]; simp [scanned]
        · rw [← ih h]; simp [scanned]
      · rw [← ih h]; simp [scanned]

/-- The parts of the first group make up the pattern. -/
theorem firstGroup?_eq_some {pattern : Text} {g : Group} (h : firstGroup? pattern = some g) :
    pattern = g.before ++ CodePoint.openBrace :: (g.body ++ CodePoint.closeBrace :: g.after) := by
  simpa [scanned] using scanGroup_eq_some h

/-- Putting an alternative in the place of its group lowers the number of opening braces. -/
theorem Group.count_lt {pattern : Text} {g : Group} (h : firstGroup? pattern = some g)
    {piece : Text} (hp : piece ∈ g.alternatives) :
    (g.before ++ piece ++ g.after).count CodePoint.openBrace < pattern.count CodePoint.openBrace := by
  have hle : piece.count CodePoint.openBrace ≤ g.body.count CodePoint.openBrace :=
    count_le_of_mem_splitBody hp
  rw [firstGroup?_eq_some h]
  simp only [List.count_append, List.count_cons]
  simp
  omega

/-! ## Expansion -/

/-- The patterns that a pattern is expanded to by calls that may be nested so deep. -/
def expandWithin : Nat → Text → Except Fault (List Text)
  | 0, _ => .error .tooDeep
  | room + 1, pattern =>
    match firstGroup? pattern with
    | none => .ok [pattern]
    | some g =>
      (g.alternatives.mapM fun piece => expandWithin room (g.before ++ piece ++ g.after)).map List.flatten

/-- The patterns without alternatives that a pattern stands for, in order: the
    leftmost group varies slowest. -/
def expandBraces (pattern : Text) : List Text :=
  match _h : firstGroup? pattern with
  | none => [pattern]
  | some g => g.alternatives.attach.flatMap fun ⟨piece, _⟩ => expandBraces (g.before ++ piece ++ g.after)
termination_by pattern.count CodePoint.openBrace
decreasing_by exact Group.count_lt _h (by assumption)

end NoteAccess.Glob
