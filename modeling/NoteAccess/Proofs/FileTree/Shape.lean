/-
  NoteAccess.Proofs.FileTree.Shape

  Trees that differ in the files only.  Where the same folders, links and files stand,
  opening a path comes to the same kind of item (`stat_emptied`), and what is in the
  files makes no difference to what a path means (`resolve_congr`).
-/

import NoteAccess.Proofs.FileTree.Meaning

namespace NoteAccess

/-- What stands at a place, without what is in a file. -/
def FileItem.emptied : FileItem → FileItem
  | .file .. => .file (.bytes []) 0
  | i => i

namespace FileTree

/-- The folders, links and files of a tree, without what is in the files. -/
def shape (t : FileTree) : List (Place × FileItem) := t.items.map fun e => (e.1, e.2.emptied)

theorem lookup_map_snd {α β γ : Type} [BEq α] (l : List (α × β)) (f : β → γ) (key : α) :
    (l.map fun e => (e.1, f e.2)).lookup key = (l.lookup key).map f := by
  induction l with
  | nil => rfl
  | cons e l ih =>
    obtain ⟨k, b⟩ := e
    rw [List.map_cons, List.lookup_cons, List.lookup_cons]
    cases key == k with
    | true => rfl
    | false => exact ih

/-- The same folders, links and files stand in two trees. -/
def SameShape (t t' : FileTree) : Prop :=
  ∀ p, (t'.item? p).map FileItem.emptied = (t.item? p).map FileItem.emptied

theorem sameShape_of_shape {t t' : FileTree} (h : t'.shape = t.shape) : SameShape t t' := by
  intro p
  unfold item?
  split
  · rfl
  · rw [← lookup_map_snd, ← lookup_map_snd]
    exact congrArg (List.lookup p) h

/-- Where an arrival is at an item, without what is in a file. -/
def Arrival.emptied : Arrival → Arrival
  | .found p i => .found p i.emptied
  | a => a

section Shape

variable {t t' : FileTree} (h : SameShape t t')

include h

/-- The same links and folders stand at the same places. -/
theorem item?_eq_iff {i : FileItem} (hi : ∀ content time, i ≠ .file content time) (p : Place) :
    t'.item? p = some i ↔ t.item? p = some i := by
  have hemptied : ∀ o : Option FileItem, o = some i ↔ o.map FileItem.emptied = some i := by
    intro o
    cases o with
    | none => exact ⟨nofun, nofun⟩
    | some j =>
      cases j with
      | file content time =>
        refine iff_of_false (fun hj => ?_) (fun hj => ?_)
        · exact hi content time (Option.some.inj hj).symm
        · exact hi _ _ (Option.some.inj hj).symm
      | _ => exact Iff.rfl
  rw [hemptied (t'.item? p), hemptied (t.item? p), h p]

theorem meaningFrom_congr (links : Nat) (opened : List Place) (place : Place) (names : List Text) :
    t'.meaningFrom links opened place names = t.meaningFrom links opened place names := by
  have hlinks : ∀ p target, t'.item? p = some (.link target) ↔ t.item? p = some (.link target) :=
    fun p target => item?_eq_iff h (fun _ _ => FileItem.noConfusion) p
  -- The walk looks at links only, and comes to the same ones: each of its steps is the same.
  fun_induction meaningFrom t links opened place names with
  | case1 => rw [meaningFrom]
  | case2 links opened place name rest hup ih => rw [meaningFrom, if_pos hup, ih]
  | case3 links opened place name rest hname f hcheck => rw [meaningFrom, if_neg hname, hcheck]
  | case4 opened place name rest hname hcheck next target =>
    rename_i hlink
    rw [meaningFrom_link hname hcheck ((hlinks _ _).mpr hlink)]
  | case5 opened place name rest hname hcheck next target hlink links =>
    rename_i hopened
    rw [meaningFrom_link hname hcheck ((hlinks _ _).mpr hlink)]
    exact if_pos hopened
  | case6 opened place name rest hname hcheck next target hlink links hopened f hf =>
    rename_i ih
    rw [meaningFrom_link hname hcheck ((hlinks _ _).mpr hlink)]
    dsimp only
    rw [if_neg hopened, ih, hf]
  | case7 opened place name rest hname hcheck next target hlink links hopened q hq =>
    rename_i ih
    rw [meaningFrom_link hname hcheck ((hlinks _ _).mpr hlink)]
    dsimp only
    rw [if_neg hopened, ih, hq]
  | case8 opened place name rest hname hcheck next target hlink links hopened q hq ihTarget =>
    rename_i ihRest
    rw [meaningFrom_link hname hcheck ((hlinks _ _).mpr hlink)]
    dsimp only
    rw [if_neg hopened, ihTarget, hq]
    exact ihRest
  | case9 links opened place name rest hname hcheck next hlink =>
    rename_i ih
    rw [meaningFrom, if_neg hname, hcheck]
    dsimp only
    split
    · next target hlink' => exact absurd ((hlinks _ _).mp hlink') (hlink target)
    · exact ih

theorem advance_emptied (place : Place) (names : List Text) :
    (t'.advance place names).emptied = (t.advance place names).emptied := by
  induction names generalizing place with
  | nil =>
    have hitem := h place
    rw [advance, advance]
    cases hi : t.item? place with
    | none =>
      rw [hi] at hitem
      rw [Option.map_eq_none_iff.mp hitem]
    | some i =>
      rw [hi] at hitem
      obtain ⟨j, hj, hji⟩ := Option.map_eq_some_iff.mp hitem
      rw [hj]
      exact congrArg (Arrival.found place) hji
  | cons name rest ih =>
    have hfolder : (t'.item? place != some .folder) = (t.item? place != some .folder) := by
      rw [Bool.eq_iff_iff, bne_iff_ne, bne_iff_ne]
      exact not_congr (item?_eq_iff h (fun _ _ => FileItem.noConfusion) place)
    rw [advance, advance, hfolder]
    split
    · rfl
    split
    · exact ih _
    split
    · rfl
    have hitem := h (place ++ [name])
    cases hi : t.item? (place ++ [name]) with
    | none =>
      rw [hi] at hitem
      rw [Option.map_eq_none_iff.mp hitem]
    | some i =>
      rw [hi] at hitem
      obtain ⟨j, hj, hji⟩ := Option.map_eq_some_iff.mp hitem
      rw [hj]
      -- Both walks go on, or both come to the same link.
      cases i with
      | link target =>
        cases j with
        | link target' => cases hji; rfl
        | _ => cases hji
      | folder =>
        cases j with
        | folder => exact ih _
        | _ => cases hji
      | file content time =>
        cases j with
        | file content' time' => exact ih _
        | _ => cases hji

theorem follow_emptied (place : Place) (names : List Text) (links : Nat) :
    (t'.follow place names links).map (fun e => (e.1, e.2.map FileItem.emptied)) =
      (t.follow place names links).map (fun e => (e.1, e.2.map FileItem.emptied)) := by
  induction links generalizing place names with
  | zero => rfl
  | succ links ih =>
    -- Up to the next link both walks arrive at the same.
    have hadvance := advance_emptied h place names
    rw [follow, follow]
    cases ha : t.advance place names with
    | found p i =>
      rw [ha] at hadvance
      cases ha' : t'.advance place names with
      | found p' i' =>
        rw [ha'] at hadvance
        injection hadvance with hp hi
        rw [hp]
        exact congrArg (fun j => Except.ok (p, some j)) hi
      | _ => rw [ha'] at hadvance; cases hadvance
    | vacant p =>
      rw [ha] at hadvance
      cases ha' : t'.advance place names with
      | vacant p' => rw [ha'] at hadvance; cases hadvance; rfl
      | _ => rw [ha'] at hadvance; cases hadvance
    | failed f =>
      rw [ha] at hadvance
      cases ha' : t'.advance place names with
      | failed f' => rw [ha'] at hadvance; cases hadvance; rfl
      | _ => rw [ha'] at hadvance; cases hadvance
    | link folder target rest =>
      rw [ha] at hadvance
      cases ha' : t'.advance place names with
      | link folder' target' rest' => rw [ha'] at hadvance; cases hadvance; exact ih ..
      | _ => rw [ha'] at hadvance; cases hadvance

theorem locate_emptied (path : Place) :
    (t'.locate path).map (fun e => (e.1, e.2.map FileItem.emptied)) =
      (t.locate path).map (fun e => (e.1, e.2.map FileItem.emptied)) := by
  unfold locate
  cases path.forM checkName with
  | error f => rfl
  | ok _ =>
    show Except.map _ (if _ then _ else _) = Except.map _ (if _ then _ else _)
    split
    · rfl
    · exact follow_emptied h [] path (maxLinks + 1)

/-- A path leads to the same kind of item. -/
theorem stat_emptied (path : Place) :
    (t'.stat path).map FileItem.emptied = (t.stat path).map FileItem.emptied := by
  have hstat : ∀ t : FileTree, (t.stat path).map FileItem.emptied =
      ((t.locate path).map fun e => (e.1, e.2.map FileItem.emptied)).bind fun e =>
        e.2.elim (.error .missing) .ok := by
    intro t
    unfold stat
    cases t.locate path with
    | error f => rfl
    | ok found =>
      obtain ⟨p, i⟩ := found
      cases i with
      | none => rfl
      | some i => rfl
  rw [hstat t', hstat t, locate_emptied h]

/-- A path fails in both trees, in the same way, or it leads to items of the same kind. -/
theorem stat_cases (path : Place) :
    (∃ f, t'.stat path = .error f ∧ t.stat path = .error f) ∨
      ∃ i' i, t'.stat path = .ok i' ∧ t.stat path = .ok i ∧ i'.emptied = i.emptied := by
  have hstat := stat_emptied h path
  cases hs : t.stat path with
  | error f =>
    rw [hs] at hstat
    cases hs' : t'.stat path with
    | error f' => rw [hs'] at hstat; cases hstat; exact .inl ⟨f, rfl, rfl⟩
    | ok i' => rw [hs'] at hstat; cases hstat
  | ok i =>
    rw [hs] at hstat
    cases hs' : t'.stat path with
    | error f' => rw [hs'] at hstat; cases hstat
    | ok i' => rw [hs'] at hstat; exact .inr ⟨i', i, rfl, rfl, Except.ok.inj hstat⟩

theorem isLink_congr (p : Place) : t'.isLink p = t.isLink p := by
  have hlinks : ∀ target, t'.item? p = some (.link target) ↔ t.item? p = some (.link target) :=
    fun target => item?_eq_iff h (fun _ _ => FileItem.noConfusion) p
  rw [Bool.eq_iff_iff, isLink_iff, isLink_iff]
  exact exists_congr hlinks

theorem meaning_congr (path : Place) : t'.meaning path = t.meaning path := by
  -- The trees may list what stands in them in different ways, so the bounds on links may differ.
  have hunopened : t'.unopened [] = t.unopened [] := by
    ext p
    rw [mem_unopened_iff, mem_unopened_iff, isLink_congr h]
  have hcard : (t.unopened []).card ≤ t'.items.length := hunopened ▸ card_unopened_le t' []
  rw [meaning, meaning, meaningFrom_congr h, meaningFrom_links (card_unopened_le t []) hcard]

/-- What is in the files makes no difference to what a path means. -/
theorem resolve_congr (path : Place) : t'.resolve path = t.resolve path := by
  unfold resolve
  rw [meaning_congr h]
  cases t.meaning path with
  | error f => rfl
  | ok p =>
    dsimp only [bind, Except.bind]
    -- Only how the path of the place fails counts.
    rcases stat_cases h p with ⟨f, hf', hf⟩ | ⟨i', i, hi', hi, -⟩
    · rw [hf', hf]
    · rw [hi', hi]

end Shape

end FileTree

end NoteAccess
