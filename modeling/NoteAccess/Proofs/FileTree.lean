/-
  NoteAccess.Proofs.FileTree

  Writing a file.  If it is there already, the new tree differs from the old one in
  the content of one file (`item?_put`), so every path leads to where it led
  before (`locate_put`); if it is new, what stood free has become a file
  (`locate_put_vacant`).  Either way reading the path gives what was written
  (`read_of_write`, `read_after_write`).
-/

import NoteAccess.FileTree

namespace NoteAccess.FileTree

variable {t : FileTree} {p q : Place}

/-! ## Items -/

theorem lookup_map_put {β : Type} (items : List (Place × β)) (p q : Place) (i : β) :
    (items.map fun (r, j) => if r == p then (r, i) else (r, j)).lookup q =
      if q = p then (items.lookup p).map fun _ => i else items.lookup q := by
  induction items with
  | nil => simp
  | cons entry items ih =>
    obtain ⟨r, j⟩ := entry
    rw [List.map_cons]
    by_cases hrp : r = p
    · subst hrp
      by_cases hqr : q = r
      · simp [hqr]
      · have hne : (q == r) = false := by simpa using hqr
        simp only [beq_self_eq_true, if_true, List.lookup_cons, hne, ih, if_neg hqr]
    · have hne : (r == p) = false := by simpa using hrp
      by_cases hqr : q = r
      · subst hqr
        simp [hne, hrp]
      · have hqr' : (q == r) = false := by simpa using hqr
        have hpr' : (p == r) = false := by simpa using Ne.symm hrp
        simp only [hne, List.lookup_cons, hqr', hpr', ih, Bool.false_eq_true, if_false]

/-- Only the place that is written changes. -/
theorem item?_put {i j : FileItem} (h : t.item? p = some j) (hp : p ≠ []) :
    (t.put p i).item? q = if q = p then some i else t.item? q := by
  have hlookup : t.items.lookup p = some j := by
    simpa [item?, hp] using h
  unfold item? put
  rw [hlookup, Option.isSome_some, if_pos rfl, lookup_map_put, hlookup]
  by_cases hqp : q = p
  · simp [hqp, hp]
  · simp [hqp]

/-! ## Paths -/

/-- Where a path arrives when the file at `p` has become `i`. -/
def Arrival.swap (p : Place) (i : FileItem) : Arrival → Arrival
  | .found q j => .found q (if q = p then i else j)
  | a => a

section Put

variable {content content' : FileContent} {time time' : Int}
  (h : t.item? p = some (.file content time))

include h

theorem ne_nil_of_file : p ≠ [] := by
  rintro rfl
  cases h

theorem item?_put_file :
    (t.put p (.file content' time')).item? q =
      if q = p then some (.file content' time') else t.item? q :=
  item?_put h (ne_nil_of_file h)

/-- Names lead where they led before. -/
theorem advance_put (place : Place) (names : List Text) :
    (t.put p (.file content' time')).advance place names =
      (t.advance place names).swap p (.file content' time') := by
  induction names generalizing place with
  | nil =>
    rw [advance, advance, item?_put_file h]
    by_cases hplace : place = p
    · rw [if_pos hplace, hplace, h]
      simp [Arrival.swap]
    · rw [if_neg hplace]
      cases t.item? place <;> simp [Arrival.swap, hplace]
  | cons name rest ih =>
    -- What was a file is a file still, so a walk is stopped where it was stopped before.
    have hfolder : ((t.put p (.file content' time')).item? place != some .folder) =
        (t.item? place != some .folder) := by
      rw [item?_put_file h]
      split
      · next hplace =>
        rw [hplace, h]
        rfl
      · rfl
    rw [advance, advance, hfolder]
    split
    · rfl
    split
    · exact ih _
    split
    · rfl
    rw [item?_put_file h]
    by_cases hnext : place ++ [name] = p
    · rw [if_pos hnext, hnext, h]
      exact ih p
    · rw [if_neg hnext]
      cases t.item? (place ++ [name]) with
      | none =>
        dsimp only
        split <;> rfl
      | some j =>
        cases j with
        | link target => rfl
        | folder => exact ih _
        | file content time => exact ih _

theorem follow_put (place : Place) (names : List Text) (links : Nat) :
    (t.put p (.file content' time')).follow place names links =
      (t.follow place names links).map fun (q, found) =>
        (q, found.map fun j => if q = p then .file content' time' else j) := by
  induction links generalizing place names with
  | zero => rfl
  | succ links ih =>
    rw [follow, follow, advance_put h]
    cases t.advance place names with
    | found q j => rfl
    | vacant q => rfl
    | failed f => rfl
    | link folder target rest => exact ih ..  -- The same links are opened.

/-- A path that led to the file leads to what the file has become. -/
theorem locate_put {path : Place} {j : FileItem} (hpath : t.locate path = .ok (p, some j)) :
    (t.put p (.file content' time')).locate path = .ok (p, some (.file content' time')) := by
  unfold locate at hpath ⊢
  cases hnames : path.forM checkName with
  | error f =>
    rw [hnames] at hpath
    cases hpath
  | ok _ =>
    rw [hnames] at hpath
    dsimp only [bind, Except.bind] at hpath ⊢
    split at hpath
    · cases hpath
    · next hsize =>
      rw [if_neg hsize, follow_put h, hpath]
      simp [Except.map]

/-- A path that does not lead to the file leads to what it led to. -/
theorem locate_put_other {path : Place} (hother : ∀ j, t.locate path ≠ .ok (p, some j)) :
    (t.put p (.file content' time')).locate path = t.locate path := by
  unfold locate at hother ⊢
  cases hnames : path.forM checkName with
  | error f => rfl
  | ok _ =>
    rw [hnames] at hother
    dsimp only [bind, Except.bind] at hother ⊢
    split at hother
    · next hsize => rw [if_pos hsize, if_pos hsize]; rfl
    · next hsize =>
      rw [if_neg hsize, if_neg hsize, follow_put h]
      cases hfollow : t.follow [] path (maxLinks + 1) with
      | error f => rfl
      | ok found =>
        obtain ⟨q, i⟩ := found
        cases i with
        | none => rfl
        | some j =>
          have hq : q ≠ p := by
            rintro rfl
            exact hother j hfollow
          show Except.ok (q, some (if q = p then _ else j)) = _
          rw [if_neg hq]

end Put

/-! ## New files -/

theorem lookup_concat {β : Type} (items : List (Place × β)) (p q : Place) (i : β) :
    (items ++ [(p, i)]).lookup q = (items.lookup q).or (if q = p then some i else none) := by
  induction items with
  | nil =>
    by_cases hqp : q = p <;> simp [hqp]
  | cons entry items ih =>
    obtain ⟨r, j⟩ := entry
    rw [List.cons_append, List.lookup_cons, List.lookup_cons]
    cases q == r with
    | true => rfl
    | false => exact ih

section Vacant

variable {i : FileItem} (h : t.item? p = none)

include h

/-- Only the place that is taken changes. -/
theorem item?_put_vacant : (t.put p i).item? q = if q = p then some i else t.item? q := by
  have hp : p ≠ [] := by
    rintro rfl
    cases h
  have hlookup : t.items.lookup p = none := by
    simpa [item?, hp] using h
  have hput : (t.put p i).items = t.items ++ [(p, i)] := by
    unfold put
    rw [hlookup]
    rfl
  unfold item?
  rw [hput, lookup_concat]
  by_cases hqp : q = p
  · simp [hqp, hp, hlookup]
  · simp [hqp]

/-- Names that led to the free place lead to what stands there now, and a walk that was stopped
    by a link is stopped by this link. -/
theorem advance_put_vacant (hi : ∀ target, i ≠ .link target) (place : Place) (names : List Text) :
    (t.advance place names = .vacant p → (t.put p i).advance place names = .found p i) ∧
      ∀ folder target rest, t.advance place names = .link folder target rest →
        (t.put p i).advance place names = .link folder target rest := by
  induction names generalizing place with
  | nil =>
    rw [advance]
    cases t.item? place with
    | none => exact ⟨nofun, nofun⟩
    | some j => exact ⟨nofun, nofun⟩
  | cons name rest ih =>
    rw [advance, advance]
    by_cases hfolder : t.item? place = some .folder
    · -- The walk goes on only where a folder stands, and the free place is none.
      have hplace : place ≠ p := by
        rintro rfl
        cases h.symm.trans hfolder
      have hfolder' : (t.put p i).item? place = some .folder := by
        rw [item?_put_vacant h, if_neg hplace, hfolder]
      rw [hfolder, hfolder']
      simp only [bne_self_eq_false, Bool.false_eq_true, if_false]
      split
      · exact ih _
      split
      · exact ⟨nofun, nofun⟩
      rw [item?_put_vacant h]
      by_cases hnext : place ++ [name] = p
      · rw [if_pos hnext, hnext, h]
        cases rest with
        | nil =>
          refine ⟨fun _ => ?_, nofun⟩
          cases i with
          | link target => exact absurd rfl (hi target)
          | folder =>
            show (t.put p .folder).advance p [] = _
            rw [advance, item?_put_vacant h, if_pos rfl]
          | file content time =>
            show (t.put p (.file content time)).advance p [] = _
            rw [advance, item?_put_vacant h, if_pos rfl]
        | cons name' rest => exact ⟨nofun, nofun⟩
      · rw [if_neg hnext]
        cases t.item? (place ++ [name]) with
        | none =>
          dsimp only
          split
          · exact ⟨fun hv => absurd (Arrival.vacant.inj hv) hnext, nofun⟩
          · exact ⟨nofun, nofun⟩
        | some j =>
          cases j with
          | link target => exact ⟨nofun, fun _ _ _ hl => hl⟩
          | folder => exact ih _
          | file content time => exact ih _
    · have hstop : (t.item? place != some .folder) = true := by simpa using hfolder
      rw [if_pos hstop]
      exact ⟨nofun, nofun⟩

theorem follow_put_vacant (hi : ∀ target, i ≠ .link target) {place : Place} {names : List Text} {links : Nat}
    (hpath : t.follow place names links = .ok (p, none)) :
    (t.put p i).follow place names links = .ok (p, some i) := by
  induction links generalizing place names with
  | zero => cases hpath
  | succ links ih =>
    obtain ⟨hvacant, hlink⟩ := advance_put_vacant h hi place names
    rw [follow] at hpath ⊢
    cases ha : t.advance place names with
    | found q j => rw [ha] at hpath; cases hpath
    | failed f => rw [ha] at hpath; cases hpath
    | vacant q =>
      rw [ha] at hpath
      cases hpath
      rw [hvacant ha]
    | link folder target rest =>
      rw [ha] at hpath
      rw [hlink _ _ _ ha]
      exact ih hpath

/-- A path that led to the free place leads to what stands there now. -/
theorem locate_put_vacant (hi : ∀ target, i ≠ .link target) {path : Place} (hpath : t.locate path = .ok (p, none)) :
    (t.put p i).locate path = .ok (p, some i) := by
  unfold locate at hpath ⊢
  cases hnames : path.forM checkName with
  | error f =>
    rw [hnames] at hpath
    cases hpath
  | ok _ =>
    rw [hnames] at hpath
    dsimp only [bind, Except.bind] at hpath ⊢
    split at hpath
    · cases hpath
    · next hsize =>
      rw [if_neg hsize]
      exact follow_put_vacant h hi hpath

end Vacant

theorem item?_of_advance_vacant {place : Place} {names : List Text}
    (h : t.advance place names = .vacant p) : t.item? p = none := by
  induction names generalizing place with
  | nil =>
    rw [advance] at h
    cases hplace : t.item? place with
    | none => rw [hplace] at h; cases h
    | some j => rw [hplace] at h; cases h
  | cons name rest ih =>
    rw [advance] at h
    split at h
    · cases h
    split at h
    · exact ih h
    split at h
    · cases h
    cases hnext : t.item? (place ++ [name]) with
    | none =>
      rw [hnext] at h
      dsimp only at h
      split at h
      · cases h
        exact hnext
      · cases h
    | some j =>
      rw [hnext] at h
      cases j with
      | link target => cases h
      | folder => exact ih h
      | file content time => exact ih h

theorem item?_of_follow_vacant {place : Place} {names : List Text} {links : Nat}
    (h : t.follow place names links = .ok (p, none)) : t.item? p = none := by
  induction links generalizing place names with
  | zero => cases h
  | succ links ih =>
    rw [follow] at h
    cases ha : t.advance place names with
    | found q j => rw [ha] at h; cases h
    | vacant q => rw [ha] at h; cases h; exact item?_of_advance_vacant ha
    | failed f => rw [ha] at h; cases h
    | link folder target rest => rw [ha] at h; exact ih h

/-- A path that leads somewhere is made of names, which are followed. -/
theorem locate_eq_ok {path : Place} {found : Place × Option FileItem} (h : t.locate path = .ok found) :
    path.forM checkName = .ok () ∧ t.follow [] path (maxLinks + 1) = .ok found := by
  unfold locate at h
  cases hnames : path.forM checkName with
  | error f => rw [hnames] at h; cases h
  | ok _ =>
    rw [hnames] at h
    dsimp only [bind, Except.bind] at h
    split at h
    · cases h
    · exact ⟨rfl, h⟩

/-- Where a path leads to a free place, nothing stands. -/
theorem item?_of_locate_vacant {path : Place} (h : t.locate path = .ok (p, none)) : t.item? p = none :=
  item?_of_follow_vacant (locate_eq_ok h).2

/-! ## Where a path arrives -/

theorem item?_of_advance {place : Place} {names : List Text} {i : FileItem}
    (h : t.advance place names = .found p i) : t.item? p = some i := by
  induction names generalizing place with
  | nil =>
    rw [advance] at h
    cases hplace : t.item? place with
    | none => rw [hplace] at h; cases h
    | some j => rw [hplace] at h; cases h; exact hplace
  | cons name rest ih =>
    rw [advance] at h
    split at h
    · cases h
    split at h
    · exact ih h
    split at h
    · cases h
    split at h
    · split at h <;> cases h
    · cases h
    · exact ih h

theorem item?_of_follow {place : Place} {names : List Text} {links : Nat} {i : FileItem}
    (h : t.follow place names links = .ok (p, some i)) : t.item? p = some i := by
  induction links generalizing place names with
  | zero => cases h
  | succ links ih =>
    rw [follow] at h
    cases ha : t.advance place names with
    | found q j => rw [ha] at h; cases h; exact item?_of_advance ha
    | vacant q => rw [ha] at h; cases h
    | failed f => rw [ha] at h; cases h
    | link folder target rest => rw [ha] at h; exact ih h

/-- What a path leads to stands where it leads to. -/
theorem item?_of_locate {path : Place} {i : FileItem} (h : t.locate path = .ok (p, some i)) :
    t.item? p = some i :=
  item?_of_follow (locate_eq_ok h).2

theorem locate_of_stat {path : Place} {i : FileItem} (h : t.stat path = .ok i) :
    ∃ p, t.locate path = .ok (p, some i) := by
  unfold stat at h
  cases hl : t.locate path with
  | error f => rw [hl] at h; cases h
  | ok found =>
    obtain ⟨p, item⟩ := found
    rw [hl] at h
    cases item with
    | none => cases h
    | some j => cases h; exact ⟨p, rfl⟩

/-! ## Files -/

/-- A path that can be read leads to a file. -/
theorem locate_of_read {path : Place} {content : FileContent} (h : t.read path = .ok content) :
    ∃ p time, t.locate path = .ok (p, some (.file content time)) := by
  unfold read at h
  cases hstat : t.stat path with
  | error f => rw [hstat] at h; cases h
  | ok i =>
    obtain ⟨p, hlocate⟩ := locate_of_stat hstat
    rw [hstat] at h
    cases i with
    | file content' time => cases h; exact ⟨p, time, hlocate⟩
    | folder => cases h
    | link target => cases h

theorem read_of_locate {path : Place} {content : FileContent} {time : Int}
    (h : t.locate path = .ok (p, some (.file content time))) :
    t.read path = .ok content ∧ t.exists? path = .ok true := by
  unfold read exists? leadsTo stat
  rw [h]
  exact ⟨rfl, rfl⟩

/-- A file that can be read can be written, and then it is what was written. -/
theorem read_of_write {path : Place} {content : FileContent} (h : t.read path = .ok content)
    (bytes : List UInt8) :
    ∃ t', t.write path bytes = .ok t' ∧ t'.read path = .ok (.bytes bytes) ∧ t'.exists? path = .ok true := by
  obtain ⟨p, time, hlocate⟩ := locate_of_read h
  have hitem := item?_of_locate hlocate
  refine ⟨t.put p (.file (.bytes bytes) time), ?_, read_of_locate (locate_put hitem hlocate)⟩
  unfold write
  rw [hlocate]
  rfl

/-- A file that has been written is what was written, new or not. -/
theorem read_after_write {t' : FileTree} {path : Place} {bytes : List UInt8} (h : t.write path bytes = .ok t') :
    t'.read path = .ok (.bytes bytes) ∧ t'.exists? path = .ok true := by
  unfold write at h
  cases hlocate : t.locate path with
  | error f => rw [hlocate] at h; cases h
  | ok found =>
    obtain ⟨p, item⟩ := found
    rw [hlocate] at h
    cases item with
    | none =>
      cases h
      have hfile : ∀ target, FileItem.file (.bytes bytes) t.clock ≠ .link target := by
        intro target he
        cases he
      exact read_of_locate (locate_put_vacant (item?_of_locate_vacant hlocate) hfile hlocate)
    | some i =>
      cases i with
      | file content time =>
        cases h
        exact read_of_locate (locate_put (item?_of_locate hlocate) hlocate)
      | folder => cases h
      | link target => cases h

end NoteAccess.FileTree
