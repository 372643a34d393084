/-
  NoteAccess.Proofs.FileTree.Meaning

  The place that a path means.  A path that its names lead along without a link means
  the place that it says (`meaning_eq`).  A path whose links come to an end means such a
  place, which therefore means itself (`resolve_resolve`).

  How many links may be opened makes no difference if they are as many as there are
  (`meaningFrom_links`).  What a path means is made of names only (`isName_of_resolve`),
  so its text means the same place again.
-/

import Mathlib.Data.Finset.Card
import Mathlib.Data.Finset.Image
import Mathlib.Data.List.Basic
import NoteAccess.FileTree
import NoteAccess.Proofs.VaultPath
import NoteAccess.Surroundings

namespace NoteAccess

/-! ## Places without links on the way -/

namespace FilePath

theorem foldDots_of_not_mem {segments : List Text} (h : (".." : Text) ∉ segments) :
    foldDots segments = segments := by
  have hfold : ∀ seen : List Text,
      segments.foldl (fun (seen : List Text) (s : Text) => if s == ".." then seen.drop 1 else s :: seen)
        seen = segments.reverse ++ seen := by
    induction segments with
    | nil => exact fun seen => rfl
    | cons s segments ih =>
      obtain ⟨hs, hrest⟩ := not_or.mp (mt List.mem_cons.mpr h)
      intro seen
      rw [List.foldl_cons, if_neg (by simpa using Ne.symm hs), ih hrest, List.reverse_cons,
        List.append_assoc, List.singleton_append]
  rw [foldDots, hfold, List.append_nil, List.reverse_reverse]

theorem mem_of_mem_foldDots {segments : List Text} {n : Text} (h : n ∈ foldDots segments) :
    n ∈ segments ∧ n ≠ ".." := by
  -- What is kept on the way was there before, or is one of the names that have been seen.
  have hfold : ∀ seen : List Text, n ∈ segments.foldl
      (fun (seen : List Text) (s : Text) => if s == ".." then seen.drop 1 else s :: seen) seen →
      n ∈ seen ∨ (n ∈ segments ∧ n ≠ "..") := by
    clear h
    induction segments with
    | nil => exact fun seen hn => .inl hn
    | cons s segments ih =>
      intro seen hn
      rcases ih _ hn with hmem | ⟨hmem, hne⟩
      · dsimp only at hmem
        split at hmem
        · exact .inl (List.mem_of_mem_drop hmem)
        · next hs =>
          rcases List.mem_cons.mp hmem with rfl | hmem
          · exact .inr ⟨List.mem_cons_self, by simpa using hs⟩
          · exact .inl hmem
      · exact .inr ⟨List.mem_cons_of_mem s hmem, hne⟩
  exact (hfold [] (List.mem_reverse.mp h)).resolve_left List.not_mem_nil

end FilePath

namespace FileTree

variable {t t' : FileTree} {path p q place : Place} {names : List Text} {links : Nat} {opened : List Place}

/-- Names among which there is no link and none that leads upwards mean what they say, if
    all of them can be names. -/
theorem meaningFrom_eq (hdots : (".." : Text) ∉ names)
    (hlinks : ∀ p target, p <+: place ++ names → t.item? p ≠ some (.link target)) :
    t.meaningFrom links opened place names =
      (names.forM checkName).map fun _ => (place ++ names, true) := by
  -- Each step moves one name to the place, and the whole path stays the same.
  induction names generalizing place with
  | nil =>
    rw [meaningFrom, List.append_nil]
    rfl
  | cons name rest ih =>
    obtain ⟨hname, hrest⟩ := not_or.mp (mt List.mem_cons.mpr hdots)
    have hnext : place ++ name :: rest = (place ++ [name]) ++ rest := by
      rw [List.append_assoc, List.singleton_append]
    have hitem : ∀ target, t.item? (place ++ [name]) ≠ some (.link target) := by
      intro target
      refine hlinks _ target ?_
      rw [hnext]
      exact List.prefix_append _ _
    have hcheck : (name :: rest).forM checkName = (checkName name).bind fun _ => rest.forM checkName :=
      rfl
    rw [meaningFrom, if_neg (by simpa using Ne.symm hname), hcheck]
    cases checkName name with
    | error f => rfl
    | ok _ =>
      dsimp only
      split
      · next target hlink => exact absurd hlink (hitem target)
      · rw [hnext] at hlinks ⊢
        exact ih hrest hlinks

/-- Such a path means its own place. -/
theorem meaning_eq (hdots : (".." : Text) ∉ path)
    (hlinks : ∀ p target, p <+: path → t.item? p ≠ some (.link target)) :
    t.meaning path = (path.forM checkName).map fun _ => path := by
  rw [meaning, meaningFrom_eq hdots (by simpa using hlinks), List.nil_append]
  cases path.forM checkName with
  | error f => rfl
  | ok _ => exact congrArg Except.ok (FilePath.foldDots_of_not_mem hdots)

theorem resolve_eq (hdots : (".." : Text) ∉ path)
    (hlinks : ∀ q target, q <+: path → t.item? q ≠ some (.link target))
    (h : t.resolve path = .ok p) : p = path := by
  unfold resolve at h
  rw [meaning_eq hdots hlinks] at h
  cases hnames : path.forM checkName with
  | error f => rw [hnames] at h; cases h
  | ok _ =>
    rw [hnames] at h
    dsimp only [bind, Except.bind, Except.map] at h
    split at h
    · cases h
    · cases h
    · cases h
    · cases h
      rfl

/-! ## Places that links lead to -/

/-- A place that its names lead to, none of which leads upwards or is that of a link. -/
structure Straight (t : FileTree) (p : Place) : Prop where
  dots : (".." : Text) ∉ p
  links : ∀ q target, q <+: p → t.item? q ≠ some (.link target)
  names : ∀ name ∈ p, checkName name = .ok ()

theorem straight_nil (t : FileTree) : t.Straight [] where
  dots := List.not_mem_nil
  links q target hq := by
    rw [List.prefix_nil.mp hq]
    exact nofun
  names _ hname := absurd hname List.not_mem_nil

theorem Straight.of_prefix (h : t.Straight p) (hq : q <+: p) : t.Straight q where
  dots hmem := h.dots (hq.subset hmem)
  links r target hr := h.links r target (hr.trans hq)
  names name hname := h.names name (hq.subset hname)

theorem Straight.dropLast (h : t.Straight p) : t.Straight p.dropLast := h.of_prefix (List.dropLast_prefix p)

theorem Straight.concat {name : Text} (h : t.Straight p) (hdots : name ≠ "..") (hname : checkName name = .ok ())
    (hitem : ∀ target, t.item? (p ++ [name]) ≠ some (.link target)) : t.Straight (p ++ [name]) where
  dots hmem := by
    rcases List.mem_append.mp hmem with hmem | hmem
    · exact h.dots hmem
    · exact hdots (List.mem_singleton.mp hmem).symm
  links q target hq := by
    rcases List.prefix_concat_iff.mp hq with rfl | hq
    · exact hitem target
    · exact h.links q target hq
  names n hn := by
    rcases List.mem_append.mp hn with hn | hn
    · exact h.names n hn
    · rwa [List.mem_singleton.mp hn]

theorem forM_checkName_eq_ok : names.forM checkName = .ok () ↔ ∀ n ∈ names, checkName n = .ok () := by
  induction names with
  | nil => exact iff_of_true rfl fun _ h => absurd h List.not_mem_nil
  | cons n names ih =>
    have hcons : (n :: names).forM checkName = (checkName n).bind fun _ => names.forM checkName := rfl
    rw [hcons, List.forall_mem_cons, ← ih]
    cases checkName n with
    | error f => exact ⟨nofun, nofun⟩
    | ok _ => exact (and_iff_right rfl).symm

theorem Straight.meaningFrom_eq (h : t.Straight p) : t.meaningFrom links opened [] p = .ok (p, true) := by
  have hlinks : ∀ q target, q <+: [] ++ p → t.item? q ≠ some (.link target) := h.links
  rw [FileTree.meaningFrom_eq h.dots hlinks, forM_checkName_eq_ok.mpr h.names]
  rfl

/-- Where all links come to an end, the place at the end is a straight one. -/
theorem straight_of_meaningFrom (hplace : t.Straight place)
    (h : t.meaningFrom links opened place names = .ok (p, true)) : t.Straight p := by
  -- The steps of the walk: only upwards, to a name that is no link's, and past a link, from the
  -- place that it leads to, does the walk get anywhere.
  fun_induction meaningFrom t links opened place names generalizing p with
  | case1 =>
    cases h
    exact hplace
  | case2 links opened place name rest hup ih => exact ih hplace.dropLast h
  | case8 opened place name rest hname hcheck next target hlink links hopened q hq ihTarget =>
    rename_i ihRest
    refine ihRest (ihTarget ?_ hq) h
    unfold startOf
    split
    · exact straight_nil t
    · exact hplace
  | case9 links opened place name rest hname hcheck next hlink =>
    rename_i ih
    exact ih (hplace.concat (by simpa using hname) hcheck hlink) h
  | _ => cases h

theorem meaning_of_meaningFrom (h : t.meaningFrom t.items.length [] [] path = .ok (p, true)) :
    t.meaning path = .ok p := by
  rw [meaning, h]
  exact congrArg Except.ok (FilePath.foldDots_of_not_mem (straight_of_meaningFrom (straight_nil t) h).dots)

theorem Straight.meaning_eq (h : t.Straight p) : t.meaning p = .ok p := meaning_of_meaningFrom h.meaningFrom_eq

/-- A path is resolved to the place that it means if there is something. -/
theorem resolve_of_meaningFrom {i : FileItem} (h : t.meaningFrom t.items.length [] [] path = .ok (p, true))
    (hstat : t.stat p = .ok i) : t.resolve path = .ok p := by
  unfold resolve
  rw [meaning_of_meaningFrom h]
  dsimp only [bind, Except.bind]
  generalize t.stat p = item at hstat ⊢
  cases hstat
  rfl

/-- The links on the way of a path come to an end: none leads back to itself. -/
def Ends (t : FileTree) (path : Place) : Prop := ∃ p, t.meaningFrom t.items.length [] [] path = .ok (p, true)

/-- Where the links of a path come to an end, the place that it means means itself. -/
theorem resolve_resolve (hends : t.Ends path) (h : t.resolve path = .ok p) : t.resolve p = .ok p := by
  obtain ⟨q, hq⟩ := hends
  have hstraight := straight_of_meaningFrom (straight_nil t) hq
  have hsame : t.resolve path = t.resolve q := by
    rw [resolve, resolve, meaning_of_meaningFrom hq, hstraight.meaning_eq]
  obtain rfl := resolve_eq hstraight.dots hstraight.links (hsame.symm.trans h)
  exact hsame.symm.trans h

/-! ## Links that may be opened -/

/-- A walk that comes to a link. -/
theorem meaningFrom_link {t : FileTree} {opened : List Place} {place : Place} {name target : Text} {rest : List Text}
    (hname : ¬ (name == "..") = true) (hcheck : checkName name = .ok ())
    (hlink : t.item? (place ++ [name]) = some (.link target)) (links : Nat) :
    t.meaningFrom links opened place (name :: rest) =
      match links with
      | 0 => .ok (place ++ [name] ++ rest, false)
      | links + 1 =>
        if opened.contains (place ++ [name]) then .ok (place ++ [name] ++ rest, false)
        else match t.meaningFrom links ((place ++ [name]) :: opened) (startOf place target)
            (FilePath.segmentsOf target) with
          | .error f => .error f
          | .ok (p, false) => .ok (p ++ rest, false)
          | .ok (p, true) => t.meaningFrom (links + 1) opened p rest := by
  rw [meaningFrom, if_neg hname, hcheck]
  dsimp only
  generalize t.item? (place ++ [name]) = item at hlink ⊢
  cases hlink
  rfl

/-- A link at the end of a walk leads to where its target leads. -/
theorem meaningFrom_link_end {t : FileTree} {opened : List Place} {place p : Place} {name target : Text} {links : Nat}
    (hname : ¬ (name == "..") = true) (hcheck : checkName name = .ok ())
    (hlink : t.item? (place ++ [name]) = some (.link target)) (hopened : opened.contains (place ++ [name]) = false)
    (h : t.meaningFrom links ((place ++ [name]) :: opened) (startOf place target) (FilePath.segmentsOf target) =
      .ok (p, true)) :
    t.meaningFrom (links + 1) opened place [name] = .ok (p, true) := by
  rw [meaningFrom_link hname hcheck hlink]
  dsimp only
  rw [hopened]
  generalize t.meaningFrom links _ _ _ = walked at h ⊢
  cases h
  exact meaningFrom.eq_1 t (links + 1) opened p

/-- A link that leads back to itself leaves the rest of the path as it is written. -/
theorem meaningFrom_link_loop {t : FileTree} {opened : List Place} {place p : Place} {name target : Text}
    {rest : List Text} {links : Nat} (hname : ¬ (name == "..") = true) (hcheck : checkName name = .ok ())
    (hlink : t.item? (place ++ [name]) = some (.link target)) (hopened : opened.contains (place ++ [name]) = false)
    (h : t.meaningFrom links ((place ++ [name]) :: opened) (startOf place target) (FilePath.segmentsOf target) =
      .ok (p, false)) :
    t.meaningFrom (links + 1) opened place (name :: rest) = .ok (p ++ rest, false) := by
  rw [meaningFrom_link hname hcheck hlink]
  dsimp only
  rw [hopened]
  generalize t.meaningFrom links _ _ _ = walked at h ⊢
  cases h
  rfl

/-- Whether a link stands at a place. -/
def isLink (t : FileTree) (p : Place) : Bool :=
  match t.item? p with
  | some (.link _) => true
  | _ => false

theorem isLink_iff : t.isLink p = true ↔ ∃ target, t.item? p = some (.link target) := by
  unfold isLink
  split
  · next target hlink => exact iff_of_true rfl ⟨target, hlink⟩
  · next hother =>
    refine iff_of_false Bool.false_ne_true ?_
    rintro ⟨target, hlink⟩
    exact hother target hlink

/-- The places of the links that are not being followed. -/
def unopened (t : FileTree) (opened : List Place) : Finset Place :=
  ((t.items.map Prod.fst).filter t.isLink).toFinset \ opened.toFinset

theorem mem_unopened_iff : p ∈ t.unopened opened ↔ t.isLink p = true ∧ p ∉ opened := by
  have hlisted : t.isLink p = true → p ∈ t.items.map Prod.fst := by
    intro h
    obtain ⟨target, hlink⟩ := isLink_iff.mp h
    unfold item? at hlink
    split at hlink
    · cases hlink
    · obtain ⟨before, after, hitems, -⟩ := List.lookup_eq_some_iff.mp hlink
      rw [hitems, List.map_append, List.map_cons]
      exact List.mem_append_right _ List.mem_cons_self
  rw [unopened, Finset.mem_sdiff, List.mem_toFinset, List.mem_toFinset, List.mem_filter]
  exact ⟨fun h => ⟨h.1.2, h.2⟩, fun h => ⟨⟨hlisted h.1, h.1⟩, h.2⟩⟩

theorem card_unopened_le (t : FileTree) (opened : List Place) : (t.unopened opened).card ≤ t.items.length := by
  calc (t.unopened opened).card
      ≤ ((t.items.map Prod.fst).filter t.isLink).toFinset.card := Finset.card_le_card Finset.sdiff_subset
    _ ≤ ((t.items.map Prod.fst).filter t.isLink).length := List.toFinset_card_le _
    _ ≤ (t.items.map Prod.fst).length := List.length_filter_le _ _
    _ = t.items.length := List.length_map _

/-- A link that is opened is one less to be opened. -/
theorem card_unopened_cons {target : Text} (h : t.item? p = some (.link target)) (hopened : p ∉ opened) :
    (t.unopened (p :: opened)).card + 1 = (t.unopened opened).card := by
  have herase : t.unopened (p :: opened) = (t.unopened opened).erase p := by
    rw [unopened, unopened, List.toFinset_cons, Finset.sdiff_insert]
  rw [herase]
  exact Finset.card_erase_add_one (mem_unopened_iff.mpr ⟨isLink_iff.mpr ⟨target, h⟩, hopened⟩)

/-- Links that may be opened besides those that there are make no difference. -/
theorem meaningFrom_links {links' : Nat} (h : (t.unopened opened).card ≤ links)
    (h' : (t.unopened opened).card ≤ links') :
    t.meaningFrom links' opened place names = t.meaningFrom links opened place names := by
  fun_induction meaningFrom t links opened place names generalizing links' with
  | case1 => rw [meaningFrom]
  | case2 links opened place name rest hup ih => rw [meaningFrom, if_pos hup, ih h h']
  | case3 links opened place name rest hname f hcheck => rw [meaningFrom, if_neg hname, hcheck]
  | case4 opened place name rest hname hcheck next target =>
    rename_i hlink
    -- No link is left, so this one is being followed.
    have hmem : next ∈ opened := by
      by_contra hne
      have := card_unopened_cons hlink hne
      omega
    rw [meaningFrom_link hname hcheck hlink]
    cases links' with
    | zero => rfl
    | succ links' => exact if_pos (List.contains_iff_mem.mpr hmem)
  | case5 opened place name rest hname hcheck next target hlink links =>
    rename_i hopened
    rw [meaningFrom_link hname hcheck hlink]
    cases links' with
    | zero => rfl
    | succ links' => exact if_pos hopened
  | case6 opened place name rest hname hcheck next target hlink links hopened f hf =>
    rename_i ih
    have hcard := card_unopened_cons hlink (mt List.contains_iff_mem.mpr hopened)
    obtain ⟨links', rfl⟩ := Nat.exists_eq_succ_of_ne_zero (n := links') (by omega)
    rw [meaningFrom_link hname hcheck hlink]
    dsimp only
    rw [if_neg hopened, ih (by omega) (by omega), hf]
  | case7 opened place name rest hname hcheck next target hlink links hopened q hq =>
    rename_i ih
    have hcard := card_unopened_cons hlink (mt List.contains_iff_mem.mpr hopened)
    obtain ⟨links', rfl⟩ := Nat.exists_eq_succ_of_ne_zero (n := links') (by omega)
    rw [meaningFrom_link hname hcheck hlink]
    dsimp only
    rw [if_neg hopened, ih (by omega) (by omega), hq]
  | case8 opened place name rest hname hcheck next target hlink links hopened q hq ihTarget =>
    rename_i ihRest
    have hcard := card_unopened_cons hlink (mt List.contains_iff_mem.mpr hopened)
    obtain ⟨links', rfl⟩ := Nat.exists_eq_succ_of_ne_zero (n := links') (by omega)
    rw [meaningFrom_link hname hcheck hlink]
    dsimp only
    rw [if_neg hopened, ihTarget (by omega) (by omega), hq]
    exact ihRest h h'
  | case9 links opened place name rest hname hcheck next hlink =>
    rename_i ih
    rw [meaningFrom, if_neg hname, hcheck]
    dsimp only
    split
    · next target hlink' => exact absurd hlink' (hlink target)
    · exact ih h h'

/-! ## Names of places -/

/-- The place that names mean has names that are written somewhere. -/
theorem isName_of_meaningFrom {walked : Bool} (hplace : ∀ n ∈ place, IsName n) (hnames : ∀ n ∈ names, IsName n)
    (h : t.meaningFrom links opened place names = .ok (p, walked)) : ∀ n ∈ p, IsName n := by
  -- Every name of the place comes from the path or from the path of a link.
  have hwhole : ∀ (place : Place) (name : Text) (rest : List Text), (∀ n ∈ place, IsName n) →
      (∀ n ∈ name :: rest, IsName n) → ∀ n ∈ place ++ [name] ++ rest, IsName n := by
    intro place name rest hplace hnames
    rw [List.append_assoc, List.singleton_append]
    exact List.forall_mem_append.mpr ⟨hplace, hnames⟩
  have hstart : ∀ (folder : Place) (target : Text), (∀ n ∈ folder, IsName n) →
      ∀ n ∈ startOf folder target, IsName n := by
    intro folder target hfolder
    unfold startOf
    split
    · exact fun _ h => absurd h List.not_mem_nil
    · exact hfolder
  have htarget : ∀ target : Text, ∀ n ∈ FilePath.segmentsOf target, IsName n :=
    fun target n hn => FilePath.isName_of_mem_segmentsOf hn
  fun_induction meaningFrom t links opened place names generalizing p walked with
  | case1 =>
    cases h
    exact hplace
  | case2 links opened place name rest hup ih =>
    exact ih (fun n hn => hplace n (List.dropLast_subset place hn)) (List.forall_mem_cons.mp hnames).2 h
  | case4 opened place name rest hname hcheck next target =>
    cases h
    exact hwhole _ _ _ hplace hnames
  | case5 opened place name rest hname hcheck next target hlink links =>
    cases h
    exact hwhole _ _ _ hplace hnames
  | case7 opened place name rest hname hcheck next target hlink links hopened q hq =>
    rename_i ih
    cases h
    exact List.forall_mem_append.mpr ⟨ih (hstart _ _ hplace) (htarget target) hq, (List.forall_mem_cons.mp hnames).2⟩
  | case8 opened place name rest hname hcheck next target hlink links hopened q hq ihTarget =>
    rename_i ihRest
    exact ihRest (ihTarget (hstart _ _ hplace) (htarget target) hq) (List.forall_mem_cons.mp hnames).2 h
  | case9 links opened place name rest hname hcheck next hlink =>
    rename_i ih
    refine ih ?_ (List.forall_mem_cons.mp hnames).2 h
    exact List.forall_mem_append.mpr ⟨hplace, List.forall_mem_singleton.mpr (List.forall_mem_cons.mp hnames).1⟩
  | _ => cases h

/-- The place of a path has the names of the path, or those of links. -/
theorem isName_of_resolve (hnames : ∀ n ∈ path, IsName n) (h : t.resolve path = .ok p) : ∀ n ∈ p, IsName n := by
  unfold resolve meaning at h
  cases hwalk : t.meaningFrom t.items.length [] [] path with
  | error f => rw [hwalk] at h; cases h
  | ok q =>
    obtain ⟨q, walked⟩ := q
    rw [hwalk] at h
    have hq := isName_of_meaningFrom (fun _ hn => absurd hn List.not_mem_nil) hnames hwalk
    dsimp only [bind, Except.bind, Except.map] at h
    split at h
    · cases h
    · cases h
    · cases h
    · cases h
      exact fun n hn => hq n (FilePath.mem_of_mem_foldDots hn).1

end FileTree

theorem FilePath.isName_of_append {p q : FilePath} (hp : ∀ n ∈ p.segments, IsName n) (hq : ∀ n ∈ q.segments, IsName n) :
    ∀ n ∈ (p ++ q).segments, IsName n := by
  show ∀ n ∈ (FilePath.append p q).segments, IsName n
  unfold append
  split
  · exact hq
  · exact List.forall_mem_append.mpr ⟨hp, hq⟩

/-- A path in a home folder is one of names. -/
theorem FilePath.isName_of_inHome {home : Text} {p : FilePath} (hp : ∀ n ∈ p.segments, IsName n) :
    ∀ n ∈ (p.inHome home).segments, IsName n :=
  FilePath.isName_of_append (fun _ hn => FilePath.isName_of_mem_segmentsOf hn)
    fun n hn => hp n (List.mem_of_mem_drop hn)

/-- Whatever stands in place of a tilde, the path is one of names. -/
theorem Surroundings.isName_of_expand {s : Surroundings} {p q : FilePath} (hp : ∀ n ∈ p.segments, IsName n)
    (h : s.expand p = .ok q) : ∀ n ∈ q.segments, IsName n := by
  unfold expand at h
  split at h
  · cases h
    exact hp
  · split at h
    · split at h
      · cases h
      · cases h
        exact FilePath.isName_of_inHome hp
    · cases h

/-- A text means a place with names, if the folder that it is seen from is one. -/
theorem Surroundings.isName_of_resolve {s : Surroundings} {t : FileTree} {path : Text} {p : Place}
    (hfolder : ∀ n ∈ s.folder, IsName n) (h : s.resolve t path = .ok p) : ∀ n ∈ p, IsName n := by
  unfold resolve locate at h
  cases hhome : s.expand (FilePath.ofText path) with
  | error f =>
    rw [hhome] at h
    cases h
  | ok q =>
    rw [hhome] at h
    refine FileTree.isName_of_resolve (FilePath.isName_of_append hfolder ?_) h
    exact isName_of_expand (fun _ hn => FilePath.isName_of_mem_segmentsOf hn) hhome

/-- The path of a place is read as it is written. -/
theorem ofText_text {p : Place} (h : ∀ n ∈ p, IsName n) : FilePath.ofText (Place.text p) = Place.path p := by
  have htext : Place.text p = CodePoint.slash :: Text.join [CodePoint.slash] p := rfl
  have hsegments : FilePath.segmentsOf (CodePoint.slash :: Text.join [CodePoint.slash] p) = p :=
    (FilePath.segmentsOf_append [] _).trans (FilePath.segmentsOf_join h)
  -- The first name does not begin with a second separator.
  have hanchor : FilePath.anchorOf (CodePoint.slash :: Text.join [CodePoint.slash] p) = [CodePoint.slash] := by
    cases p with
    | nil => rfl
    | cons n rest =>
      obtain ⟨hn, -⟩ := List.forall_mem_cons.mp h
      cases n with
      | nil => cases hn.1
      | cons c n =>
        have hc : c ≠ CodePoint.slash := fun hc => hn.2 (hc ▸ List.mem_cons_self)
        obtain ⟨u, hu⟩ : ∃ u, Text.join [CodePoint.slash] ((c :: n) :: rest) = c :: u := by
          cases rest with
          | nil => exact ⟨n, by simp [Text.join, List.intercalate]⟩
          | cons m rest => exact ⟨_, by simp [Text.join, List.intercalate]; rfl⟩
        rw [hu]
        unfold FilePath.anchorOf
        split
        · next heq => cases heq; exact absurd rfl hc
        · next heq => cases heq; exact absurd rfl hc
        · rfl
        · next hne => exact absurd rfl (hne _)
  rw [htext, FilePath.ofText, hsegments, hanchor]
  rfl

end NoteAccess
