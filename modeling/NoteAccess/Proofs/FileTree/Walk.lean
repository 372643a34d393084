/-
  NoteAccess.Proofs.FileTree.Walk

  Opening a path and resolving it come to the same place.  Opening follows all links one
  after the other, up to a limit; resolving follows each link to its end before it goes on
  and gives up where a link leads back to itself.  In between stands `Walk`: a walk counts
  the links on its way, and there is only one for a path (`Walk.unique`), so no link is met
  on the way to its own end.

  Hence what a path can be opened as is what stands at the place that it means
  (`resolve_of_locate`).
-/

import NoteAccess.Proofs.FileTree
import NoteAccess.Proofs.FileTree.Meaning

namespace NoteAccess.FileTree

variable {t : FileTree} {path p q place : Place} {names : List Text} {links : Nat} {opened : List Place}
  {k k' : Nat}

/-! ## Walks -/

/-- Names lead from a place to another one when all links on the way are opened; their number is
    that of the openings. -/
inductive Walk (t : FileTree) : Nat → Place → List Text → Place → Prop where
  | done (place : Place) : Walk t 0 place [] place
  | up {k : Nat} {place q : Place} {rest : List Text} :
      Walk t k place.dropLast rest q → Walk t k place (".." :: rest) q
  | step {k : Nat} {place q : Place} {name : Text} {rest : List Text} :
      name ≠ ".." → checkName name = .ok () → (∀ target, t.item? (place ++ [name]) ≠ some (.link target)) →
      Walk t k (place ++ [name]) rest q → Walk t k place (name :: rest) q
  | link {k k' : Nat} {place p q : Place} {name target : Text} {rest : List Text} :
      name ≠ ".." → checkName name = .ok () → t.item? (place ++ [name]) = some (.link target) →
      Walk t k (startOf place target) (FilePath.segmentsOf target) p → Walk t k' p rest q →
      Walk t (k + 1 + k') place (name :: rest) q

/-- Names lead to one place only, and over the same links. -/
theorem Walk.unique (h : t.Walk k place names p) (h' : t.Walk k' place names q) : k = k' ∧ p = q := by
  induction h generalizing k' q with
  | done => cases h'; exact ⟨rfl, rfl⟩
  | up _ ih =>
    cases h' with
    | up h' => exact ih h'
    | step hname => exact absurd rfl hname
    | link hname => exact absurd rfl hname
  | step hname _ hlink _ ih =>
    cases h' with
    | up => exact absurd rfl hname
    | step _ _ _ h' => exact ih h'
    | link _ _ hlink' => exact absurd hlink' (hlink _)
  | link hname _ hlink _ _ ihTarget ihRest =>
    cases h' with
    | up => exact absurd rfl hname
    | step _ _ hlink' => exact absurd hlink (hlink' _)
    | link _ _ hlink' htarget hrest =>
      cases hlink.symm.trans hlink'
      obtain ⟨rfl, rfl⟩ := ihTarget htarget
      obtain ⟨rfl, rfl⟩ := ihRest hrest
      exact ⟨rfl, rfl⟩

/-- Walks one behind the other are a walk over the links of both. -/
theorem Walk.append {rest : List Text} (h : t.Walk k place names p) (h' : t.Walk k' p rest q) :
    t.Walk (k + k') place (names ++ rest) q := by
  induction h with
  | done => rwa [Nat.zero_add]
  | up _ ih => exact .up (ih h')
  | step hname hcheck hlink _ ih => exact .step hname hcheck hlink (ih h')
  | link hname hcheck hlink htarget _ _ ihRest =>
    rw [Nat.add_assoc]
    exact .link hname hcheck hlink htarget (ihRest h')

/-- A walk passes the place that its first names lead to. -/
theorem Walk.split {rest : List Text} (h : t.Walk k place (names ++ rest) q) :
    ∃ i j p, t.Walk i place names p ∧ t.Walk j p rest q := by
  induction names generalizing k place with
  | nil => exact ⟨0, k, place, .done place, h⟩
  | cons name names ih =>
    cases h with
    | up h =>
      obtain ⟨i, j, p, hi, hj⟩ := ih h
      exact ⟨i, j, p, .up hi, hj⟩
    | step hname hcheck hlink h =>
      obtain ⟨i, j, p, hi, hj⟩ := ih h
      exact ⟨i, j, p, .step hname hcheck hlink hi, hj⟩
    | link hname hcheck hlink htarget h =>
      obtain ⟨i, j, p, hi, hj⟩ := ih h
      exact ⟨_, j, p, .link hname hcheck hlink htarget hi, hj⟩

/-! ## Opening a path -/

/-- The first step of a walk that gets somewhere. -/
theorem advance_cons {name : Text} {rest : List Text} {a : Arrival} (h : t.advance place (name :: rest) = a) :
    (∃ f, a = .failed f) ∨ (∃ p, a = .vacant p) ∨
    (name = ".." ∧ t.advance place.dropLast rest = a) ∨
    (name ≠ ".." ∧ (∀ target, t.item? (place ++ [name]) ≠ some (.link target)) ∧
      t.advance (place ++ [name]) rest = a) ∨
    (name ≠ ".." ∧ ∃ target, t.item? (place ++ [name]) = some (.link target) ∧ a = .link place target rest) := by
  rw [advance] at h
  split at h
  · exact .inl ⟨_, h.symm⟩
  split at h
  · next hup => exact .inr (.inr (.inl ⟨beq_iff_eq.mp hup, h⟩))
  next hup =>
  have hname : name ≠ ".." := by simpa using hup
  split at h
  · exact .inl ⟨_, h.symm⟩
  split at h
  · split at h
    · exact .inr (.inl ⟨_, h.symm⟩)
    · exact .inl ⟨_, h.symm⟩
  · next target hlink => exact .inr (.inr (.inr (.inr ⟨hname, target, hlink, h.symm⟩)))
  · next i hother hitem =>
    refine .inr (.inr (.inr (.inl ⟨hname, fun target hlink => ?_, h⟩)))
    exact hother target (Option.some.inj (hitem.symm.trans hlink))

/-- Names without a link lead to where opening them arrives. -/
theorem walk_of_advance_found {i : FileItem} (hnames : ∀ n ∈ names, checkName n = .ok ())
    (h : t.advance place names = .found p i) : t.Walk 0 place names p := by
  induction names generalizing place with
  | nil =>
    rw [advance] at h
    split at h
    · cases h
      exact .done p
    · cases h
  | cons name rest ih =>
    obtain ⟨hname, hrest⟩ := List.forall_mem_cons.mp hnames
    rcases advance_cons h with ⟨f, hf⟩ | ⟨q, hq⟩ | ⟨rfl, hgo⟩ | ⟨hup, hlink, hgo⟩ | ⟨-, target, -, hl⟩
    · cases hf
    · cases hq
    · exact .up (ih hrest hgo)
    · exact .step hup hname hlink (ih hrest hgo)
    · cases hl

/-- The names in front of the first link lead to the folder that it is in. -/
theorem walk_of_advance_link {folder : Place} {target : Text} {rest : List Text}
    (hnames : ∀ n ∈ names, checkName n = .ok ()) (h : t.advance place names = .link folder target rest) :
    ∃ front name, names = front ++ name :: rest ∧ t.Walk 0 place front folder ∧ name ≠ ".." ∧
      t.item? (folder ++ [name]) = some (.link target) := by
  induction names generalizing place with
  | nil =>
    rw [advance] at h
    split at h <;> cases h
  | cons name names ih =>
    obtain ⟨hname, hrest⟩ := List.forall_mem_cons.mp hnames
    rcases advance_cons h with ⟨f, hf⟩ | ⟨q, hq⟩ | ⟨rfl, hgo⟩ | ⟨hup, hlink, hgo⟩ | ⟨hup, target, hlink, hl⟩
    · cases hf
    · cases hq
    · obtain ⟨front, n, rfl, hwalk, hn⟩ := ih hrest hgo
      exact ⟨".." :: front, n, rfl, .up hwalk, hn⟩
    · obtain ⟨front, n, rfl, hwalk, hn⟩ := ih hrest hgo
      exact ⟨name :: front, n, rfl, .step hup hname hlink hwalk, hn⟩
    · cases hl
      exact ⟨[], name, rfl, .done folder, hup, hlink⟩

/-- The targets of links are made of texts that can be names. -/
def GoodTargets (t : FileTree) : Prop :=
  ∀ p target, t.item? p = some (.link target) → ∀ n ∈ FilePath.segmentsOf target, checkName n = .ok ()

/-- Names lead to where opening them arrives. -/
theorem walk_of_follow {i : FileItem} (ht : t.GoodTargets) (hnames : ∀ n ∈ names, checkName n = .ok ())
    (h : t.follow place names links = .ok (p, some i)) : ∃ k, t.Walk k place names p := by
  induction links generalizing place names with
  | zero => cases h
  | succ links ih =>
    rw [follow] at h
    cases ha : t.advance place names with
    | found q j =>
      rw [ha] at h
      cases h
      exact ⟨0, walk_of_advance_found hnames ha⟩
    | vacant q => rw [ha] at h; cases h
    | failed f => rw [ha] at h; cases h
    | link folder target rest =>
      rw [ha] at h
      obtain ⟨front, name, rfl, hfront, hup, hlink⟩ := walk_of_advance_link hnames ha
      obtain ⟨-, hlater⟩ := List.forall_mem_append.mp hnames
      obtain ⟨hname, hrest⟩ := List.forall_mem_cons.mp hlater
      obtain ⟨k, hwalk⟩ := ih (List.forall_mem_append.mpr ⟨ht _ _ hlink, hrest⟩) h
      obtain ⟨i, j, q, htarget, hrest⟩ := hwalk.split
      exact ⟨_, hfront.append (.link hup hname hlink htarget hrest)⟩

/-! ## Resolving a path -/

/-- The walk from each of the places, which are links, goes over at least `k` links: the links that
    are being followed, while as many as that are still ahead. -/
def Behind (t : FileTree) (k : Nat) (opened : List Place) : Prop :=
  ∀ folder name target j q, folder ++ [name] ∈ opened → t.item? (folder ++ [name]) = some (.link target) →
    t.Walk j (startOf folder target) (FilePath.segmentsOf target) q → k ≤ j

theorem behind_nil (t : FileTree) (k : Nat) : t.Behind k [] :=
  fun _ _ _ _ _ hmem => absurd hmem List.not_mem_nil

/-- Resolving follows a walk to its end: no link on it is one that is being followed already. -/
theorem Walk.meaningFrom_eq (h : t.Walk k place names q)
    (hopened : t.Behind k opened) (hlinks : (t.unopened opened).card ≤ links) :
    t.meaningFrom links opened place names = .ok (q, true) := by
  induction h generalizing links opened with
  | done place => rw [meaningFrom]
  | up _ ih =>
    rw [meaningFrom, if_pos (by rfl)]
    exact ih hopened hlinks
  | step hname hcheck hlink _ ih =>
    rw [meaningFrom, if_neg (by simpa using hname), hcheck]
    dsimp only
    split
    · next target hlink' => exact absurd hlink' (hlink target)
    · exact ih hopened hlinks
  | @link k k' place p q name target rest hname hcheck hlink htarget hrest ihTarget ihRest =>
    -- The walk to the target is shorter than the whole one, so the link is not followed already.
    have hnext : place ++ [name] ∉ opened := by
      intro hmem
      have hle := hopened place name target k p hmem hlink htarget
      omega
    have hcard := card_unopened_cons hlink hnext
    obtain ⟨links, rfl⟩ := Nat.exists_eq_succ_of_ne_zero (n := links) (by omega)
    have htarget' : t.meaningFrom links ((place ++ [name]) :: opened) (startOf place target)
        (FilePath.segmentsOf target) = .ok (p, true) := by
      refine ihTarget ?_ (by omega)
      intro folder n target' j r hmem hlink' hwalk
      rcases List.mem_cons.mp hmem with heq | hmem
      · obtain ⟨rfl, hn⟩ := List.append_inj' heq rfl
        cases hn
        cases hlink.symm.trans hlink'
        exact (htarget.unique hwalk).1.le
      · have := hopened folder n target' j r hmem hlink' hwalk
        omega
    rw [meaningFrom_link (by simpa using hname) hcheck hlink]
    dsimp only
    rw [if_neg (mt List.contains_iff_mem.mp hnext), htarget']
    refine ihRest ?_ hlinks
    intro folder n target' j r hmem hlink' hwalk
    have := hopened folder n target' j r hmem hlink' hwalk
    omega

/-- A path that can be opened means the place that opening it comes to. -/
theorem meaningFrom_of_locate {i : FileItem} (ht : t.GoodTargets) (h : t.locate path = .ok (p, some i)) :
    t.meaningFrom t.items.length [] [] path = .ok (p, true) := by
  obtain ⟨hnames, hfollow⟩ := locate_eq_ok h
  obtain ⟨k, hwalk⟩ := walk_of_follow ht (forM_checkName_eq_ok.mp hnames) hfollow
  exact hwalk.meaningFrom_eq (behind_nil t k) (card_unopened_le t [])

/-! ## Trees of a file system -/

/-- What holds of the trees that there are: what stands somewhere has names, which lead through
    folders, and the target of a link is made of texts that can be names. -/
structure WellFormed (t : FileTree) : Prop where
  names : ∀ p i, t.item? p = some i → ∀ n ∈ p, IsName n
  folders : ∀ p i, t.item? p = some i → t.item? p.dropLast = some .folder
  targets : t.GoodTargets

theorem WellFormed.isName_of_mem (ht : t.WellFormed) (h : p ∈ t.items.map Prod.fst) : ∀ n ∈ p, IsName n := by
  by_cases hp : p = []
  · rw [hp]
    exact fun _ hn => absurd hn List.not_mem_nil
  · -- Something stands at a place that is listed.
    have hitem : ∃ i, t.item? p = some i := by
      obtain ⟨e, he, rfl⟩ := List.mem_map.mp h
      have hnot : t.items.lookup e.1 ≠ none := by
        intro hnone
        have hne := List.lookup_eq_none_iff.mp hnone e he
        simp at hne
      rw [item?, if_neg (by simpa using hp)]
      exact Option.ne_none_iff_exists'.mp hnot
    obtain ⟨i, hi⟩ := hitem
    exact ht.names p i hi

/-- A tree is well formed if its list of items is. -/
theorem wellFormed_of_items
    (h : ∀ p i, (p, i) ∈ t.items → (∀ n ∈ p, IsName n) ∧ t.item? p.dropLast = some .folder ∧
      ∀ target, i = .link target → ∀ n ∈ FilePath.segmentsOf target, checkName n = .ok ()) : t.WellFormed := by
  have hmem : ∀ p i, t.item? p = some i → (p = [] ∧ i = .folder) ∨ (p, i) ∈ t.items := by
    intro p i hi
    unfold item? at hi
    split at hi
    · next hp => exact .inl ⟨List.isEmpty_iff.mp hp, (Option.some.inj hi).symm⟩
    · obtain ⟨before, after, hitems, -⟩ := List.lookup_eq_some_iff.mp hi
      rw [hitems]
      exact .inr (List.mem_append_right _ List.mem_cons_self)
  refine ⟨fun p i hi => ?_, fun p i hi => ?_, fun p target hi => ?_⟩
  · rcases hmem p i hi with ⟨rfl, -⟩ | hp
    · exact fun _ hn => absurd hn List.not_mem_nil
    · exact (h p i hp).1
  · rcases hmem p i hi with ⟨rfl, -⟩ | hp
    · rfl
    · exact (h p i hp).2.1
  · rcases hmem p _ hi with ⟨-, hfolder⟩ | hp
    · cases hfolder
    · exact (h p _ hp).2.2 target rfl

/-- What stands behind a place makes it a folder. -/
theorem WellFormed.folder_of_append {i : FileItem} (ht : t.WellFormed) {rest : List Text} (hrest : rest ≠ [])
    (h : t.item? (p ++ rest) = some i) : t.item? p = some .folder := by
  induction rest using List.reverseRecOn generalizing i with
  | nil => exact absurd rfl hrest
  | append_singleton rest n ih =>
    have hfolder := ht.folders _ i h
    rw [← List.append_assoc, List.dropLast_concat] at hfolder
    by_cases hnil : rest = []
    · rwa [hnil, List.append_nil] at hfolder
    · exact ih hnil hfolder

/-- A place without links on the way can be opened, if its names are not too long. -/
theorem Straight.advance_eq {i : FileItem} (ht : t.WellFormed) (h : t.Straight (place ++ names))
    (hitem : t.item? (place ++ names) = some i) :
    t.advance place names = .found (place ++ names) i ∨ t.advance place names = .failed .fileSystem := by
  induction names generalizing place with
  | nil =>
    rw [List.append_nil] at hitem ⊢
    rw [advance, hitem]
    exact .inl rfl
  | cons n rest ih =>
    have hnext : place ++ n :: rest = (place ++ [n]) ++ rest := by
      rw [List.append_assoc, List.singleton_append]
    have hfolder : t.item? place = some .folder := ht.folder_of_append (List.cons_ne_nil n rest) hitem
    have hup : n ≠ ".." := by
      rintro rfl
      exact h.dots (List.mem_append_right _ List.mem_cons_self)
    rw [advance, hfolder, if_neg (by simp), if_neg (by simpa using hup)]
    split
    · exact .inr rfl
    rw [hnext] at h hitem ⊢
    have hprefix : place ++ [n] <+: (place ++ [n]) ++ rest := List.prefix_append _ _
    split
    · next hnone =>
      -- Something stands there: a folder, or what stands at the end.
      by_cases hrest : rest = []
      · subst hrest
        rw [List.append_nil, hnone] at hitem
        cases hitem
      · cases hnone.symm.trans (ht.folder_of_append hrest hitem)
    · next target hlink => exact absurd hlink (h.links _ target hprefix)
    · exact ih h hitem

theorem Straight.stat {i : FileItem} (ht : t.WellFormed) (h : t.Straight p) (hitem : t.item? p = some i) :
    t.stat p = .ok i ∨ t.stat p = .error .fileSystem := by
  have hlocate : t.locate p = .ok (p, some i) ∨ t.locate p = .error .fileSystem := by
    unfold locate
    rw [forM_checkName_eq_ok.mpr h.names]
    dsimp only [bind, Except.bind]
    split
    · exact .inr rfl
    rw [maxLinks, follow]
    have hsteps : t.advance [] p = .found p i ∨ t.advance [] p = .failed .fileSystem :=
      Straight.advance_eq ht h hitem
    rcases hsteps with hadvance | hadvance
    · rw [hadvance]
      exact .inl rfl
    · rw [hadvance]
      exact .inr rfl
  unfold FileTree.stat
  rcases hlocate with hlocate | hlocate
  · rw [hlocate]
    exact .inl rfl
  · rw [hlocate]
    exact .inr rfl

/-- What a path can be opened as stands at the place that it means. -/
theorem resolve_of_locate {i : FileItem} (ht : t.WellFormed) (h : t.locate path = .ok (p, some i)) :
    t.resolve path = .ok p ∧ (t.stat p = .ok i ∨ t.stat p = .error .fileSystem) := by
  have hwalk := meaningFrom_of_locate ht.targets h
  have hstat := (straight_of_meaningFrom (straight_nil t) hwalk).stat ht (item?_of_locate h)
  refine ⟨?_, hstat⟩
  unfold resolve
  rw [meaning_of_meaningFrom hwalk]
  dsimp only [bind, Except.bind]
  rcases hstat with hstat | hstat
  · rw [hstat]
    rfl
  · rw [hstat]
    rfl

/-! ## Places without links on the way -/

theorem Straight.eq_of_walk (h : t.Straight p) (hwalk : t.Walk k [] p q) : q = p := by
  have hq : t.meaningFrom t.items.length [] [] p = .ok (q, true) :=
    hwalk.meaningFrom_eq (behind_nil t k) (card_unopened_le t [])
  cases hq.symm.trans h.meaningFrom_eq
  rfl

/-- Opening a place without links on the way leads to this place. -/
theorem Straight.eq_of_follow {i : FileItem} (h : t.Straight p) (hfollow : t.follow [] p links = .ok (q, some i)) :
    q = p := by
  cases links with
  | zero => cases hfollow
  | succ links =>
    rw [follow] at hfollow
    cases ha : t.advance [] p with
    | found r j =>
      rw [ha] at hfollow
      cases hfollow
      exact h.eq_of_walk (walk_of_advance_found h.names ha)
    | vacant r => rw [ha] at hfollow; cases hfollow
    | failed f => rw [ha] at hfollow; cases hfollow
    | link folder target rest =>
      -- The first link would be one on the way.
      obtain ⟨front, name, hp, hwalk, -, hlink⟩ := walk_of_advance_link h.names ha
      have hfront : front <+: p := hp ▸ List.prefix_append _ _
      obtain rfl := (h.of_prefix hfront).eq_of_walk hwalk
      have hnext : folder ++ [name] <+: p := ⟨rest, by rw [hp, List.append_assoc, List.singleton_append]⟩
      exact absurd hlink (h.links _ target hnext)

end NoteAccess.FileTree
