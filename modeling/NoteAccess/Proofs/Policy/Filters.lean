/-
  NoteAccess.Proofs.Policy.Filters

  Bulk filters and the evaluations that they are made of.  A filter evaluates each
  of its candidates by itself (`evaluateAll_eq_ok`), so it ends with a value
  exactly if all these evaluations end with a decision, and then it keeps what
  they allow: candidates (`filterPaths_eq_ok`), the positions of records that have
  no path or one that is allowed (`filterRecords_eq_ok`), and names in a folder
  (`filterListing_eq_ok`), whose paths have the same normal form whether the
  folder is written in normal form or as it is given (`normalize_folderLead`).

  The path of a record is that of the first of two fields that is set.  If this
  field holds no path the record is kept, even if the other field holds one
  (`mem_filterRecords`).
-/

import NoteAccess.Proofs.Policy.Totality
import NoteAccess.Proofs.VaultPath

namespace NoteAccess

namespace Snapshot

/-- Whether an evaluation allows access to a candidate; one that fails does not. -/
def permits [Stack] (s : Snapshot) (src : Sources) (request : Request) (candidate : Value) : Bool :=
  match (s.evaluate src request candidate).result with
  | .ok d => d.allowed
  | .error _ => false

variable {s : Snapshot} {src : Sources} {request : Request}

theorem permits_of_ok [Stack] {candidate : Value} {d : Decision}
    (h : (s.evaluate src request candidate).result = .ok d) :
    s.permits src request candidate = d.allowed := by
  unfold permits
  rw [h]

/-- Paths with the same normal form are permitted alike. -/
theorem result_evaluate_congr [Stack] {p q : Text} (h : VaultPath.normalize p = VaultPath.normalize q) :
    (s.evaluate src request (.text p)).result = (s.evaluate src request (.text q)).result := by
  rw [result_evaluate, result_evaluate, decide_congr h]

end Snapshot

namespace Engine

open Snapshot

variable {e : Engine} {s : Snapshot} {src : Sources} {request : Request}

/-! ## Evaluations side by side -/

/-- Evaluations end with decisions exactly if each one does. -/
theorem evaluateAll_eq_ok [Stack] {candidates : List Value} {decisions : List Decision} :
    (evaluateAll s src request candidates).result = .ok decisions ↔
      List.Forall₂ (fun v d => (s.evaluate src request v).result = .ok d) candidates decisions := by
  induction candidates generalizing decisions with
  | nil =>
    rw [List.forall₂_nil_left_iff, evaluateAll, Run.result_pure, Except.ok.injEq]
    exact eq_comm
  | cons v rest ih =>
    rw [List.forall₂_cons_left_iff]
    show (do return (← (s.evaluate src request v).result) ::
      (← (evaluateAll s src request rest).result) : Except Fault (List Decision)) = .ok decisions ↔ _
    cases (s.evaluate src request v).result with
    | error f => exact iff_of_false nofun fun ⟨_, _, hd, _⟩ => nomatch hd
    | ok d =>
      constructor
      · intro h
        cases hrest : (evaluateAll s src request rest).result with
        | error f => rw [hrest] at h; cases h
        | ok ds => rw [hrest] at h; cases h; exact ⟨d, ds, rfl, ih.mp hrest, rfl⟩
      · rintro ⟨_, ds, ⟨⟩, hds, rfl⟩
        rw [ih.mpr hds]
        rfl

/-- So they do if and only if no evaluation fails. -/
theorem evaluateAll_succeeds_iff [Stack] {candidates : List Value} :
    (evaluateAll s src request candidates).Succeeds ↔
      ∀ v ∈ candidates, (s.evaluate src request v).Succeeds := by
  rw [← Run.exists_forall₂_iff]
  exact exists_congr fun _ => evaluateAll_eq_ok

/-- What is paired with decisions and filtered by their verdicts is filtered by what the
    evaluations permit. -/
theorem filter_zip [Stack] {α : Type} {items : List α} {decisions : List Decision} (candidate : α → Value)
    (h : List.Forall₂ (fun a d => (s.evaluate src request (candidate a)).result = .ok d) items decisions)
    (p : Bool → Bool) :
    ((items.zip decisions).filter fun x => p x.2.allowed).map Prod.fst =
      items.filter fun a => p (s.permits src request (candidate a)) := by
  induction h with
  | nil => rfl
  | @cons a d items decisions hd _ ih =>
    rw [List.zip_cons_cons, List.filter_cons, List.filter_cons, permits_of_ok hd]
    dsimp only
    split
    · rw [List.map_cons, ih]
    · exact ih

/-- A line of the log changes no result. -/
theorem result_logFiltered_bind {α : Type} {what : Text} {total allowed : Nat} {next : Run Fault α} :
    (do logFiltered what total allowed; next).result = next.result := rfl

/-! ## Candidates -/

/-- Candidates are filtered if no evaluation fails, and those that are permitted are kept. -/
theorem filterPaths_eq_ok [Stack] {candidates kept : List Value} :
    (e.filterPaths src request candidates).result = .ok kept ↔
      (∀ v ∈ candidates, (e.snapshot.evaluate src request v).Succeeds) ∧
        kept = candidates.filter (e.snapshot.permits src request) := by
  unfold filterPaths
  rw [Run.bind_eq_ok, ← evaluateAll_succeeds_iff]
  constructor
  · rintro ⟨decisions, hdecisions, h⟩
    rw [result_logFiltered_bind] at h
    cases h
    exact ⟨⟨decisions, hdecisions⟩, filter_zip id (evaluateAll_eq_ok.mp hdecisions) id⟩
  · rintro ⟨⟨decisions, hdecisions⟩, rfl⟩
    refine ⟨decisions, hdecisions, ?_⟩
    rw [result_logFiltered_bind]
    exact congrArg Except.ok (filter_zip id (evaluateAll_eq_ok.mp hdecisions) id)

/-! ## Records -/

/-- The paths of records with the positions of the records, where there is one. -/
def placedPaths (records : List (List (Value × Value))) : List (Nat × Text) :=
  records.zipIdx.filterMap fun (r, i) => (recordPath? r).map (i, ·)

theorem mem_placedPaths {records : List (List (Value × Value))} {i : Nat} {p : Text} :
    (i, p) ∈ placedPaths records ↔ ∃ r, records[i]? = some r ∧ recordPath? r = some p := by
  unfold placedPaths
  rw [List.mem_filterMap]
  constructor
  · rintro ⟨⟨r, j⟩, hr, hp⟩
    obtain ⟨q, hq, hpair⟩ := Option.map_eq_some_iff.mp hp
    cases hpair
    exact ⟨r, List.mem_zipIdx_iff_getElem?.mp hr, hq⟩
  · rintro ⟨r, hr, hp⟩
    exact ⟨(r, i), List.mem_zipIdx_iff_getElem?.mpr hr, Option.map_eq_some_iff.mpr ⟨p, hp, rfl⟩⟩

/-- Whether a record stays: it has no path, or the path is permitted. -/
def keeps [Stack] (s : Snapshot) (src : Sources) (request : Request) (fields : List (Value × Value)) : Bool :=
  (recordPath? fields).all fun p => s.permits src request (.text p)

/-- The positions at which something holds, tried one after the other. -/
theorem filter_range {α : Type} (items : List α) (p : α → Bool) :
    ((List.range items.length).filter fun i => items[i]?.any p) = items.findIdxs p := by
  induction items with
  | nil => rfl
  | cons a items ih =>
    have hlater : ((List.range items.length).map Nat.succ).filter (fun i => (a :: items)[i]?.any p) =
        (items.findIdxs p).map (· + 1) := by
      rw [← ih, List.filter_map]
      rfl
    have hshift : items.findIdxs p 1 = (items.findIdxs p).map (· + 1) := List.findIdxs_start
    rw [List.length_cons, List.range_succ_eq_map, List.filter_cons, hlater, List.findIdxs_cons,
      Nat.zero_add, hshift]
    rfl

/-- The positions that are not those of refused paths are those of the records that stay. -/
theorem filter_not_denied [Stack] (records : List (List (Value × Value))) :
    ((List.range records.length).filter fun i =>
      !(((placedPaths records).filter fun a => !s.permits src request (.text a.2)).map Prod.fst).contains i) =
      records.findIdxs (keeps s src request) := by
  rw [← filter_range]
  refine List.filter_congr fun i hi => ?_
  obtain ⟨r, hr⟩ : ∃ r, records[i]? = some r := ⟨_, List.getElem?_eq_getElem (List.mem_range.mp hi)⟩
  rw [hr, Option.any_some, Bool.eq_iff_iff, Bool.not_eq_true', ← Bool.not_eq_true, List.contains_iff_mem]
  unfold keeps
  -- Its position is among the refused ones exactly if the record has a path that is refused.
  have hdenied : i ∈ ((placedPaths records).filter fun a => !s.permits src request (.text a.2)).map Prod.fst ↔
      ∃ p, recordPath? r = some p ∧ s.permits src request (.text p) = false := by
    simp [mem_placedPaths, hr]
  rw [hdenied]
  cases recordPath? r with
  | none => simp
  | some p => simp

/-- Records are filtered if no evaluation of a path fails, and those that stay are kept, by
    their positions. -/
theorem filterRecords_eq_ok [Stack] {records : List (List (Value × Value))} {kept : List Nat} :
    (e.filterRecords src request records).result = .ok kept ↔
      (∀ r ∈ records, ∀ p, recordPath? r = some p → (e.snapshot.evaluate src request (.text p)).Succeeds) ∧
        kept = records.findIdxs (keeps e.snapshot src request) := by
  have hsucceeds : (evaluateAll e.snapshot src request ((placedPaths records).map fun a => .text a.2)).Succeeds ↔
      ∀ r ∈ records, ∀ p, recordPath? r = some p → (e.snapshot.evaluate src request (.text p)).Succeeds := by
    rw [evaluateAll_succeeds_iff, List.forall_mem_map]
    constructor
    · intro h r hr p hp
      obtain ⟨i, hi⟩ := List.mem_iff_getElem?.mp hr
      exact h (i, p) (mem_placedPaths.mpr ⟨r, hi, hp⟩)
    · rintro h ⟨i, p⟩ hplaced
      obtain ⟨r, hr, hp⟩ := mem_placedPaths.mp hplaced
      exact h r (List.mem_of_getElem? hr) p hp
  -- Whatever decisions there are, the positions that they leave are those of the records that stay.
  have hkept : ∀ decisions, (evaluateAll e.snapshot src request
      ((placedPaths records).map fun a => .text a.2)).result = .ok decisions →
      ((List.range records.length).filter fun i =>
        !((((placedPaths records).zip decisions).filter fun x => !x.2.allowed).map (·.1.1)).contains i) =
        records.findIdxs (keeps e.snapshot src request) := by
    intro decisions hdecisions
    have hpairs := filter_zip (fun a : Nat × Text => .text a.2) (List.forall₂_map_left_iff.mp (evaluateAll_eq_ok.mp hdecisions)) not
    rw [← filter_not_denied, ← hpairs, List.map_map]
    rfl
  rw [← hsucceeds]
  unfold filterRecords
  rw [Run.bind_eq_ok]
  constructor
  · rintro ⟨decisions, hdecisions, h⟩
    rw [result_logFiltered_bind] at h
    cases h
    exact ⟨⟨decisions, hdecisions⟩, hkept decisions hdecisions⟩
  · rintro ⟨⟨decisions, hdecisions⟩, rfl⟩
    refine ⟨decisions, hdecisions, ?_⟩
    rw [result_logFiltered_bind]
    exact congrArg Except.ok (hkept decisions hdecisions)

/-! ## Names in a folder -/

/-- A name in a folder has the same path whether the folder is written in normal form or as
    it is given. -/
theorem normalize_folderLead (directory name : Text) :
    VaultPath.normalize (folderLead directory ++ name) =
      VaultPath.normalize (directory ++ CodePoint.slash :: name) := by
  have hfolder := VaultPath.segmentsOf_normalize directory
  have hslashed := VaultPath.slashed_normalize directory
  unfold folderLead
  dsimp only
  split
  · -- A separator is put behind the folder.
    rw [List.append_assoc, List.singleton_append]
    refine VaultPath.normalize_append_congr ?_ name
    rw [hslashed, hfolder]
  · next hclosed =>
    by_cases hempty : VaultPath.normalize directory = []
    · -- The folder is the root, whose path has no names.
      rw [hempty] at hfolder ⊢
      apply VaultPath.normalize_congr
      · rw [VaultPath.segmentsOf_slashed_append, ← hfolder]
        rfl
      · rw [VaultPath.slashed_append_slash, VaultPath.endsOpen_append]
        rfl
    · -- The folder has a separator behind it already.
      have hends : (VaultPath.normalize directory).endsWith [CodePoint.slash] = true := by
        simpa [hempty] using hclosed
      obtain ⟨lead, hlead⟩ := Text.exists_append_of_endsWith hends
      rw [hlead, VaultPath.slashed_append_slash] at hslashed
      rw [hlead, FilePath.segmentsOf_append_slash] at hfolder
      rw [hlead, List.append_assoc, List.singleton_append]
      refine VaultPath.normalize_append_congr ?_ name
      rw [List.append_cancel_right hslashed, hfolder]

/-- Names are filtered if no evaluation of a path fails, and those whose paths are permitted
    are kept. -/
theorem filterListing_eq_ok [Stack] {directory : Text} {names kept : List Text} :
    (e.filterListing src request directory names).result = .ok kept ↔
      (∀ n ∈ names,
          (e.snapshot.evaluate src request (.text (directory ++ CodePoint.slash :: n))).Succeeds) ∧
        kept = names.filter fun n =>
          e.snapshot.permits src request (.text (directory ++ CodePoint.slash :: n)) := by
  have hsame : ∀ n, (e.snapshot.evaluate src request (.text (folderLead directory ++ n))).result =
      (e.snapshot.evaluate src request (.text (directory ++ CodePoint.slash :: n))).result :=
    fun n => result_evaluate_congr (normalize_folderLead directory n)
  have hsucceeds : (∀ v ∈ names.map fun n => .text (folderLead directory ++ n),
      (e.snapshot.evaluate src request v).Succeeds) ↔
      ∀ n ∈ names, (e.snapshot.evaluate src request (.text (directory ++ CodePoint.slash :: n))).Succeeds := by
    rw [List.forall_mem_map]
    unfold Run.Succeeds
    simp only [hsame]
  -- What is put in front of a name is taken away again.
  have hkept : ((names.map fun n => .text (folderLead directory ++ n)).filter
      (e.snapshot.permits src request)).map (fun v => v.toText.drop (folderLead directory).length) =
      names.filter fun n => e.snapshot.permits src request (.text (directory ++ CodePoint.slash :: n)) := by
    rw [List.filter_map, List.map_map]
    have hdrop : ((fun v : Value => v.toText.drop (folderLead directory).length) ∘
        fun n => .text (folderLead directory ++ n)) = id := by
      funext n
      exact List.drop_left
    rw [hdrop, List.map_id]
    refine List.filter_congr fun n _ => ?_
    show e.snapshot.permits src request (.text (folderLead directory ++ n)) = _
    unfold permits
    rw [hsame]
  unfold filterListing
  dsimp only
  rw [Run.bind_eq_ok, ← hsucceeds]
  constructor
  · rintro ⟨found, hfound, h⟩
    obtain ⟨hall, rfl⟩ := filterPaths_eq_ok.mp hfound
    cases h
    exact ⟨hall, hkept⟩
  · rintro ⟨hall, rfl⟩
    exact ⟨_, filterPaths_eq_ok.mpr ⟨hall, rfl⟩, congrArg Except.ok hkept⟩

/-! ## Filters and evaluations -/

theorem filterMap_findIdxs {α : Type} (items : List α) (p : α → Bool) :
    (items.findIdxs p).filterMap (items[·]?) = items.filter p := by
  induction items with
  | nil => rfl
  | cons a items ih =>
    have hlater : (items.findIdxs p 1).filterMap ((a :: items)[·]?) = items.filter p := by
      have hshift : items.findIdxs p 1 = (items.findIdxs p).map (· + 1) := List.findIdxs_start
      rw [hshift, List.filterMap_map, ← ih]
      rfl
    rw [List.findIdxs_cons, List.filter_cons, Nat.zero_add]
    split
    · rw [List.filterMap_cons, hlater]
      rfl
    · exact hlater

/-- Filters agree with evaluations one by one.  A filter ends with a value exactly if no
    evaluation of its candidates fails, and what it keeps is, in order: the candidates that
    are permitted; the records, by their positions, that have no path or one that is
    permitted; the names whose paths in the folder are permitted. -/
theorem filters_evaluate [Stack] (e : Engine) (src : Sources) (request : Request) :
    (∀ candidates kept, (e.filterPaths src request candidates).result = .ok kept ↔
      (∀ v ∈ candidates, (e.snapshot.evaluate src request v).Succeeds) ∧
        kept = candidates.filter (e.snapshot.permits src request)) ∧
    (∀ records kept, (e.filterRecords src request records).result = .ok kept ↔
      (∀ r ∈ records, ∀ p, recordPath? r = some p →
        (e.snapshot.evaluate src request (.text p)).Succeeds) ∧
        kept = records.findIdxs (keeps e.snapshot src request)) ∧
    (∀ records : List (List (Value × Value)),
      (records.findIdxs (keeps e.snapshot src request)).filterMap (records[·]?) =
        records.filter (keeps e.snapshot src request)) ∧
    (∀ directory names kept, (e.filterListing src request directory names).result = .ok kept ↔
      (∀ n ∈ names, (e.snapshot.evaluate src request (.text (directory ++ CodePoint.slash :: n))).Succeeds) ∧
        kept = names.filter fun n =>
          e.snapshot.permits src request (.text (directory ++ CodePoint.slash :: n))) :=
  ⟨fun _ _ => filterPaths_eq_ok, fun _ _ => filterRecords_eq_ok, fun records => filterMap_findIdxs records _,
    fun _ _ _ => filterListing_eq_ok⟩

/-! ## Paths that records claim -/

/-- The path that a field holds: a text that is not empty. -/
def pathOf? : Value → Option Text
  | .text t => if t.isEmpty then none else some t
  | _ => none

/-- The first path that one of the fields holds. -/
def claimedPath? (fields : List (Value × Value)) : Option Text :=
  pathFields.findSome? fun k => (Value.field? k fields).bind pathOf?

/-- The first field is set and holds no path. -/
def Masks (fields : List (Value × Value)) : Prop :=
  ∃ v, Value.field? "filename" fields = some v ∧ v.isNull = false ∧ pathOf? v = none

/-- The value of a field that is set to something. -/
theorem filter_isNull_of_set {v : Value} (h : v.isNull = false) :
    (some v).filter (!·.isNull) = some v :=
  Option.filter_some_pos (by rw [h]; rfl)

/-- A field that is null holds no path. -/
theorem bind_filter_isNull (v : Option Value) : (v.filter (!·.isNull)).bind pathOf? = v.bind pathOf? := by
  cases v with
  | none => rfl
  | some v => cases v <;> rfl

theorem recordPath?_eq (fields : List (Value × Value)) :
    recordPath? fields =
      (((Value.field? "filename" fields).filter (!·.isNull)).or
        ((Value.field? "path" fields).filter (!·.isNull))).bind pathOf? := by
  unfold recordPath? pathFields
  rw [List.findSome?_cons, List.findSome?_singleton]
  cases (Value.field? "filename" fields).filter (!·.isNull) with
  | none =>
    cases (Value.field? "path" fields).filter (!·.isNull) with
    | none => rfl
    | some v => cases v <;> rfl
  | some v => cases v <;> rfl

theorem claimedPath?_eq (fields : List (Value × Value)) :
    claimedPath? fields =
      ((Value.field? "filename" fields).bind pathOf?).or ((Value.field? "path" fields).bind pathOf?) := by
  unfold claimedPath? pathFields
  rw [List.findSome?_cons, List.findSome?_singleton]
  cases (Value.field? "filename" fields).bind pathOf? <;> rfl

/-- If the first field is set and holds no path, a record has none. -/
theorem recordPath?_of_masks {fields : List (Value × Value)} (h : Masks fields) : recordPath? fields = none := by
  obtain ⟨v, hv, hset, hnone⟩ := h
  rw [recordPath?_eq, hv, filter_isNull_of_set hset]
  exact hnone

/-- Otherwise it has the first path that one of its fields holds. -/
theorem recordPath?_of_not_masks {fields : List (Value × Value)} (h : ¬ Masks fields) :
    recordPath? fields = claimedPath? fields := by
  rw [recordPath?_eq, claimedPath?_eq, ← bind_filter_isNull (Value.field? "filename" fields),
    ← bind_filter_isNull (Value.field? "path" fields)]
  cases hfirst : (Value.field? "filename" fields).filter (!·.isNull) with
  | none => rfl
  | some v =>
    obtain ⟨hv, hset⟩ := Option.filter_eq_some_iff.mp hfirst
    cases hpath : pathOf? v with
    | none => exact absurd ⟨v, hv, by simpa using hset, hpath⟩ h
    | some p =>
      rw [Option.some_or]
      show pathOf? v = (pathOf? v).or _
      rw [hpath, Option.some_or]

/-- A record with a path in one of its fields is kept exactly if the first such path is
    permitted, or if the first field is set and holds none. -/
theorem mem_filterRecords [Stack] {records : List (List (Value × Value))} {kept : List Nat} {i : Nat}
    {r : List (Value × Value)} {p : Text} (h : (e.filterRecords src request records).result = .ok kept)
    (hr : records[i]? = some r) (hp : claimedPath? r = some p) :
    i ∈ kept ↔ Masks r ∨ e.snapshot.permits src request (.text p) = true := by
  obtain ⟨-, rfl⟩ := filterRecords_eq_ok.mp h
  obtain ⟨hi, rfl⟩ := List.getElem?_eq_some_iff.mp hr
  rw [List.mem_findIdxs_iff_pos_getElem hi]
  unfold keeps
  by_cases hmasks : Masks records[i]
  · rw [recordPath?_of_masks hmasks]
    exact iff_of_true rfl (.inl hmasks)
  · rw [recordPath?_of_not_masks hmasks, hp, or_iff_right hmasks, Option.all_some]

/-- The rule that refuses a folder. -/
def privateRule : Rule := { mode := .deny, pattern := "Private/**" }

/-- The policy that allows everything but the folder. -/
def privateEngine : Engine where
  snapshot := { rules := { folder := [privateRule] }, defaultPolicy := .allow }

attribute [local instance] Stack.usual

theorem evaluate_private :
    (privateEngine.snapshot.evaluate ⟨none, none⟩ (.given none) (.text "Private/a.md")).result =
      .ok (.rule .folder privateRule) := by
  rw [result_evaluate]
  cbv

/-- A record with the path alone. -/
def pathRecord : List (Value × Value) := [(.text "path", .text "Private/a.md")]

/-- A record with the path and an empty name. -/
def namelessRecord : List (Value × Value) := (.text "filename", .text "") :: pathRecord

/-- The record with the path alone is not kept, as it has no name and the path is refused. -/
theorem mem_filterRecords_path :
    (privateEngine.filterRecords ⟨none, none⟩ (.given none) [pathRecord]).result = .ok [] ∧
      claimedPath? pathRecord = some "Private/a.md" ∧
      (0 ∈ ([] : List Nat) ↔ Masks pathRecord ∨
        privateEngine.snapshot.permits ⟨none, none⟩ (.given none) (.text "Private/a.md") = true) := by
  have hkept : (privateEngine.filterRecords ⟨none, none⟩ (.given none) [pathRecord]).result = .ok [] := by
    refine filterRecords_eq_ok.mpr ⟨fun r hr p hp => ?_, ?_⟩
    · obtain rfl := List.mem_singleton.mp hr
      cases hp
      exact ⟨_, evaluate_private⟩
    · have hrefused : keeps privateEngine.snapshot ⟨none, none⟩ (.given none) pathRecord = false :=
        permits_of_ok evaluate_private
      rw [List.findIdxs_cons, hrefused]
      rfl
  exact ⟨hkept, rfl, mem_filterRecords hkept rfl rfl⟩

/-- With an empty name before the path the record is kept. -/
theorem filterRecords_nameless :
    claimedPath? namelessRecord = some "Private/a.md" ∧
      (privateEngine.snapshot.evaluate ⟨none, none⟩ (.given none) (.text "Private/a.md")).result =
        .ok (.rule .folder privateRule) ∧
      (Decision.rule .folder privateRule).allowed = false ∧
      (privateEngine.filterRecords ⟨none, none⟩ (.given none) [namelessRecord]).result = .ok [0] :=
  ⟨rfl, evaluate_private, rfl, rfl⟩

end Engine

end NoteAccess
