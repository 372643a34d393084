/-
  NoteAccess.Proofs.Config.Writing

  Putting a value at the end of a path of names.  It fails if the path leads through
  something that is no mapping, and changes nothing then (`write_cases`): mappings are
  made on the way only where nothing was, and from there on nothing can fail.

  What it does elsewhere is told by `Spares`: along another path there may be new
  mappings in the place of nothing, but the end is the same.  So all that is read there
  stays the same, in the entries (`atPath?_of_spares`) and in whatever they are put
  over (`atPath?_putOver_of_spares`).  This holds of the path itself and of other places
  that the value is put at (`spares_spread`).
-/

import Mathlib.Logic.Basic
import NoteAccess.Proofs.Config.Merging

namespace NoteAccess.Value

variable {entries : Mapping} {path q : List Text} {name : Text} {v x : Value} {a b c : Option Value}

/-! ## Putting a value at the end of a path -/

/-- A mapping that counts for what is there is there, or nothing is there and it is empty. -/
theorem there_or_new {e : Mapping} (h : a.getD (.dict []) = .dict e) : a = some (.dict e) ∨ a = none ∧ e = [] := by
  cases a with
  | none =>
    cases h
    exact .inr ⟨rfl, rfl⟩
  | some w => exact .inl (congrArg some h)

/-- Putting what is there changes nothing. -/
theorem insert_of_field? (h : field? name entries = some v) : insert (.text name) v entries = entries := by
  induction entries with
  | nil => cases h
  | cons entry entries ih =>
    obtain ⟨k, w⟩ := entry
    rw [field?_cons] at h
    rw [insert]
    split
    · next hk =>
      rw [if_pos hk] at h
      cases h
      rfl
    · next hk =>
      rw [if_neg hk] at h
      rw [ih h]

/-- The path leads through a mapping, or through nothing, which becomes one. -/
theorem write_of_mapping {inner : Mapping} (h : (field? name entries).getD (.dict []) = .dict inner)
    (hpath : path ≠ []) (v : Value) :
    write entries (name :: path) v =
      (insert (.text name) (.dict (write inner path v).1) entries, (write inner path v).2) := by
  cases path with
  | nil => exact absurd rfl hpath
  | cons next rest =>
    rw [write]
    rw [h]

/-- The path leads through something else. -/
theorem write_of_not_mapping (h : field? name entries = some x) (hx : x.isMapping = false) (hpath : path ≠ [])
    (v : Value) : ∃ f, write entries (name :: path) v = (entries, .error f) := by
  cases path with
  | nil => exact absurd rfl hpath
  | cons next rest =>
    rw [write, h]
    cases x with
    | dict e => cases hx
    | _ => exact ⟨_, rfl⟩

/-- What stands at the first name of a path: a mapping, or nothing, which counts for an empty one,
    or something else. -/
theorem mapping_or_blocked (name : Text) (entries : Mapping) :
    (∃ inner, (field? name entries).getD (.dict []) = .dict inner) ∨
      ∃ x, field? name entries = some x ∧ x.isMapping = false := by
  rcases hfield : field? name entries with _ | x
  · exact .inl ⟨[], rfl⟩
  · cases x with
    | dict inner => exact .inl ⟨inner, rfl⟩
    | _ => exact .inr ⟨_, rfl, rfl⟩

theorem atPath?_single (name : Text) (entries : Mapping) : atPath? [name] (.dict entries) = field? name entries := by
  show (field? name entries).bind some = _
  exact Option.bind_fun_some _

/-- Behind its first name a path goes on in the mapping there. -/
theorem atPath?_cons_of_mapping {inner : Mapping} (h : (field? name entries).getD (.dict []) = .dict inner)
    (hq : q ≠ []) : atPath? (name :: q) (.dict entries) = atPath? q (.dict inner) := by
  rw [atPath?]
  rcases there_or_new h with hfield | ⟨hfield, rfl⟩
  · rw [hfield]
    rfl
  · rw [hfield]
    cases q with
    | nil => exact absurd rfl hq
    | cons next rest => rfl

/-- On the way along a path there is something that is no mapping. -/
def Blocked (entries : Mapping) (path : List Text) : Prop :=
  ∃ q r x, path = q ++ r ∧ q ≠ [] ∧ r ≠ [] ∧ atPath? q (.dict entries) = some x ∧ x.isMapping = false

theorem not_blocked_nil : ¬ Blocked [] path := by
  rintro ⟨q, r, x, -, hq, -, hat, -⟩
  cases q with
  | nil => exact hq rfl
  | cons name rest => cases hat

theorem blocked_cons_iff {inner : Mapping} (h : (field? name entries).getD (.dict []) = .dict inner) :
    Blocked entries (name :: path) ↔ Blocked inner path := by
  constructor
  · rintro ⟨q, r, x, heq, hq, hr, hat, hx⟩
    obtain ⟨q, rfl⟩ : ∃ q', q = name :: q' := by
      obtain ⟨rfl, -⟩ | ⟨q', rfl, -⟩ := List.cons_eq_append_iff.mp heq
      · exact absurd rfl hq
      · exact ⟨q', rfl⟩
    obtain rfl | hq' := eq_or_ne q []
    · -- The first name leads to a mapping or to nothing.
      rw [atPath?_single] at hat
      rw [hat] at h
      rw [show x = .dict inner from h] at hx
      cases hx
    · rw [atPath?_cons_of_mapping h hq'] at hat
      exact ⟨q, r, x, (List.cons.inj heq).2, hq', hr, hat, hx⟩
  · rintro ⟨q, r, x, rfl, hq, hr, hat, hx⟩
    exact ⟨name :: q, r, x, rfl, List.cons_ne_nil _ _, hr, by rwa [atPath?_cons_of_mapping h hq], hx⟩

/-- Putting a value works, or it fails because something is in the way, and changes nothing. -/
theorem write_cases (entries : Mapping) (path : List Text) (v : Value) :
    (write entries path v).2 = .ok () ∧ ¬ Blocked entries path ∨
      (∃ f, write entries path v = (entries, .error f)) ∧ Blocked entries path := by
  -- By induction on the path.  A failure further on has left the mapping there as it was, and this
  -- mapping was there before: in a new one nothing is in the way.
  induction path generalizing entries with
  | nil =>
    refine .inl ⟨rfl, ?_⟩
    rintro ⟨q, r, x, heq, hq, -⟩
    exact hq (List.append_eq_nil_iff.mp heq.symm).1
  | cons name path ih =>
    obtain rfl | hpath := eq_or_ne path []
    · refine .inl ⟨rfl, ?_⟩
      rintro ⟨q, r, x, heq, hq, hr, -⟩
      have hlength := congrArg List.length heq
      have hq' := List.length_pos_iff.mpr hq
      have hr' := List.length_pos_iff.mpr hr
      simp only [List.length_cons, List.length_nil, List.length_append] at hlength
      omega
    · rcases mapping_or_blocked name entries with ⟨inner, hinner⟩ | ⟨x, hfield, hx⟩
      · rw [write_of_mapping hinner hpath, blocked_cons_iff hinner]
        refine (ih inner).imp_right ?_
        rintro ⟨⟨f, hfails⟩, hblocked⟩
        refine ⟨⟨f, ?_⟩, hblocked⟩
        rw [hfails]
        rcases there_or_new hinner with hthere | ⟨-, rfl⟩
        · rw [insert_of_field? hthere]
        · exact absurd hblocked not_blocked_nil
      · refine .inr ⟨write_of_not_mapping hfield hx hpath v, [name], path, x, rfl, List.cons_ne_nil _ _, hpath, ?_, hx⟩
        rwa [atPath?_single]

/-! ## Reading what has been put -/

theorem field?_insert_self (name : Text) (v : Value) (entries : Mapping) :
    field? name (insert (.text name) v entries) = some v := by
  rw [field?_insert, if_pos (sameKey_text_iff.mpr rfl)]

/-- At the end of the path there is the value. -/
theorem atPath?_write_append (h : (write entries path v).2 = .ok ()) (hpath : path ≠ []) (r : List Text) :
    atPath? (path ++ r) (.dict (write entries path v).1) = atPath? r v := by
  induction path generalizing entries with
  | nil => exact absurd rfl hpath
  | cons name path ih =>
    obtain rfl | hrest := eq_or_ne path []
    · show (field? name (insert (.text name) v entries)).bind (atPath? r) = atPath? r v
      rw [field?_insert_self]
      rfl
    · rcases mapping_or_blocked name entries with ⟨inner, hinner⟩ | ⟨x, hfield, hx⟩
      · rw [write_of_mapping hinner hrest] at h ⊢
        rw [List.cons_append, atPath?, field?_insert_self]
        exact ih h hrest
      · obtain ⟨f, hfails⟩ := write_of_not_mapping hfield hx hrest v
        rw [hfails] at h
        cases h

/-- On the way to it there are mappings. -/
theorem exists_atPath?_write {r : List Text} (h : (write entries (q ++ r) v).2 = .ok ()) (hr : r ≠ []) :
    ∃ e, atPath? q (.dict (write entries (q ++ r) v).1) = some (.dict e) := by
  induction q generalizing entries with
  | nil => exact ⟨_, rfl⟩
  | cons name q ih =>
    have hrest : q ++ r ≠ [] := List.append_ne_nil_of_right_ne_nil _ hr
    rcases mapping_or_blocked name entries with ⟨inner, hinner⟩ | ⟨x, hfield, hx⟩
    · rw [List.cons_append, write_of_mapping hinner hrest] at h ⊢
      rw [atPath?, field?_insert_self]
      exact ih h
    · obtain ⟨f, hfails⟩ := write_of_not_mapping hfield hx hrest v
      rw [List.cons_append, hfails] at h
      cases h

/-! ## Other paths -/

/-- Along the path there may be new mappings in the place of nothing; its end is the same. -/
def Spares : List Text → Option Value → Option Value → Prop
  | [], a, b => a = b
  | name :: rest, a, b =>
    a = b ∨
    (∃ e e', a.getD (.dict []) = .dict e ∧ b = some (.dict e') ∧ Spares rest (field? name e) (field? name e')) ∨
    ∃ x y, a = some x ∧ b = some y ∧ x.isMapping = false ∧ y.isMapping = false

theorem spares_refl (path : List Text) (a : Option Value) : Spares path a a := by
  cases path with
  | nil => rfl
  | cons name rest => exact .inl rfl

theorem Spares.trans (h : Spares path a b) (h' : Spares path b c) : Spares path a c := by
  induction path generalizing a b c with
  | nil => exact Eq.trans h h'
  | cons name rest ih =>
    rcases h with rfl | ⟨e, e', ha, rfl, h⟩ | ⟨x, y, rfl, rfl, hx, hy⟩
    · exact h'
    · rcases h' with rfl | ⟨f, f', hf, rfl, h'⟩ | ⟨y, z, hb, -, hy, -⟩
      · exact .inr (.inl ⟨e, e', ha, rfl, h⟩)
      · cases hf
        exact .inr (.inl ⟨e, f', ha, rfl, ih h h'⟩)
      · cases hb
        cases hy
    · rcases h' with rfl | ⟨f, f', hf, -, -⟩ | ⟨y', z, -, rfl, -, hz⟩
      · exact .inr (.inr ⟨x, y, rfl, rfl, hx, hy⟩)
      · rw [show y = .dict f from hf] at hy
        cases hy
      · exact .inr (.inr ⟨x, z, rfl, rfl, hx, hz⟩)

/-- An empty mapping stands for nothing. -/
theorem Spares.of_empty (h : Spares path (some (.dict [])) b) (hpath : path ≠ []) : Spares path none b := by
  cases path with
  | nil => exact absurd rfl hpath
  | cons name rest =>
    rcases h with rfl | ⟨e, e', ha, hb, h⟩ | ⟨x, y, hx, -, hnot, -⟩
    · exact .inr (.inl ⟨[], [], rfl, rfl, spares_refl _ _⟩)
    · exact .inr (.inl ⟨e, e', ha, hb, h⟩)
    · cases hx
      cases hnot

/-- An entry is put at a name of the path, and the rest of the path is spared there, or at another
    key. -/
theorem spares_insert {k w : Value} (h : k = .text name → Spares path (field? name entries) (some w)) :
    Spares (name :: path) (some (.dict entries)) (some (.dict (insert k w entries))) := by
  refine .inr (.inl ⟨entries, _, rfl, rfl, ?_⟩)
  rw [field?_insert]
  split
  · next hk => exact h (sameKey_text_iff.mp hk)
  · exact spares_refl _ _

/-- The end of the path is the same. -/
theorem atPath?_of_spares (h : Spares path a b) : b.bind (atPath? path) = a.bind (atPath? path) := by
  induction path generalizing a b with
  | nil => rw [show a = b from h]
  | cons name rest ih =>
    rcases h with rfl | ⟨e, e', ha, rfl, h⟩ | ⟨x, y, rfl, rfl, hx, hy⟩
    · rfl
    · refine (ih h).trans ?_
      rcases there_or_new ha with rfl | ⟨rfl, rfl⟩ <;> rfl
    · rw [atPath?_eq_none (a := some x) hx, atPath?_eq_none (a := some y) hy]

/-- A value, if there is one, put over another one. -/
def putOver (base : Option Value) : Option Value → Option Value
  | some v => some (mergeOver base v)
  | none => base

theorem putOver_none (a : Option Value) : putOver none a = a := by
  cases a with
  | none => rfl
  | some v => rw [putOver, mergeOver_of_base rfl]

/-- Behind its first name a path goes on in what is there, put over what is there below. -/
theorem atPath?_putOver_cons {e : Mapping} (ha : a.getD (.dict []) = .dict e) (he : areProper e = true)
    (base : Option Value) (name : Text) (rest : List Text) :
    (putOver base a).bind (atPath? (name :: rest)) =
      (putOver (base.bind (atPath? [name])) (field? name e)).bind (atPath? rest) := by
  rcases mapping_or_not base with ⟨old, rfl⟩ | hbase
  · rw [show (some (Value.dict old)).bind (atPath? [name]) = field? name old from atPath?_single name old]
    rcases there_or_new ha with rfl | ⟨rfl, rfl⟩
    · rw [putOver, mergeOver]
      show (field? name (mergeEntries old e)).bind (atPath? rest) = _
      rw [field?_mergeEntries name he]
      cases field? name e <;> rfl
    · rfl
  · rw [atPath?_eq_none hbase, putOver_none]
    rcases there_or_new ha with rfl | ⟨rfl, rfl⟩
    · rw [putOver, mergeOver_of_base hbase]
      rfl
    · exact atPath?_eq_none hbase name rest

/-- The end of the path is the same when the values are put over another one. -/
theorem atPath?_putOver_of_spares (h : Spares path a b) (ha : ∀ v ∈ a, v.isProper = true)
    (hb : ∀ v ∈ b, v.isProper = true) (base : Option Value) :
    (putOver base b).bind (atPath? path) = (putOver base a).bind (atPath? path) := by
  induction path generalizing a b base with
  | nil => rw [show a = b from h]
  | cons name rest ih =>
    rcases h with rfl | ⟨e, e', he, rfl, h⟩ | ⟨x, y, rfl, rfl, hx, hy⟩
    · rfl
    · have hproper' : areProper e' = true := by
        have hdict := hb _ rfl
        rwa [isProper] at hdict
      have hproper : areProper e = true := by
        rcases there_or_new he with rfl | ⟨rfl, rfl⟩
        · have hdict := ha _ rfl
          rwa [isProper] at hdict
        · rfl
      rw [atPath?_putOver_cons he hproper, atPath?_putOver_cons (a := some (.dict e')) rfl hproper']
      exact ih h (fun v hv => isProper_of_field? hproper hv) (fun v hv => isProper_of_field? hproper' hv) _
    · rw [putOver, putOver, mergeOver_of_not_mapping hx, mergeOver_of_not_mapping hy, atPath?_eq_none (a := some x) hx,
        atPath?_eq_none (a := some y) hy]

/-- What is put over other values has the same at the end of a path as over one with the same there. -/
theorem atPath?_putOver_congr (h : b.bind (atPath? path) = c.bind (atPath? path)) (ha : ∀ v ∈ a, v.isProper = true) :
    (putOver b a).bind (atPath? path) = (putOver c a).bind (atPath? path) := by
  induction path generalizing a b c with
  | nil =>
    have hend : ∀ d : Option Value, d.bind (atPath? []) = d := fun d => Option.bind_fun_some d
    rw [hend, hend] at h
    rw [h]
  | cons name rest ih =>
    have hfirst : ∀ d : Option Value, d.bind (atPath? (name :: rest)) = (d.bind (atPath? [name])).bind (atPath? rest) := by
      intro d
      rcases mapping_or_not d with ⟨entries, rfl⟩ | hd
      · show _ = (atPath? [name] (.dict entries)).bind _
        rw [atPath?_single]
        rfl
      · rw [atPath?_eq_none hd, atPath?_eq_none hd]
        rfl
    rcases mapping_or_not a with ⟨e, rfl⟩ | hnot
    · have hproper : areProper e = true := by
        have hdict := ha _ rfl
        rwa [isProper] at hdict
      rw [atPath?_putOver_cons (a := some (.dict e)) rfl hproper, atPath?_putOver_cons (a := some (.dict e)) rfl hproper]
      refine ih ?_ fun v hv => isProper_of_field? hproper hv
      rwa [← hfirst, ← hfirst]
    · cases a with
      | none => exact h
      | some x => rw [putOver, putOver, mergeOver_of_not_mapping hnot, mergeOver_of_not_mapping hnot]

/-- Putting a value spares the paths that neither begin with its own one nor are a beginning of
    it. -/
theorem spares_write (hq : ¬ q <+: path) (hpath : ¬ path <+: q) (entries : Mapping) (v : Value) :
    Spares q (some (.dict entries)) (some (.dict (write entries path v).1)) := by
  induction path generalizing q entries with
  | nil => exact absurd List.nil_prefix hpath
  | cons name path ih =>
    cases q with
    | nil => exact absurd List.nil_prefix hq
    | cons next q =>
      obtain rfl | hrest := eq_or_ne path []
      · refine spares_insert fun hname => absurd ?_ hpath
        rw [text.inj hname]
        exact List.prefix_append [next] q
      · rcases mapping_or_blocked name entries with ⟨inner, hinner⟩ | ⟨x, hfield, hx⟩
        · rw [write_of_mapping hinner hrest]
          refine spares_insert fun hname => ?_
          obtain rfl := text.inj hname
          rw [List.prefix_cons_inj] at hq hpath
          have hspares := ih hq hpath inner
          rcases there_or_new hinner with hthere | ⟨hnew, rfl⟩
          · rwa [hthere]
          · rw [hnew]
            refine hspares.of_empty ?_
            rintro rfl
            exact hq List.nil_prefix
        · obtain ⟨f, hfails⟩ := write_of_not_mapping hfield hx hrest v
          rw [hfails]
          exact spares_refl _ _

theorem atPath?_write_apart (hq : ¬ q <+: path) (hpath : ¬ path <+: q) :
    atPath? q (.dict (write entries path v).1) = atPath? q (.dict entries) :=
  atPath?_of_spares (spares_write hq hpath entries v)

/-! ## Other places -/

/-- Whether names lead to a place, or a place is on the way along names, is told by the names
    themselves where the place is told by names. -/
theorem Trail.leadsTo_ofNames {p q : List Text} : (ofNames p).leadsTo (ofNames q) = true ↔ p <+: q := by
  induction p generalizing q with
  | nil => exact iff_of_true rfl List.nil_prefix
  | cons name p ih =>
    cases q with
    | nil => exact iff_of_false Bool.false_ne_true (by simp)
    | cons name' q =>
      rw [List.cons_prefix_cons, ← ih]
      show ((sameKey (.text name) (.text name')) && (ofNames p).leadsTo (ofNames q)) = true ↔ _
      rw [Bool.and_eq_true, sameKey_text_iff, text.injEq]

theorem Trail.isApart_ofNames {p q : List Text} :
    (ofNames p).isApart (ofNames q) = true ↔ ¬ p <+: q ∧ ¬ q <+: p := by
  rw [isApart, Bool.and_eq_true, Bool.not_eq_true', Bool.not_eq_true', ← leadsTo_ofNames, ← leadsTo_ofNames,
    Bool.not_eq_true, Bool.not_eq_true]

theorem Trail.isApart_name_cons (name : Text) (trail trail' : Trail) :
    isApart (.key (.text name) :: trail) (.key (.text name) :: trail') = isApart trail trail' := by
  have hsame : Step.same (.key (.text name)) (.key (.text name)) = true := sameKey_text_iff.mpr rfl
  rw [isApart, isApart, leadsTo, leadsTo, hsame, Bool.true_and, Bool.true_and]

/-- A change of a mapping spares what is apart from the place that is changed in it. -/
theorem spares_modifyAt {f : Mapping → Mapping} {rest : List Text}
    (hf : ∀ q e, ¬ q <+: rest → ¬ rest <+: q → Spares q (some (.dict e)) (some (.dict (f e))))
    {trail : Trail} (h : (Trail.ofNames q).isApart (trail ++ Trail.ofNames rest) = true) (v : Value) :
    Spares q (some v) (some (modifyAt f trail v)) := by
  -- By induction on the trail; it leads through a key, which may be the next name, or to an item,
  -- which no name leads to.
  induction trail generalizing q v with
  | nil =>
    rw [List.nil_append, Trail.isApart_ofNames] at h
    cases v with
    | dict e => exact hf q e h.1 h.2
    | _ => exact spares_refl _ _
  | cons step trail ih =>
    cases q with
    | nil => cases h
    | cons name q =>
      cases step with
      | key k =>
        cases v with
        | dict e =>
          rw [modifyAt]
          cases hlookup : lookup? k e with
          | none => exact spares_refl _ _
          | some w =>
            refine spares_insert ?_
            rintro rfl
            rw [show field? name e = some w from hlookup]
            refine ih ?_ w
            rwa [← Trail.isApart_name_cons name]
        | _ => exact spares_refl _ _
      | item i =>
        cases v with
        | list items => exact .inr (.inr ⟨_, _, rfl, rfl, rfl, rfl⟩)
        | tuple items => exact .inr (.inr ⟨_, _, rfl, rfl, rfl, rfl⟩)
        | _ => exact spares_refl _ _

theorem dict_modifyIn (f : Mapping → Mapping) (trail : Trail) (entries : Mapping) :
    .dict (modifyIn f trail entries) = modifyAt f trail (.dict entries) := by
  have hdict : ∃ e, modifyAt f trail (.dict entries) = .dict e := by
    rcases trail with _ | ⟨_ | _, trail⟩
    · exact ⟨_, rfl⟩
    · rw [modifyAt]
      split
      · exact ⟨_, rfl⟩
      · exact ⟨_, rfl⟩
    · exact ⟨_, rfl⟩
  obtain ⟨e, he⟩ := hdict
  rw [modifyIn, he]

/-! ## Shared mappings -/

/-- A path begins with a trail if the trail is made of its first names. -/
theorem Trail.behind?_eq_some {trail : Trail} {rest : List Text} (h : trail.behind? path = some rest) :
    ∃ front, trail = ofNames front ∧ path = front ++ rest := by
  induction trail generalizing path with
  | nil =>
    cases h
    exact ⟨[], rfl, rfl⟩
  | cons step trail ih =>
    cases step with
    | item i => cases h
    | key k =>
      cases path with
      | nil => cases h
      | cons name path =>
        rw [behind?] at h
        split at h
        · next hk =>
          obtain ⟨front, rfl, rfl⟩ := ih h
          exact ⟨name :: front, by rw [sameKey_text_iff.mp hk]; rfl, rfl⟩
        · cases h

/-- What is behind places that are apart is apart. -/
theorem Trail.isApart_append {front : List Text} {trail : Trail} (h : (ofNames front).isApart trail = true)
    (tail tail' : Trail) : (ofNames front ++ tail).isApart (trail ++ tail') = true := by
  induction front generalizing trail with
  | nil => cases h
  | cons name front ih =>
    cases trail with
    | nil => cases h
    | cons step trail =>
      by_cases hstep : step = .key (.text name)
      · subst hstep
        show isApart (.key (.text name) :: (ofNames front ++ tail)) (.key (.text name) :: (trail ++ tail')) = true
        rw [isApart_name_cons]
        exact ih (by rwa [← isApart_name_cons name])
      · -- Already the first steps are different, whichever comes first.
        have hsame : Step.same (.key (.text name)) step = false ∧ Step.same step (.key (.text name)) = false := by
          cases step with
          | item i => exact ⟨rfl, rfl⟩
          | key k =>
            have hk : ¬ k = .text name := fun hk => hstep (by rw [hk])
            exact ⟨Bool.eq_false_iff.mpr fun h => hk (text_sameKey_iff.mp h),
              Bool.eq_false_iff.mpr fun h => hk (sameKey_text_iff.mp h)⟩
        show isApart (.key (.text name) :: (ofNames front ++ tail)) (step :: (trail ++ tail')) = true
        rw [isApart, leadsTo, leadsTo, hsame.1, hsame.2]
        rfl

/-- Putting a value at the end of paths in mappings inside the entries spares what is apart from
    all these places. -/
theorem spares_spread {places : List (Trail × List Text)}
    (h : ∀ place ∈ places, (Trail.ofNames q).isApart (place.1 ++ Trail.ofNames place.2) = true) (entries : Mapping)
    (v : Value) : Spares q (some (.dict entries)) (some (.dict (spread v places entries))) := by
  unfold spread
  induction places generalizing entries with
  | nil => exact spares_refl _ _
  | cons place places ih =>
    obtain ⟨hplace, hplaces⟩ := List.forall_mem_cons.mp h
    refine Spares.trans ?_ (ih hplaces _)
    rw [dict_modifyIn]
    exact spares_modifyAt (fun q e hq hrest => spares_write hq hrest e v) hplace _

/-! ## Mappings without repeated keys -/

theorem areProper_write (path : List Text) (hv : v.isProper = true) (h : areProper entries = true) :
    areProper (write entries path v).1 = true := by
  induction path generalizing entries with
  | nil => exact h
  | cons name path ih =>
    obtain rfl | hrest := eq_or_ne path []
    · exact areProper_insert hv h
    · rcases mapping_or_blocked name entries with ⟨inner, hinner⟩ | ⟨x, hfield, hx⟩
      · have hproper : areProper inner = true := by
          rcases there_or_new hinner with hthere | ⟨-, rfl⟩
          · have hdict := isProper_of_field? h hthere
            rwa [isProper] at hdict
          · rfl
        rw [write_of_mapping hinner hrest]
        exact areProper_insert (by rw [isProper]; exact ih hproper) h
      · obtain ⟨f, hfails⟩ := write_of_not_mapping hfield hx hrest v
        rwa [hfails]

theorem isProper_modifyAt {f : Mapping → Mapping} (hf : ∀ e, areProper e = true → areProper (f e) = true)
    (trail : Trail) {v : Value} (hv : v.isProper = true) : (modifyAt f trail v).isProper = true := by
  induction trail generalizing v with
  | nil =>
    cases v with
    | dict e =>
      rw [isProper] at hv
      rw [modifyAt, isProper]
      exact hf e hv
    | _ => rfl
  | cons step trail ih =>
    rcases step with k | i
    · cases v with
      | dict e =>
        rw [modifyAt]
        cases hlookup : lookup? k e with
        | none => exact hv
        | some w =>
          rw [isProper] at hv
          dsimp only
          rw [isProper]
          exact areProper_insert (ih (isProper_of_lookup? hv hlookup)) hv
      | _ => rfl
    · cases v with
      | dict e => exact hv
      | _ => rfl

theorem areProper_spread (places : List (Trail × List Text)) (hv : v.isProper = true) (h : areProper entries = true) :
    areProper (spread v places entries) = true := by
  refine List.foldlRecOn (motive := fun e => areProper e = true) _ _ h fun e he place _ => ?_
  have hmodified := isProper_modifyAt (fun e => areProper_write place.2 hv) place.1 (v := .dict e)
    (by rwa [isProper])
  rwa [← dict_modifyIn, isProper] at hmodified

end NoteAccess.Value
