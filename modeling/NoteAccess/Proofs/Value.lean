/-
  NoteAccess.Proofs.Value

  Mappings.  Only a text equals a text as a key, so an entry that is put at one key
  is found at this key and no other (`field?_insert`).

  `isProper` says that mappings inside mappings have no key twice, as every mapping
  that can be built does: it holds of the empty mapping, and putting an entry keeps
  it (`areProper_insert`).
-/

import NoteAccess.Value

namespace NoteAccess.Value

/-! ## Text keys -/

theorem sameKey_text_iff {k : Value} {name : Text} : k.sameKey (.text name) = true ↔ k = .text name := by
  cases k <;> simp [sameKey, number?]

theorem text_sameKey_iff {k : Value} {name : Text} : sameKey (.text name) k = true ↔ k = .text name := by
  cases k with
  | text t =>
    rw [sameKey, beq_iff_eq, text.injEq]
    exact eq_comm
  | _ => simp [sameKey, number?]

theorem field?_cons (name : Text) (k v : Value) (entries : List (Value × Value)) :
    field? name ((k, v) :: entries) = if k.sameKey (.text name) then some v else field? name entries := rfl

/-- An entry is found at its own key only. -/
theorem field?_insert (name : Text) (k v : Value) (entries : List (Value × Value)) :
    field? name (insert k v entries) = if k.sameKey (.text name) then some v else field? name entries := by
  induction entries with
  | nil => rfl
  | cons entry entries ih =>
    obtain ⟨k', v'⟩ := entry
    rw [insert]
    by_cases hsame : k'.sameKey k = true
    · -- The key that is there equals the new one, so both are the name or none is.
      have hname : k'.sameKey (.text name) = k.sameKey (.text name) := by
        rw [Bool.eq_iff_iff, sameKey_text_iff, sameKey_text_iff]
        constructor
        · rintro rfl
          exact text_sameKey_iff.mp hsame
        · rintro rfl
          exact sameKey_text_iff.mp hsame
      rw [if_pos hsame, field?_cons, field?_cons, hname]
      split <;> rfl
    · rw [if_neg hsame, field?_cons, field?_cons, ih]
      by_cases hk' : k'.sameKey (.text name) = true
      · have hk : ¬ k.sameKey (.text name) = true := by
          rw [sameKey_text_iff] at hk' ⊢
          rintro rfl
          exact hsame (sameKey_text_iff.mpr hk')
        rw [if_pos hk', if_neg hk, if_pos hk']
      · rw [if_neg hk', if_neg hk']

/-! ## Mappings without repeated keys -/

mutual

/-- No mapping in the value, inside other mappings only, has a key twice. -/
def isProper : Value → Bool
  | .dict entries => areProper entries
  | _ => true

/-- No key occurs twice among the entries, nor in mappings inside them. -/
def areProper : List (Value × Value) → Bool
  | [] => true
  | (k, v) :: rest => rest.all (fun e => !k.sameKey e.1) && v.isProper && areProper rest

end

theorem areProper_cons {k v : Value} {rest : List (Value × Value)} :
    areProper ((k, v) :: rest) = true ↔
      (∀ e ∈ rest, k.sameKey e.1 = false) ∧ v.isProper = true ∧ areProper rest = true := by
  rw [areProper, Bool.and_eq_true, Bool.and_eq_true, List.all_eq_true, and_assoc]
  simp only [Bool.not_eq_true']

/-- Putting an entry adds no other key. -/
theorem mem_insert {k v : Value} {entries : List (Value × Value)} {e : Value × Value} (h : e ∈ insert k v entries) :
    e.1 = k ∨ ∃ e' ∈ entries, e'.1 = e.1 := by
  induction entries with
  | nil =>
    rw [List.mem_singleton.mp h]
    exact .inl rfl
  | cons entry entries ih =>
    obtain ⟨k', v'⟩ := entry
    rw [insert] at h
    split at h
    · rcases List.mem_cons.mp h with rfl | h
      · exact .inr ⟨(k', v'), List.mem_cons_self .., rfl⟩
      · exact .inr ⟨e, List.mem_cons_of_mem _ h, rfl⟩
    · rcases List.mem_cons.mp h with rfl | h
      · exact .inr ⟨(k', v'), List.mem_cons_self .., rfl⟩
      · rcases ih h with hk | ⟨e', he', hk⟩
        · exact .inl hk
        · exact .inr ⟨e', List.mem_cons_of_mem _ he', hk⟩

theorem snd_of_mem_insert {k v : Value} {entries : List (Value × Value)} {e : Value × Value}
    (h : e ∈ insert k v entries) : e.2 = v ∨ e ∈ entries := by
  induction entries with
  | nil =>
    rw [List.mem_singleton.mp h]
    exact .inl rfl
  | cons entry entries ih =>
    rw [insert] at h
    split at h
    · rcases List.mem_cons.mp h with rfl | h
      · exact .inl rfl
      · exact .inr (List.mem_cons_of_mem _ h)
    · rcases List.mem_cons.mp h with rfl | h
      · exact .inr (List.mem_cons_self ..)
      · exact (ih h).imp_right (List.mem_cons_of_mem _)

/-- What is found at a key stands at an equal one. -/
theorem exists_mem_of_lookup? {k v : Value} {entries : List (Value × Value)} (h : lookup? k entries = some v) :
    ∃ k', (k', v) ∈ entries ∧ k'.sameKey k = true := by
  induction entries with
  | nil => cases h
  | cons entry entries ih =>
    rw [lookup?] at h
    split at h
    · next hk =>
      cases h
      exact ⟨entry.1, List.mem_cons_self .., hk⟩
    · obtain ⟨k', hmem, hk⟩ := ih h
      exact ⟨k', List.mem_cons_of_mem _ hmem, hk⟩

theorem areProper_insert {k v : Value} {entries : List (Value × Value)} (hv : v.isProper = true)
    (h : areProper entries = true) : areProper (insert k v entries) = true := by
  induction entries with
  | nil => exact areProper_cons.mpr ⟨nofun, hv, rfl⟩
  | cons entry entries ih =>
    obtain ⟨k', v'⟩ := entry
    obtain ⟨hkeys, hv', hrest⟩ := areProper_cons.mp h
    rw [insert]
    split
    · exact areProper_cons.mpr ⟨hkeys, hv, hrest⟩
    · next hnew =>
      refine areProper_cons.mpr ⟨fun e he => ?_, hv', ih hrest⟩
      rcases mem_insert he with hk | ⟨e', he', hk⟩
      · rw [hk]
        simpa using hnew
      · rw [← hk]
        exact hkeys e' he'

theorem areProper_ofEntries {entries : List (Value × Value)} (h : ∀ e ∈ entries, e.2.isProper = true) :
    areProper (ofEntries entries) = true :=
  List.foldlRecOn (motive := fun acc => areProper acc = true) entries _ rfl
    fun _ hacc e he => areProper_insert (h e he) hacc

theorem isProper_of_mem {e : Value × Value} {entries : List (Value × Value)} (h : areProper entries = true)
    (he : e ∈ entries) : e.2.isProper = true := by
  induction entries with
  | nil => cases he
  | cons entry entries ih =>
    obtain ⟨-, hv, hrest⟩ := areProper_cons.mp h
    rcases List.mem_cons.mp he with rfl | he
    · exact hv
    · exact ih hrest he

theorem isProper_of_lookup? {k : Value} {entries : List (Value × Value)} {v : Value}
    (h : areProper entries = true) (hv : lookup? k entries = some v) : v.isProper = true := by
  obtain ⟨k', hmem, -⟩ := exists_mem_of_lookup? hv
  exact isProper_of_mem h hmem

theorem isProper_of_field? {name : Text} {entries : List (Value × Value)} {v : Value}
    (h : areProper entries = true) (hv : field? name entries = some v) : v.isProper = true :=
  isProper_of_lookup? h hv

/-- Behind an entry at a name there is no other one. -/
theorem field?_eq_none_of_areProper {name : Text} {v : Value} {rest : List (Value × Value)}
    (h : areProper ((.text name, v) :: rest) = true) : field? name rest = none := by
  obtain ⟨hkeys, -, -⟩ := areProper_cons.mp h
  induction rest with
  | nil => rfl
  | cons entry rest ih =>
    obtain ⟨k, w⟩ := entry
    obtain ⟨hk, hrest⟩ := List.forall_mem_cons.mp hkeys
    have hne : ¬ k.sameKey (.text name) = true := by
      rw [sameKey_text_iff, ← text_sameKey_iff, hk]
      exact Bool.false_ne_true
    rw [field?_cons, if_neg hne]
    refine ih ?_ hrest
    obtain ⟨-, hv, hproper⟩ := areProper_cons.mp h
    exact areProper_cons.mpr ⟨hrest, hv, (areProper_cons.mp hproper).2.2⟩

end NoteAccess.Value
