/-
  NoteAccess.Proofs.Text.Letters

  Small letters.  What a run of capital letters is sent to is a run again
  (`CaseRun.imageRun`), and a look at all pairs shows that it has nothing in common with the
  capital letters (`CaseRun.apart`).  So no letter of a text that has been lowered is lowered
  any further (`toLower_of_mem_lower`).  In the same way no blank and no sign comes from
  another code point (`mem_of_mem_lower`).
-/

import NoteAccess.Text.Blank
import NoteAccess.Text.Letters

namespace NoteAccess

/-! ## Runs of capital letters -/

namespace CaseRun

/-- The code points of a run. -/
def Holds (r : CaseRun) (c : Nat) : Prop := r.first ≤ c ∧ c ≤ r.last ∧ (c - r.first) % r.step = 0

/-- The code points that those of a run are sent to. -/
def imageRun (r : CaseRun) : CaseRun := ⟨(r.first + r.shift).toNat, (r.last + r.shift).toNat, r.step, -r.shift⟩

/-- Whether runs have nothing in common: one lies beside the other, or between every second one. -/
def apart (r s : CaseRun) : Bool :=
  Nat.blt r.last s.first || (Nat.blt s.last r.first ||
    ((Nat.beq r.step 2 || Nat.beq r.first r.last) && Nat.beq s.step 2 && Nat.beq ((r.first + s.first) % 2) 1))

theorem image?_eq_some_iff {r : CaseRun} {c d : Nat} :
    r.image? c = some d ↔ r.Holds c ∧ (c + r.shift).toNat = d := by
  unfold image? Holds
  simp [and_assoc]

theorem Holds.imageRun {r : CaseRun} {c d : Nat} (hshift : 0 ≤ r.first + r.shift) (h : r.image? c = some d) :
    r.imageRun.Holds d := by
  obtain ⟨⟨hfirst, hlast, hstep⟩, rfl⟩ := image?_eq_some_iff.mp h
  have hsame : (c + r.shift).toNat - (r.first + r.shift).toNat = c - r.first := by omega
  refine ⟨?_, ?_, hsame ▸ hstep⟩
  · show (r.first + r.shift).toNat ≤ (c + r.shift).toNat
    omega
  · show (c + r.shift).toNat ≤ (r.last + r.shift).toNat
    omega

theorem Holds.not_of_apart {r s : CaseRun} {c : Nat} (hr : r.Holds c) (h : r.apart s = true) : ¬ s.Holds c := by
  rintro ⟨hfirst', hlast', hstep'⟩
  obtain ⟨hfirst, hlast, hstep⟩ := hr
  simp only [apart, Bool.or_eq_true, Bool.and_eq_true, Nat.blt_eq, Nat.beq_eq] at h
  rcases h with hbelow | habove | ⟨⟨htwo | hone, htwo'⟩, hodd⟩
  · omega
  · omega
  -- Every second code point of each, and their beginnings an odd number apart.
  · rw [htwo] at hstep
    rw [htwo'] at hstep'
    omega
  · rw [htwo'] at hstep'
    omega

theorem shift_lowerRuns : ∀ r ∈ lowerRuns, 0 ≤ r.first + r.shift := by
  have h : lowerRuns.toList.all (fun r => decide (0 ≤ r.first + r.shift)) = true := by decide +kernel
  simpa only [List.all_eq_true, Array.mem_toList_iff, decide_eq_true_eq] using h

theorem apart_lowerRuns : ∀ r ∈ lowerRuns, ∀ s ∈ lowerRuns, r.imageRun.apart s = true := by
  have h : (lowerRuns.toList.map imageRun).all (fun r => lowerRuns.toList.all r.apart) = true := by decide +kernel
  simpa only [List.all_map, List.all_eq_true, Array.mem_toList_iff, Function.comp_apply] using h

theorem apply_eq_self {runs : Array CaseRun} {c : Nat} (h : ∀ r ∈ runs, r.image? c = none) : apply runs c = c := by
  unfold apply
  split
  · rfl
  · next r hr => rw [h r (Array.mem_of_getElem? hr), Option.getD_none]

/-- What runs do not leave as it is belongs to one of them. -/
theorem apply_cases (runs : Array CaseRun) (c : Nat) :
    apply runs c = c ∨ ∃ r ∈ runs, r.image? c = some (apply runs c) := by
  unfold apply
  split
  · exact .inl rfl
  · next r hr =>
    cases himage : r.image? c with
    | none => exact .inl rfl
    | some d => exact .inr ⟨r, Array.mem_of_getElem? hr, himage⟩

end CaseRun

/-! ## Small letters -/

namespace CodePoint

/-- The run of the basic capital letters. -/
def basicCapitals : CaseRun := ⟨65, 90, 1, 32⟩

theorem basicCapitals_mem : basicCapitals ∈ lowerRuns := List.mem_toArray.mpr List.mem_cons_self

theorem image?_basicCapitals {c : Nat} (h : 65 ≤ c ∧ c ≤ 90) : basicCapitals.image? c = some (c + 32) :=
  CaseRun.image?_eq_some_iff.mpr ⟨⟨h.1, h.2, Nat.mod_one _⟩, rfl⟩

/-- What belongs to no run stays, the letters of the basic alphabet included: their run is the first one. -/
theorem toLower_eq_self_of_image? {c : CodePoint} (h : ∀ r ∈ lowerRuns, r.image? c = none) : c.toLower = c := by
  unfold toLower
  split
  · refine if_neg fun hcapital => ?_
    simp only [Bool.and_eq_true, decide_eq_true_eq] at hcapital
    cases (h _ basicCapitals_mem).symm.trans (image?_basicCapitals hcapital)
  · exact CaseRun.apply_eq_self h

theorem toLower_cases (c : CodePoint) : c.toLower = c ∨ ∃ r ∈ lowerRuns, r.image? c = some c.toLower := by
  unfold toLower
  split
  · split
    · next hcapital =>
      simp only [Bool.and_eq_true, decide_eq_true_eq] at hcapital
      exact .inr ⟨basicCapitals, basicCapitals_mem, image?_basicCapitals hcapital⟩
    · exact .inl rfl
  · exact CaseRun.apply_cases lowerRuns c

/-- A small letter has no other one. -/
theorem toLower_toLower (c : CodePoint) : c.toLower.toLower = c.toLower := by
  rcases toLower_cases c with h | ⟨r, hr, himage⟩
  · rw [h, h]
  · refine toLower_eq_self_of_image? fun s hs => ?_
    cases hagain : s.image? c.toLower with
    | none => rfl
    | some d =>
      have hholds := CaseRun.Holds.imageRun (CaseRun.shift_lowerRuns r hr) himage
      exact absurd (CaseRun.image?_eq_some_iff.mp hagain).1 (hholds.not_of_apart (CaseRun.apart_lowerRuns r hr s hs))

theorem toLower_sigma : toLower 0x3A3 = 0x3C3 := by
  decide +kernel

theorem toLower_dotted : toLower 0x130 = 0x69 := by
  decide +kernel

/-- A blank, or one of the signs that stand in front of a tag and between tags. -/
def isSeparator (c : CodePoint) : Bool := c.isBlank || c == hash || c == plus

/-- The separators as runs, none of which moves. -/
def separatorRuns : List CaseRun := [
  ⟨9, 13, 1, 0⟩, ⟨28, 32, 1, 0⟩, ⟨hash, hash, 1, 0⟩, ⟨plus, plus, 1, 0⟩, ⟨0x85, 0x85, 1, 0⟩, ⟨0xA0, 0xA0, 1, 0⟩,
  ⟨0x1680, 0x1680, 1, 0⟩, ⟨0x2000, 0x200A, 1, 0⟩, ⟨0x2028, 0x2029, 1, 0⟩, ⟨0x202F, 0x202F, 1, 0⟩,
  ⟨0x205F, 0x205F, 1, 0⟩, ⟨0x3000, 0x3000, 1, 0⟩]

theorem exists_separatorRun {c : CodePoint} (h : c.isSeparator = true) : ∃ s ∈ separatorRuns, s.Holds c := by
  simp only [isSeparator, isBlank, Bool.or_eq_true, Bool.and_eq_true, decide_eq_true_eq, beq_iff_eq,
    hash, plus] at h
  simp only [separatorRuns, List.mem_cons, List.not_mem_nil, or_false, exists_eq_or_imp, exists_eq_left,
    CaseRun.Holds, Nat.mod_one, and_true, hash, plus]
  unfold CodePoint at h
  omega

theorem apart_separatorRuns : ∀ r ∈ lowerRuns, ∀ s ∈ separatorRuns, r.imageRun.apart s = true := by
  have h : (lowerRuns.toList.map CaseRun.imageRun).all (fun r => separatorRuns.all r.apart) = true := by decide +kernel
  simpa only [List.all_map, List.all_eq_true, Array.mem_toList_iff, Function.comp_apply] using h

/-- A separator is the small letter of nothing else. -/
theorem toLower_eq_self_of_isSeparator {c : CodePoint} (h : c.toLower.isSeparator = true) : c.toLower = c := by
  refine (toLower_cases c).resolve_right ?_
  rintro ⟨r, hr, himage⟩
  obtain ⟨s, hs, hholds⟩ := exists_separatorRun h
  have himages := CaseRun.Holds.imageRun (CaseRun.shift_lowerRuns r hr) himage
  exact himages.not_of_apart (apart_separatorRuns r hr s hs) hholds

end CodePoint

/-! ## Texts in small letters -/

namespace Text

/-- What one code point becomes in small letters. -/
theorem mem_lower_go {before t : Text} {c : CodePoint} (h : c ∈ lower.go before t) :
    (∃ b ∈ t, c = b.toLower) ∨ c = 0x3C2 ∨ c = 0x3C3 ∨ c = 0x69 ∨ c = 0x307 := by
  induction t generalizing before with
  | nil => cases h
  | cons b t ih =>
    rw [lower.go] at h
    rcases List.mem_append.mp h with h | h
    · split at h
      · split at h <;> simp_all
      · split at h
        · simp_all
        · exact .inl ⟨b, List.mem_cons_self, List.mem_singleton.mp h⟩
    · rcases ih h with ⟨b, hb, hc⟩ | h
      · exact .inl ⟨b, List.mem_cons_of_mem _ hb, hc⟩
      · exact .inr h

theorem mem_lower {t : Text} {c : CodePoint} (h : c ∈ t.lower) :
    (∃ b ∈ t, c = b.toLower) ∨ c = 0x3C2 ∨ c = 0x3C3 ∨ c = 0x69 ∨ c = 0x307 := mem_lower_go h

/-- A text in small letters has nothing in it that could be lowered. -/
theorem toLower_of_mem_lower {t : Text} {c : CodePoint} (h : c ∈ t.lower) : c.toLower = c := by
  rcases mem_lower h with ⟨b, -, rfl⟩ | rfl | rfl | rfl | rfl
  · exact CodePoint.toLower_toLower b
  · decide +kernel
  · decide +kernel
  · decide +kernel
  · decide +kernel

/-- No separator comes from another code point. -/
theorem mem_of_mem_lower {t : Text} {c : CodePoint} (h : c ∈ t.lower) (hc : c.isSeparator = true) : c ∈ t := by
  rcases mem_lower h with ⟨b, hb, rfl⟩ | rfl | rfl | rfl | rfl
  · rwa [CodePoint.toLower_eq_self_of_isSeparator hc]
  · cases hc
  · cases hc
  · cases hc
  · cases hc

theorem lower_go_eq_self {t : Text} (h : ∀ c ∈ t, c.toLower = c) (before : Text) : lower.go before t = t := by
  induction t generalizing before with
  | nil => rfl
  | cons c t ih =>
    obtain ⟨hc, ht⟩ := List.forall_mem_cons.mp h
    have hsigma : c ≠ 0x3A3 := by
      rintro rfl
      exact absurd (hc.symm.trans CodePoint.toLower_sigma) (by decide)
    have hdotted : c ≠ 0x130 := by
      rintro rfl
      exact absurd (hc.symm.trans CodePoint.toLower_dotted) (by decide)
    rw [lower.go, if_neg hsigma, if_neg hdotted, hc, ih ht]
    rfl

theorem meetsCased_concat_hash (before : Text) : meetsCased (before ++ [CodePoint.hash]) = meetsCased before := by
  induction before with
  | nil => decide +kernel
  | cons c before ih =>
    unfold meetsCased at ih ⊢
    rw [List.cons_append]
    by_cases hc : sigmaSkipped.contains c = true
    · rwa [List.dropWhile_cons_of_pos hc, List.dropWhile_cons_of_pos hc]
    · rw [List.dropWhile_cons_of_neg hc, List.dropWhile_cons_of_neg hc]

/-- The mark of a tag belongs to no word, so what is behind it is lowered as it is by itself. -/
theorem lower_go_concat_hash (before t : Text) : lower.go (before ++ [CodePoint.hash]) t = lower.go before t := by
  induction t generalizing before with
  | nil => rfl
  | cons c t ih => rw [lower.go, lower.go, meetsCased_concat_hash, ← List.cons_append, ih]

theorem lower_hash_cons (t : Text) : lower (CodePoint.hash :: t) = CodePoint.hash :: t.lower := by
  have hhash : CodePoint.toLower CodePoint.hash = CodePoint.hash := by decide
  rw [lower, lower.go, if_neg (by decide), if_neg (by decide), hhash]
  exact congrArg _ (lower_go_concat_hash [] t)

/-- No other beginning becomes the mark of a tag. -/
theorem exists_lower_cons (c : CodePoint) (t : Text) :
    ∃ d u, lower (c :: t) = d :: u ∧ (d = CodePoint.hash → c = CodePoint.hash) := by
  rw [lower, lower.go]
  split
  · split
    · exact ⟨0x3C2, _, rfl, nofun⟩
    · exact ⟨0x3C3, _, rfl, nofun⟩
  · split
    · exact ⟨0x69, _, rfl, nofun⟩
    · refine ⟨c.toLower, _, rfl, fun hhash => ?_⟩
      rw [← hhash, CodePoint.toLower_eq_self_of_isSeparator (hhash ▸ rfl)]

theorem length_le_lower_go (before t : Text) : t.length ≤ (lower.go before t).length := by
  induction t generalizing before with
  | nil => exact Nat.le_refl 0
  | cons c t ih =>
    rw [lower.go, List.length_append, List.length_cons, Nat.add_comm]
    refine Nat.add_le_add ?_ (ih _)
    split
    · split <;> decide
    · split <;> simp

/-- A text does not get shorter when it is lowered. -/
theorem length_le_lower (t : Text) : t.length ≤ t.lower.length := length_le_lower_go [] t

end Text

end NoteAccess
