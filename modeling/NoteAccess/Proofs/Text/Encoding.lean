/-
  NoteAccess.Proofs.Text.Encoding

  A text that is written to a file comes back from it if it has no carriage return
  and its code points are scalar values (`readText_encode`), and every text that is
  read from a file is such a text (`isWritten_of_readText`).
-/

import NoteAccess.Proofs.Text
import NoteAccess.Text.Encoding

namespace NoteAccess

namespace Utf8

/-- A code point that has an encoding. -/
def IsScalar (c : CodePoint) : Prop := c < 0x110000 ∧ c.isSurrogate = false

instance (c : CodePoint) : Decidable (IsScalar c) := inferInstanceAs (Decidable (_ ∧ _))

/-! ## Encodings one by one -/

theorem isTail_iff {b : Nat} : isTail b = true ↔ 0x80 ≤ b ∧ b < 0xC0 := by
  simp [isTail]

theorem maySecond_iff {a b : Nat} :
    maySecond a b = true ↔ (0x80 ≤ b ∧ b < 0xC0) ∧ (a = 0xE0 → 0xA0 ≤ b) ∧ (a = 0xED → b < 0xA0) ∧
      (a = 0xF0 → 0x90 ≤ b) ∧ (a = 0xF4 → b < 0x90) := by
  simp only [maySecond, isTail, Bool.and_eq_true, Bool.not_eq_true', Bool.and_eq_false_iff,
    beq_eq_false_iff_ne, decide_eq_true_eq, decide_eq_false_iff_not]
  omega

section First

variable {a b c d : Nat} (position : Nat) (rest : List Nat)

theorem first_one (ha : a < 0x80) : first position a rest = .ok (a, 1) := by
  unfold first
  dsimp only
  rw [if_pos ha]

theorem first_two (ha : 0xC2 ≤ a ∧ a < 0xE0) (hb : isTail b = true) :
    first position a (b :: rest) = .ok ((a - 0xC0) * 64 + (b - 0x80), 2) := by
  unfold first
  dsimp only
  rw [if_neg (by omega), if_neg (by simp; omega), if_pos ha.2, if_pos hb]

theorem first_three (ha : 0xE0 ≤ a ∧ a < 0xF0) (hb : maySecond a b = true) (hc : isTail c = true) :
    first position a (b :: c :: rest) =
      .ok ((a - 0xE0) * 4096 + (b - 0x80) * 64 + (c - 0x80), 3) := by
  unfold first
  dsimp only
  rw [if_neg (by omega), if_neg (by simp; omega), if_neg (by omega), if_neg (by simp [hb]),
    if_neg (by simp [hc]), if_pos ha.2]

theorem first_four (ha : 0xF0 ≤ a ∧ a < 0xF5) (hb : maySecond a b = true) (hc : isTail c = true)
    (hd : isTail d = true) :
    first position a (b :: c :: d :: rest) =
      .ok ((a - 0xF0) * 262144 + (b - 0x80) * 4096 + (c - 0x80) * 64 + (d - 0x80), 4) := by
  unfold first
  dsimp only
  rw [if_neg (by omega), if_neg (by simp; omega), if_neg (by omega), if_neg (by simp [hb]),
    if_neg (by simp [hc]), if_neg (by omega), if_neg (by simp [hd])]

end First

/-- The bytes of a code point are read as this code point, whatever follows. -/
theorem first_encodePoint {c : CodePoint} (hc : IsScalar c) (position : Nat) (rest : List Nat) :
    ∃ a tail, encodePoint c = a :: tail ∧
      first position a (tail ++ rest) = .ok (c, tail.length + 1) := by
  obtain ⟨hlt, hsurrogate⟩ := hc
  simp only [CodePoint.isSurrogate, Bool.and_eq_false_iff, decide_eq_false_iff_not] at hsurrogate
  unfold encodePoint
  unfold CodePoint at *
  have htail : ∀ n : Nat, isTail (0x80 + n % 64) = true := fun n => isTail_iff.mpr (by omega)
  split
  · next h => exact ⟨c, [], rfl, first_one _ _ h⟩
  split
  · refine ⟨_, _, rfl, (first_two position rest (by omega) (htail c)).trans ?_⟩
    rw [Except.ok.injEq, Prod.mk.injEq]
    exact ⟨by unfold CodePoint; omega, rfl⟩
  split
  · have hsecond : maySecond (0xE0 + c / 4096) (0x80 + c / 64 % 64) = true := maySecond_iff.mpr (by omega)
    refine ⟨_, _, rfl, (first_three position rest (by omega) hsecond (htail c)).trans ?_⟩
    rw [Except.ok.injEq, Prod.mk.injEq]
    exact ⟨by unfold CodePoint; omega, rfl⟩
  · have hsecond : maySecond (0xF0 + c / 262144) (0x80 + c / 4096 % 64) = true := maySecond_iff.mpr (by omega)
    refine ⟨_, _, rfl, (first_four position rest (by omega) hsecond (htail (c / 64)) (htail c)).trans ?_⟩
    rw [Except.ok.injEq, Prod.mk.injEq]
    exact ⟨by unfold CodePoint; omega, rfl⟩

theorem isScalar_iff {c : Nat} : IsScalar c ↔ c < 0x110000 ∧ ¬ (0xD800 ≤ c ∧ c ≤ 0xDFFF) := by
  unfold IsScalar CodePoint.isSurrogate CodePoint
  simp

/-- What is read is the encoding of a scalar value. -/
theorem isScalar_of_first {position a : Nat} {rest : List Nat} {c : CodePoint} {size : Nat}
    (h : first position a rest = .ok (c, size)) : IsScalar c := by
  -- The cases are those of `first`: by the first byte, and then whether the next ones fit it.
  unfold first at h
  dsimp only at h
  rw [isScalar_iff]
  split at h
  · obtain ⟨rfl, -⟩ := Prod.mk.inj (Except.ok.inj h)
    omega
  split at h
  · cases h
  next hstart =>
  simp only [Bool.or_eq_true, decide_eq_true_eq, not_or] at hstart
  split at h
  · split at h
    · split at h
      · next hb =>
        rw [isTail_iff] at hb
        obtain ⟨rfl, -⟩ := Prod.mk.inj (Except.ok.inj h)
        omega
      · cases h
    · cases h
  split at h
  · cases h
  · split at h
    · cases h
    next hb =>
    rw [Bool.not_eq_true', Bool.not_eq_false, maySecond_iff] at hb
    split at h
    · cases h
    split at h
    · cases h
    next hc =>
    rw [Bool.not_eq_true', Bool.not_eq_false, isTail_iff] at hc
    split at h
    · obtain ⟨rfl, -⟩ := Prod.mk.inj (Except.ok.inj h)
      omega
    split at h
    · cases h
    split at h
    · cases h
    next hd =>
    rw [Bool.not_eq_true', Bool.not_eq_false, isTail_iff] at hd
    obtain ⟨rfl, -⟩ := Prod.mk.inj (Except.ok.inj h)
    omega

/-- Each byte of an encoding is a byte. -/
theorem lt_of_mem_encodePoint {c : CodePoint} (hc : c < 0x110000) : ∀ b ∈ encodePoint c, b < 256 := by
  unfold encodePoint CodePoint at *
  split
  · simp; omega
  · split
    · simp; omega
    · split
      · simp; omega
      · simp; omega

/-! ## Texts -/

theorem decodeFrom_skip (position : Nat) (seen : Text) (tail rest : List Nat) :
    decodeFrom position tail.length seen (tail ++ rest) = decodeFrom (position + tail.length) 0 seen rest := by
  induction tail generalizing position with
  | nil => rfl
  | cons b tail ih =>
    rw [List.length_cons, List.cons_append, decodeFrom, ih]
    congr 1
    omega

/-- The bytes of a text are decoded as this text. -/
theorem decodeFrom_encode {t : Text} (ht : ∀ c ∈ t, IsScalar c) (position : Nat) (seen : Text) :
    decodeFrom position 0 seen (t.flatMap encodePoint) = .ok (seen.reverse ++ t) := by
  induction t generalizing position seen with
  | nil => simp [decodeFrom]
  | cons c t ih =>
    obtain ⟨hc, ht⟩ := List.forall_mem_cons.mp ht
    obtain ⟨a, tail, hencode, hfirst⟩ := first_encodePoint hc position (t.flatMap encodePoint)
    -- The first byte gives the code point, and as many bytes as are its own are skipped then.
    rw [List.flatMap_cons, hencode, List.cons_append, decodeFrom, hfirst]
    dsimp only
    rw [Nat.add_sub_cancel, decodeFrom_skip, ih ht]
    simp

theorem isScalar_of_decodeFrom {position skip : Nat} {seen t : Text} {bytes : List Nat}
    (hseen : ∀ c ∈ seen, IsScalar c) (h : decodeFrom position skip seen bytes = .ok t) :
    ∀ c ∈ t, IsScalar c := by
  induction bytes generalizing position skip seen with
  | nil =>
    cases h
    simpa using hseen
  | cons a rest ih =>
    cases skip with
    | succ skip => exact ih hseen h  -- A byte that belongs to a code point seen already.
    | zero =>
      rw [decodeFrom] at h
      cases hfirst : first position a rest with
      | error e => rw [hfirst] at h; cases h
      | ok found =>
        obtain ⟨c, size⟩ := found
        rw [hfirst] at h
        exact ih (List.forall_mem_cons.mpr ⟨isScalar_of_first hfirst, hseen⟩) h

/-- A text of scalar values has bytes, and they are decoded as this text. -/
theorem decode_encode {t : Text} (ht : ∀ c ∈ t, IsScalar c) :
    ∃ bytes, encode? t = some bytes ∧ decode bytes = .ok t := by
  have hany : t.any CodePoint.isSurrogate = false := by
    rw [List.any_eq_false]
    intro c hc
    simp [(ht c hc).2]
  refine ⟨_, by rw [encode?, hany]; rfl, ?_⟩
  have hbyte : ∀ c ∈ t, ((encodePoint c).map UInt8.ofNat).map UInt8.toNat = encodePoint c := by
    intro c hc
    rw [List.map_map]
    refine (List.map_congr_left fun b hb => ?_).trans (List.map_id _)
    exact UInt8.toNat_ofNat_of_lt' (lt_of_mem_encodePoint (ht c hc).1 b hb)
  have hbytes : (t.flatMap fun c => (encodePoint c).map UInt8.ofNat).map UInt8.toNat = t.flatMap encodePoint := by
    rw [List.map_flatMap, List.flatMap_def, List.flatMap_def, List.map_congr_left hbyte]
  rw [decode, hbytes]
  exact decodeFrom_encode ht 0 []

/-- What is decoded are scalar values. -/
theorem isScalar_of_decode {bytes : List UInt8} {t : Text} (h : decode bytes = .ok t) :
    ∀ c ∈ t, IsScalar c :=
  isScalar_of_decodeFrom (by simp) h

end Utf8

namespace Text

/-! ## Ends of lines -/

theorem unifyLineEnds_cons (c : CodePoint) (t : Text) :
    unifyLineEnds (c :: t) = putUnified c (unifyLineEnds t) (t.head? == some CodePoint.newline) := by
  cases t <;> rfl

/-- A text without carriage returns stays as it is. -/
theorem unifyLineEnds_of_not_mem {t : Text} (h : CodePoint.carriageReturn ∉ t) : unifyLineEnds t = t := by
  induction t with
  | nil => rfl
  | cons c t ih =>
    obtain ⟨hc, ht⟩ := List.ne_and_not_mem_of_not_mem_cons h
    rw [unifyLineEnds_cons, ih ht, putUnified, if_neg hc.symm]

/-- No carriage return is left, and nothing but line feeds is added. -/
theorem mem_unifyLineEnds {c : CodePoint} {t : Text} (h : c ∈ unifyLineEnds t) :
    c ≠ CodePoint.carriageReturn ∧ (c = CodePoint.newline ∨ c ∈ t) := by
  induction t with
  | nil => cases h
  | cons d t ih =>
    have hrest : c ∈ unifyLineEnds t → c ≠ CodePoint.carriageReturn ∧ (c = CodePoint.newline ∨ c ∈ d :: t) :=
      fun hc => ⟨(ih hc).1, (ih hc).2.imp_right (List.mem_cons_of_mem d)⟩
    rw [unifyLineEnds_cons, putUnified] at h
    split at h
    · split at h
      · exact hrest h
      · rcases List.mem_cons.mp h with rfl | h
        · exact ⟨by decide, .inl rfl⟩
        · exact hrest h
    · next hd =>
      rcases List.mem_cons.mp h with rfl | h
      · exact ⟨hd, .inr (List.mem_cons_self ..)⟩
      · exact hrest h

/-! ## Files -/

/-- The code points of a text that a file can hold as it is. -/
def IsWritten (t : Text) : Prop := ∀ c ∈ t, Utf8.IsScalar c ∧ c ≠ CodePoint.carriageReturn

instance (t : Text) : Decidable t.IsWritten := inferInstanceAs (Decidable (∀ c ∈ t, _))

/-- A text that is read can be written. -/
theorem isWritten_of_readText {bytes : List UInt8} {t : Text} (h : Encoding.utf8.readText bytes = .ok t) :
    t.IsWritten := by
  unfold Encoding.readText Encoding.decode at h
  cases hd : Utf8.decode bytes with
  | error e => rw [hd] at h; cases h
  | ok raw =>
    rw [hd] at h
    cases h
    intro c hc
    obtain ⟨hreturn, rfl | hraw⟩ := mem_unifyLineEnds hc
    · exact ⟨Utf8.isScalar_iff.mpr (by decide), hreturn⟩
    · exact ⟨Utf8.isScalar_of_decode hd c hraw, hreturn⟩

/-- A text that can be written is read again. -/
theorem readText_encode {t : Text} (h : t.IsWritten) :
    ∃ bytes, Utf8.encode? t = some bytes ∧ Encoding.utf8.readText bytes = .ok t := by
  obtain ⟨bytes, hencode, hdecode⟩ := Utf8.decode_encode fun c hc => (h c hc).1
  refine ⟨bytes, hencode, ?_⟩
  unfold Encoding.readText Encoding.decode
  rw [hdecode]
  exact congrArg Except.ok (unifyLineEnds_of_not_mem fun hc => (h _ hc).2 rfl)

/-! ## Lines -/

/-- The code points of a line that a file can hold as it is. -/
def IsWrittenLine (t : Text) : Prop := t.IsWritten ∧ CodePoint.newline ∉ t

instance (t : Text) : Decidable t.IsWrittenLine := inferInstanceAs (Decidable (_ ∧ _))

theorem isWrittenLine_of_mem_pieces {t line : Text} (h : t.IsWritten)
    (hline : line ∈ t.pieces CodePoint.newline) : line.IsWrittenLine :=
  ⟨fun _ hc => h _ (mem_of_mem_pieces hline hc), not_mem_of_mem_pieces hline⟩

theorem isWritten_join {lines : List Text} (h : ∀ line ∈ lines, line.IsWrittenLine) :
    (join [CodePoint.newline] lines).IsWritten := by
  intro c hc
  rcases mem_join hc with hc | ⟨line, hline, hc⟩
  · obtain rfl := List.mem_singleton.mp hc
    exact ⟨Utf8.isScalar_iff.mpr (by decide), by decide⟩
  · exact (h line hline).1 c hc

end Text

end NoteAccess
