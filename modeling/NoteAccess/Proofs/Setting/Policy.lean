/-
  NoteAccess.Proofs.Setting.Policy

  The policy of accepted settings.  A global tag that is accepted has a normal form that is
  one literal tag (`Tag.IsSingle`), since lowering it makes no blank and no sign; so the
  policy has a global tag exactly if the settings set one (`check_sound`).
-/

import NoteAccess.Proofs.Setting
import NoteAccess.Proofs.Text
import NoteAccess.Proofs.Text.Letters

namespace NoteAccess

open CodePoint (hash plus)

/-! ## Single tags -/

namespace Tag

/-- One literal tag in normal form. -/
structure IsSingle (tag : Text) : Prop where
  length : 2 ≤ tag.length
  marked : tag.head? = some hash
  unbroken : tag.hasBlank = false
  simple : plus ∉ tag
  normal : normalize tag = tag

/-- The normal form is the tag in small letters, behind the mark if it does not begin with it. -/
theorem normalize_cases {raw : Text} (h : raw.strip ≠ []) :
    ∃ rest, normalize raw = hash :: rest ∧
      (raw.strip.lower = hash :: rest ∨ raw.strip.lower = rest ∧ rest ≠ []) := by
  have hlow : raw.strip.lower ≠ [] := by
    intro hnil
    have hlength := Text.length_le_lower raw.strip
    rw [hnil] at hlength
    exact h (List.eq_nil_of_length_eq_zero (Nat.le_zero.mp hlength))
  obtain ⟨c, rest, hcons⟩ := List.exists_cons_of_ne_nil hlow
  unfold normalize
  rw [hcons]
  by_cases hc : c = hash
  · subst hc
    exact ⟨rest, if_pos rfl, .inl rfl⟩
  · exact ⟨c :: rest, if_neg hc, .inr ⟨rfl, List.cons_ne_nil c rest⟩⟩

/-- A tag with the mark in front, in small letters and without blanks, is in normal form. -/
theorem normalize_eq_self {rest : Text} (hblank : Text.hasBlank (hash :: rest) = false)
    (hlow : ∀ c ∈ hash :: rest, c.toLower = c) : normalize (hash :: rest) = hash :: rest := by
  have hstrip : Text.strip (hash :: rest) = hash :: rest := (Text.trimmed_of_hasBlank_eq_false hblank).strip
  have hlower : Text.lower (hash :: rest) = hash :: rest := Text.lower_go_eq_self hlow []
  unfold normalize
  rw [hstrip, hlower]
  exact if_pos rfl

theorem isSingle_normalize {raw : Text} (hempty : raw.strip ≠ []) (hlone : raw.strip ≠ [hash])
    (hblank : raw.strip.hasBlank = false) (hplus : plus ∉ raw.strip) : IsSingle (normalize raw) := by
  obtain ⟨rest, hnormal, hcases⟩ := normalize_cases hempty
  rw [hnormal]
  have hmem : ∀ c ∈ rest, c ∈ raw.strip.lower := by
    rcases hcases with hlower | ⟨hlower, -⟩
    · exact fun c hc => hlower ▸ List.mem_cons_of_mem _ hc
    · exact fun c hc => hlower ▸ hc
  have hunbroken : Text.hasBlank (hash :: rest) = false := by
    rw [Text.hasBlank_eq_false_iff] at hblank ⊢
    refine List.forall_mem_cons.mpr ⟨rfl, fun c hc => Bool.eq_false_iff.mpr fun hblankc => ?_⟩
    have hsep : c.isSeparator = true := by simp [CodePoint.isSeparator, hblankc]
    exact absurd (hblank c (Text.mem_of_mem_lower (hmem c hc) hsep)) (by simp [hblankc])
  refine ⟨?_, rfl, hunbroken, ?_, normalize_eq_self hunbroken ?_⟩
  · rcases hcases with hlower | ⟨-, hrest⟩
    · -- A mark of its own is given alone, which is no tag.
      rw [List.length_cons, Nat.succ_le_succ_iff, Nat.one_le_iff_ne_zero]
      intro hzero
      rw [List.eq_nil_of_length_eq_zero hzero] at hlower
      have hlength := Text.length_le_lower raw.strip
      have hhash : hash ∈ raw.strip := Text.mem_of_mem_lower (hlower ▸ List.mem_cons_self) rfl
      rw [hlower] at hlength
      obtain ⟨c, hc⟩ := List.length_eq_one_iff.mp (Nat.le_antisymm hlength (List.length_pos_of_mem hhash))
      rw [hc, List.mem_singleton] at hhash
      exact hlone (hhash ▸ hc)
    · rw [List.length_cons, Nat.succ_le_succ_iff]
      exact List.length_pos_iff.mpr hrest
  · rw [List.mem_cons, not_or]
    exact ⟨by decide, fun hc => hplus (Text.mem_of_mem_lower (hmem plus hc) rfl)⟩
  · exact List.forall_mem_cons.mpr ⟨by decide, fun c hc => Text.toLower_of_mem_lower (hmem c hc)⟩

end Tag

/-! ## Settings -/

namespace Setting

/-- Only a text is accepted as a global tag, and its normal form is a single tag. -/
theorem isSingle_of_checkTag {v : Value} (h : checkTag v = .ok ()) :
    ∃ raw, v = .text raw ∧ Tag.IsSingle (Tag.normalize raw) := by
  cases v with
  | text raw =>
    unfold checkTag at h
    dsimp only at h
    split at h
    · cases h
    · next hgiven =>
      split at h
      · cases h
      · next hblank =>
        split at h
        · cases h
        · next hplus =>
          simp only [Bool.or_eq_true, List.isEmpty_iff, beq_iff_eq, not_or] at hgiven
          refine ⟨raw, rfl, Tag.isSingle_normalize hgiven.1 hgiven.2 (Bool.eq_false_iff.mpr hblank) ?_⟩
          simpa using hplus
  | _ => cases h

/-- A setting counts as set if its value is not null, false, zero or empty. -/
def isSet (entries : List (Value × Value)) (key : Text) : Bool := (Value.field? key entries).any Value.isTruthy

/-- The truth value of a setting: the one that is given, or else the one by default. -/
def IsBoolean (entries : List (Value × Value)) (key : Text) (byDefault b : Bool) : Prop :=
  Value.field? key entries = some (.bool b) ∨ Value.field? key entries = none ∧ b = byDefault

/-- The global tag of a setting: the normal form of the text that is set, which is a single tag, or none. -/
def IsGlobalTag (entries : List (Value × Value)) (key tag : Text) : Prop :=
  (isSet entries key = true ∧
    ∃ raw, Value.field? key entries = some (.text raw) ∧ tag = Tag.normalize raw ∧ Tag.IsSingle tag) ∨
  isSet entries key = false ∧ tag = []

theorem isBoolean_of_checkBoolean [Stack] {entries : List (Value × Value)} {key : Text}
    (h : checkBoolean entries key = .ok ()) (byDefault : Bool) :
    IsBoolean entries key byDefault (((Value.field? key entries).map Value.isTruthy).getD byDefault) := by
  unfold checkBoolean at h
  unfold IsBoolean
  split at h
  · next hnone =>
    rw [hnone]
    exact .inr ⟨rfl, rfl⟩
  · next hgiven =>
    rw [hgiven]
    exact .inl rfl
  · exact absurd h refuse_ne_ok

theorem isGlobalTag_of_checkTagAt {entries : List (Value × Value)} {key tag : Text}
    (h : checkTagAt entries key = .ok ()) (htag : Snapshot.globalTag (Value.field? key entries) = .ok tag) :
    IsGlobalTag entries key tag := by
  unfold checkTagAt at h
  unfold Snapshot.globalTag at htag
  unfold IsGlobalTag isSet
  cases hv : Value.field? key entries with
  | none =>
    rw [hv] at htag
    cases htag
    exact .inr ⟨rfl, rfl⟩
  | some v =>
    rw [hv] at h htag
    dsimp only at h htag
    rw [Option.any_some]
    cases htruthy : v.isTruthy with
    | false =>
      rw [htruthy] at htag
      cases htag
      exact .inr ⟨rfl, rfl⟩
    | true =>
      rw [htruthy] at h htag
      obtain ⟨raw, rfl, hsingle⟩ := isSingle_of_checkTag h
      cases htag
      exact .inl ⟨rfl, raw, rfl, rfl, hsingle⟩

/-- A global tag is there exactly if it is set. -/
theorem IsGlobalTag.isEmpty_eq {entries : List (Value × Value)} {key tag : Text} (h : IsGlobalTag entries key tag) :
    tag.isEmpty = !isSet entries key := by
  rcases h with ⟨hset, raw, -, -, hsingle⟩ | ⟨hset, rfl⟩
  · rw [hset, Bool.not_true, List.isEmpty_eq_false_iff]
    rintro rfl
    cases hsingle.marked
  · rw [hset]
    rfl

theorem booleans_of_check [Stack] {entries : List (Value × Value)} (h : check (.dict entries) = .ok ()) :
    checkBoolean entries enabledKey = .ok () ∧ checkBoolean entries readOnlyKey = .ok () := by
  unfold check at h
  obtain ⟨_, henabled, h⟩ := bind_eq_ok_iff.mp h
  obtain ⟨_, hreadOnly, -⟩ := bind_eq_ok_iff.mp h
  exact ⟨henabled, hreadOnly⟩

end Setting

namespace Snapshot

/-- What a policy takes over from settings, besides the default policy. -/
theorem fields_ofSettings {entries : List (Value × Value)} {s : Snapshot} (h : ofSettings (.dict entries) = .ok s) :
    globalTag (Value.field? Setting.allowTagKey entries) = .ok s.allowTag ∧
      globalTag (Value.field? Setting.denyTagKey entries) = .ok s.denyTag ∧
      s.enabled = ((Value.field? Setting.enabledKey entries).map Value.isTruthy).getD true ∧
      s.readOnly = ((Value.field? Setting.readOnlyKey entries).map Value.isTruthy).getD false := by
  unfold ofSettings at h
  obtain ⟨m, -, h⟩ := bind_eq_ok_iff.mp h
  obtain ⟨allowTag, hallow, h⟩ := bind_eq_ok_iff.mp h
  obtain ⟨denyTag, hdeny, h⟩ := bind_eq_ok_iff.mp h
  cases h
  exact ⟨mapError_eq_ok_iff.mp hallow, mapError_eq_ok_iff.mp hdeny, rfl, rfl⟩

end Snapshot

namespace Engine

/-- An engine that takes settings over has their policy, with the rules that it had. -/
theorem snapshot_of_updateSettings [Stack] {e e' : Engine} {settings : Value} {s : Snapshot}
    (hs : Snapshot.ofSettings settings = .ok s) (h : e.updateSettings settings = .ok e') :
    e'.snapshot = s.withRules e.snapshot.rules e.snapshot.entries := by
  unfold updateSettings at h
  obtain ⟨s', hs', h⟩ := bind_eq_ok_iff.mp h
  cases hs.symm.trans hs'
  split at h
  · split at h
    · cases h
      rfl
    · cases h
      rfl
    · obtain ⟨n, -, h⟩ := bind_eq_ok_iff.mp h
      cases h
      rfl
  · cases h
    rfl

end Engine

namespace Setting

/-- Accepted settings make up a policy, and an engine takes it over.  Filtering and writing are as they
    are set, a global tag that is set is a single tag in normal form, and the global tags count exactly if
    one of them is set. -/
theorem check_sound [Stack] {settings : Value} (h : check settings = .ok ()) (e : Engine) :
    ∃ entries s e', settings = .dict entries ∧ Snapshot.ofSettings settings = .ok s ∧
      e.updateSettings settings = .ok e' ∧ e'.snapshot = s.withRules e.snapshot.rules e.snapshot.entries ∧
      IsBoolean entries enabledKey true s.enabled ∧ IsBoolean entries readOnlyKey false s.readOnly ∧
      IsGlobalTag entries allowTagKey s.allowTag ∧ IsGlobalTag entries denyTagKey s.denyTag ∧
      e'.snapshot.hasGlobalTag = (isSet entries allowTagKey || isSet entries denyTagKey) := by
  obtain ⟨e', he'⟩ := Engine.updateSettings_of_check h e
  obtain ⟨entries, rfl, haccepted⟩ := accepted_of_check h
  obtain ⟨s, hs⟩ := Snapshot.exists_ofSettings haccepted
  obtain ⟨hallowTag, hdenyTag, henabled, hreadOnly⟩ := Snapshot.fields_ofSettings hs
  obtain ⟨henabledOk, hreadOnlyOk⟩ := booleans_of_check h
  have hallow := isGlobalTag_of_checkTagAt haccepted.allowTag hallowTag
  have hdeny := isGlobalTag_of_checkTagAt haccepted.denyTag hdenyTag
  have hsnapshot := Engine.snapshot_of_updateSettings hs he'
  refine ⟨entries, s, e', rfl, hs, he', hsnapshot, ?_, ?_, hallow, hdeny, ?_⟩
  · rw [henabled]
    exact isBoolean_of_checkBoolean henabledOk true
  · rw [hreadOnly]
    exact isBoolean_of_checkBoolean hreadOnlyOk false
  · rw [hsnapshot]
    show (!(s.allowTag.isEmpty && s.denyTag.isEmpty)) = _
    rw [hallow.isEmpty_eq, hdeny.isEmpty_eq, Bool.not_and, Bool.not_not, Bool.not_not]

/-- Settings with a global tag in capital letters, blanks around it and a sigma at its end. -/
def shouted : List (Value × Value) := [
  (.text defaultPolicyKey, .text " Allow"), (.text readOnlyKey, .bool true), (.text allowTagKey, .text "\tTeam/ΟΔΟΣ "),
  (.text denyTagKey, .list []), (.text concurrencyKey, .int 8)]

attribute [local instance] Stack.usual

theorem check_sound_shouted :
    check (.dict shouted) = .ok () ∧ ∃ s e', Snapshot.ofSettings (.dict shouted) = .ok s ∧
      ({} : Engine).updateSettings (.dict shouted) = .ok e' ∧ s.enabled = true ∧ s.readOnly = true ∧
      s.allowTag = "#team/οδος" ∧ s.denyTag = [] ∧ e'.snapshot.hasGlobalTag = true := by
  have hcheck : check (.dict shouted) = .ok () := by rfl
  obtain ⟨entries, s, e', hentries, hs, he', -, henabled, hreadOnly, hallow, hdeny, hglobal⟩ := check_sound hcheck {}
  cases hentries
  have habsent : Value.field? enabledKey shouted = none := by rfl
  have hgiven : Value.field? readOnlyKey shouted = some (.bool true) := by rfl
  have htext : Value.field? allowTagKey shouted = some (.text "\tTeam/ΟΔΟΣ ") := by rfl
  have hallowSet : isSet shouted allowTagKey = true := by rfl
  have hdenySet : isSet shouted denyTagKey = false := by rfl
  refine ⟨hcheck, s, e', hs, he', ?_, ?_, ?_, ?_, ?_⟩
  · rcases henabled with h | ⟨-, h⟩
    · cases habsent.symm.trans h
    · exact h
  · rcases hreadOnly with h | ⟨h, -⟩
    · exact Value.bool.inj (Option.some.inj (h.symm.trans hgiven))
    · cases hgiven.symm.trans h
  · rcases hallow with ⟨-, raw, hraw, htag, -⟩ | ⟨hunset, -⟩
    · rw [htag, Value.text.inj (Option.some.inj (hraw.symm.trans htext))]
      decide +kernel
    · cases hallowSet.symm.trans hunset
  · rcases hdeny with ⟨hset, -⟩ | ⟨-, h⟩
    · cases hdenySet.symm.trans hset
    · exact h
  · rw [hglobal, hallowSet]
    rfl

end Setting

end NoteAccess
