/-
  NoteAccess.Proofs.Glob.Spread

  The segments of a text laid along the segments of a glob (`Spread`): `**` takes a run of them,
  every other segment one that it takes by itself.  The parts of a glob keep the separator between
  two neighbours that are both `**`, so an empty segment has to stand between their runs (`gap`).

  `takesAll_iff_spread` says what the parts take, given what each segment takes, and
  `forall_isValid_segments` when they are in order.
-/

import NoteAccess.Proofs.Glob.Fragment
import NoteAccess.Proofs.Text

namespace NoteAccess.Glob

/-! ## Segments along segments -/

/-- What stands between what a segment takes and what the later ones take, as far as it is a
    segment by itself.  Only a run of `**` reaches up to the next segment, unless that is one
    more `**`; behind anything else a separator ends an empty segment. -/
def gap (previous : Text) (ps : List Text) : List Text :=
  if previous = anySegments ∧ ps.head? ≠ some anySegments then [] else [[]]

theorem gap_of_ne {previous : Text} (h : previous ≠ anySegments) (ps : List Text) :
    gap previous ps = [[]] := if_neg fun hboth => h hboth.1

theorem gap_any_cons (previous : Text) (ps : List Text) : gap previous (anySegments :: ps) = [[]] :=
  if_neg fun hboth => hboth.2 rfl

theorem gap_any_of_ne {p : Text} (h : p ≠ anySegments) (ps : List Text) :
    gap anySegments (p :: ps) = [] := if_pos ⟨rfl, fun hhead => h (Option.some.inj hhead)⟩

/-- The segments of a text are spread over the segments of a pattern: `**` takes any run of them,
    and one more, which is empty, if `**` is next as well; every other segment takes one that
    `takes` allows. -/
def Spread (takes : Text → Text → Prop) : List Text → List Text → Prop
  | [], ts => ts = []
  | p :: ps, ts =>
    if p = anySegments then ∃ run rest, ts = run ++ (gap p ps ++ rest) ∧ Spread takes ps rest
    else ∃ t rest, ts = t :: rest ∧ takes p t ∧ Spread takes ps rest

variable {takes : Text → Text → Prop} {p : Text} {ps qs ts : List Text}

theorem spread_nil : Spread takes [] ts ↔ ts = [] := Iff.rfl

theorem spread_any_cons : Spread takes (anySegments :: ps) ts ↔
    ∃ run rest, ts = run ++ (gap anySegments ps ++ rest) ∧ Spread takes ps rest := by
  rw [Spread, if_pos rfl]

theorem spread_cons (hp : p ≠ anySegments) : Spread takes (p :: ps) ts ↔
    ∃ t rest, ts = t :: rest ∧ takes p t ∧ Spread takes ps rest := by
  rw [Spread, if_neg hp]

/-- A single `**` takes whatever there is. -/
theorem spread_any (ts : List Text) : Spread takes [anySegments] ts :=
  spread_any_cons.mpr ⟨ts, [], (List.append_nil ts).symm, rfl⟩

/-- A segment other than `**` wants a segment of the text. -/
theorem not_spread_nil (hp : p ≠ anySegments) : ¬ Spread takes (p :: ps) [] := by
  intro h
  obtain ⟨t, rest, hcons, -⟩ := (spread_cons hp).mp h
  cases hcons

/-- What is behind `**` wants at least one segment of the text. -/
theorem ne_nil_of_spread {rest : List Text} (hps : ps ≠ []) (hrest : Spread takes ps rest) :
    gap anySegments ps ++ rest ≠ [] := by
  obtain ⟨p, ps, rfl⟩ := List.exists_cons_of_ne_nil hps
  by_cases hp : p = anySegments
  · subst hp
    rw [gap_any_cons]
    exact List.cons_ne_nil _ _
  · rw [gap_any_of_ne hp]
    rintro rfl
    exact not_spread_nil hp hrest

theorem not_spread_any_nil (hps : ps ≠ []) : ¬ Spread takes (anySegments :: ps) [] := by
  intro h
  obtain ⟨run, rest, hnil, hrest⟩ := spread_any_cons.mp h
  exact ne_nil_of_spread hps hrest (List.append_eq_nil_iff.mp hnil.symm).2

/-- Every segment other than `**` takes some segment of the text. -/
theorem exists_of_spread (h : Spread takes ps ts) : ∀ p ∈ ps, p ≠ anySegments → ∃ t, takes p t := by
  induction ps generalizing ts with
  | nil => exact fun p hp => absurd hp List.not_mem_nil
  | cons q ps ih =>
    rw [List.forall_mem_cons]
    by_cases hq : q = anySegments
    · subst hq
      obtain ⟨run, rest, -, hrest⟩ := spread_any_cons.mp h
      exact ⟨fun hne => absurd rfl hne, ih hrest⟩
    · obtain ⟨t, rest, -, ht, hrest⟩ := (spread_cons hq).mp h
      exact ⟨fun _ => ⟨t, ht⟩, ih hrest⟩

/-- Two patterns one behind the other divide the segments of a text, unless a `**` at the end of
    the first meets one at the head of the second. -/
theorem spread_append (h : ps.getLast? = some anySegments → qs.head? ≠ some anySegments) :
    Spread takes (ps ++ qs) ts ↔ ∃ us vs, ts = us ++ vs ∧ Spread takes ps us ∧ Spread takes qs vs := by
  induction ps generalizing ts with
  | nil =>
    constructor
    · intro hts
      exact ⟨[], ts, rfl, rfl, hts⟩
    · rintro ⟨us, vs, rfl, rfl, hvs⟩
      exact hvs
  | cons p ps ih =>
    have hlast : ps.getLast? = some anySegments → qs.head? ≠ some anySegments := by
      intro he
      refine h ?_
      rw [List.getLast?_cons, he]
      rfl
    rw [List.cons_append]
    by_cases hp : p = anySegments
    · subst hp
      -- What is next to this `**` is the same in both patterns, or it is the head of the second.
      have hgap : gap anySegments (ps ++ qs) = gap anySegments ps := by
        cases ps with
        | nil => exact if_pos ⟨rfl, h rfl⟩
        | cons q ps => rfl
      rw [spread_any_cons, hgap]
      constructor
      · rintro ⟨run, rest, rfl, hrest⟩
        obtain ⟨us, vs, rfl, hus, hvs⟩ := (ih hlast).mp hrest
        refine ⟨run ++ (gap anySegments ps ++ us), vs, ?_, spread_any_cons.mpr ⟨run, us, rfl, hus⟩, hvs⟩
        simp only [List.append_assoc]
      · rintro ⟨us, vs, rfl, hus, hvs⟩
        obtain ⟨run, rest, rfl, hrest⟩ := spread_any_cons.mp hus
        refine ⟨run, rest ++ vs, ?_, (ih hlast).mpr ⟨rest, vs, rfl, hrest, hvs⟩⟩
        simp only [List.append_assoc]
    · rw [spread_cons hp]
      constructor
      · rintro ⟨t, rest, rfl, ht, hrest⟩
        obtain ⟨us, vs, rfl, hus, hvs⟩ := (ih hlast).mp hrest
        exact ⟨t :: us, vs, rfl, (spread_cons hp).mpr ⟨t, us, rfl, ht, hus⟩, hvs⟩
      · rintro ⟨us, vs, rfl, hus, hvs⟩
        obtain ⟨t, rest, rfl, ht, hrest⟩ := (spread_cons hp).mp hus
        exact ⟨t, rest ++ vs, rfl, ht, (ih hlast).mpr ⟨rest, vs, rfl, hrest, hvs⟩⟩

/-- Adjacent `**` take the runs with an empty segment for each `**` after the first. -/
theorem spread_replicate (n : Nat) :
    Spread takes (List.replicate (n + 1) anySegments) ts ↔ n ≤ ts.count [] := by
  induction n generalizing ts with
  | zero => exact iff_of_true (spread_any ts) (Nat.zero_le _)
  | succ n ih =>
    rw [List.replicate_succ, spread_any_cons, List.replicate_succ, gap_any_cons, ← List.replicate_succ]
    constructor
    · rintro ⟨run, rest, rfl, hrest⟩
      have hcount : n ≤ rest.count [] := ih.mp hrest
      rw [List.count_append, List.singleton_append, List.count_cons_self]
      omega
    · intro hcount
      -- The first run ends at the first empty segment, which leaves all other ones behind it.
      have hmem : [] ∈ ts := List.count_pos_iff.mp (by omega)
      obtain ⟨run, rest, rfl, hrun⟩ := List.eq_append_cons_of_mem hmem
      rw [List.count_append, List.count_cons_self, List.count_eq_zero.mpr hrun] at hcount
      exact ⟨run, rest, rfl, ih.mpr (by omega)⟩

/-! ## Parts of segments -/

section Parts

variable {fs : List Fragment} {t : Text}

/-- A separator in front of parts that take at least one segment. -/
theorem takesAll_separator {Q : List Text → Prop} (hQ : ¬ Q [])
    (hfs : ∀ v, TakesAll fs v ↔ Q (Text.pieces CodePoint.slash v)) :
    TakesAll (.separator :: fs) t ↔ ∃ ts, Text.pieces CodePoint.slash t = [] :: ts ∧ Q ts := by
  rw [takesAll_separator_cons]
  constructor
  · rintro ⟨v, rfl, hv⟩
    exact ⟨_, Text.pieces_sep_cons CodePoint.slash v, (hfs v).mp hv⟩
  · rintro ⟨ts, hpieces, hts⟩
    rcases Text.pieces_eq_nil_cons_iff.mp hpieces with ⟨-, rfl⟩ | ⟨v, rfl, rfl⟩
    · exact absurd hts hQ
    · exact ⟨v, rfl, (hfs v).mpr hts⟩

/-- What is below a segment: nothing, or a separator and any segments. -/
theorem takesAll_below_iff :
    TakesAll [.below] t ↔ ∃ ts, Text.pieces CodePoint.slash t = [] :: ts := by
  rw [takesAll_below]
  constructor
  · rintro (rfl | ⟨u, rfl⟩)
    · exact ⟨[], rfl⟩
    · exact ⟨_, Text.pieces_sep_cons CodePoint.slash u⟩
  · rintro ⟨ts, hpieces⟩
    rcases Text.pieces_eq_nil_cons_iff.mp hpieces with ⟨ht, -⟩ | ⟨u, hu, -⟩
    · exact .inl ht
    · exact .inr ⟨u, hu⟩

/-- Folders in front of parts that take at least one segment. -/
theorem takesAll_folders {Q : List Text → Prop} (hQ : ¬ Q [])
    (hfs : ∀ v, TakesAll fs v ↔ Q (Text.pieces CodePoint.slash v)) :
    TakesAll (.folders :: fs) t ↔
      ∃ run rest, Text.pieces CodePoint.slash t = run ++ rest ∧ Q rest := by
  rw [TakesAll]
  constructor
  · rintro ⟨u, v, rfl, rfl | ⟨w, rfl⟩, hv⟩
    · exact ⟨[], _, rfl, (hfs v).mp hv⟩
    · rw [List.append_assoc, List.singleton_append, Text.pieces_append]
      exact ⟨_, _, rfl, (hfs v).mp hv⟩
  · rintro ⟨run, rest, hpieces, hrest⟩
    -- The folders take nothing or all of the run with the separator behind it.
    by_cases hrun : run = []
    · subst hrun
      refine ⟨[], t, rfl, .inl rfl, (hfs t).mpr ?_⟩
      rwa [hpieces]
    · have hne : rest ≠ [] := by
        rintro rfl
        exact hQ hrest
      obtain ⟨u, v, rfl, -, hv⟩ := Text.exists_of_pieces_eq_append hpieces hrun hne
      refine ⟨u ++ [CodePoint.slash], v, ?_, .inr ⟨u, rfl⟩, (hfs v).mpr (hv ▸ hrest)⟩
      rw [List.append_assoc, List.singleton_append]

/-- The parts of one segment in front of what may follow it. -/
theorem takesAll_segment {gs : List Fragment} {M : Text → Prop} {Q : List Text → Prop}
    (hfs : ∀ u, TakesAll fs u ↔ M u ∧ CodePoint.slash ∉ u)
    (hgs : ∀ v, TakesAll gs v ↔ ∃ rest, Text.pieces CodePoint.slash v = [] :: rest ∧ Q rest) :
    TakesAll (fs ++ gs) t ↔ ∃ u rest, Text.pieces CodePoint.slash t = u :: rest ∧ M u ∧ Q rest := by
  rw [takesAll_append]
  constructor
  · rintro ⟨u, v, rfl, hu, hv⟩
    obtain ⟨hM, hslash⟩ := (hfs u).mp hu
    obtain ⟨rest, hpieces, hrest⟩ := (hgs v).mp hv
    exact ⟨u, rest, Text.pieces_eq_cons_iff.mpr ⟨hslash, v, rfl, hpieces⟩, hM, hrest⟩
  · rintro ⟨u, rest, hpieces, hM, hrest⟩
    obtain ⟨hslash, v, rfl, hv⟩ := Text.pieces_eq_cons_iff.mp hpieces
    exact ⟨u, v, rfl, (hfs u).mpr ⟨hM, hslash⟩, (hgs v).mpr ⟨rest, hv, hrest⟩⟩

end Parts

/-- The parts of each segment other than `**` take what `takes` says, within one segment. -/
def Taking (takes : Text → Text → Prop) (ps : List Text) : Prop :=
  ∀ p ∈ ps, p ≠ anySegments → ∀ u,
    TakesAll (segmentFragments false p) u ↔ takes p u ∧ CodePoint.slash ∉ u

/-- Folders in front of the parts of later segments. -/
theorem takesAll_folders_cons (hne : ps ≠ [])
    (hlater : ∀ t, TakesAll (laterFragments anySegments ps) t ↔
      ∃ ts, Text.pieces CodePoint.slash t = gap anySegments ps ++ ts ∧ Spread takes ps ts) (t : Text) :
    TakesAll (.folders :: laterFragments anySegments ps) t ↔
      Spread takes (anySegments :: ps) (Text.pieces CodePoint.slash t) := by
  have hnil : ¬ ∃ ts, [] = gap anySegments ps ++ ts ∧ Spread takes ps ts := by
    rintro ⟨ts, hnil, hts⟩
    exact ne_nil_of_spread hne hts hnil.symm
  rw [takesAll_folders (Q := fun us => ∃ ts, us = gap anySegments ps ++ ts ∧ Spread takes ps ts)
    hnil hlater, spread_any_cons]
  constructor
  · rintro ⟨run, _, hpieces, ts, rfl, hts⟩
    exact ⟨run, ts, hpieces, hts⟩
  · rintro ⟨run, ts, hpieces, hts⟩
    exact ⟨run, _, hpieces, ts, rfl, hts⟩

/-- A segment other than `**` in front of the parts of later segments. -/
theorem takesAll_segment_cons (hp : p ≠ anySegments) (htakes : Taking takes (p :: ps))
    (hlater : ∀ t, TakesAll (laterFragments p ps) t ↔
      ∃ ts, Text.pieces CodePoint.slash t = gap p ps ++ ts ∧ Spread takes ps ts) (t : Text) :
    TakesAll (segmentFragments false p ++ laterFragments p ps) t ↔
      Spread takes (p :: ps) (Text.pieces CodePoint.slash t) := by
  rw [gap_of_ne hp] at hlater
  rw [takesAll_segment (htakes p (List.mem_cons_self ..) hp) hlater, spread_cons hp]

/-- The parts of later segments take the segments that the later segments are spread over,
    behind the gap. -/
theorem takesAll_laterFragments {previous : Text} (htakes : Taking takes ps)
    (hne : previous = anySegments → ps ≠ []) (t : Text) :
    TakesAll (laterFragments previous ps) t ↔
      ∃ ts, Text.pieces CodePoint.slash t = gap previous ps ++ ts ∧ Spread takes ps ts := by
  -- Each segment is the previous one of those behind it.
  induction ps generalizing previous t with
  | nil =>
    rw [laterFragments, TakesAll, gap_of_ne fun he => hne he rfl]
    constructor
    · rintro rfl
      exact ⟨[], rfl, rfl⟩
    · rintro ⟨ts, hpieces, rfl⟩
      rw [← Text.join_pieces CodePoint.slash t, hpieces]
      rfl
  | cons p ps ih =>
    have htail : Taking takes ps := fun q hq => htakes q (List.mem_cons_of_mem _ hq)
    rw [laterFragments]
    by_cases hp : p = anySegments
    · subst hp
      rw [if_pos rfl, gap_any_cons]
      cases ps with
      | nil =>
        rw [List.isEmpty_nil, if_pos rfl, takesAll_below_iff]
        exact exists_congr fun ts => (and_iff_left (spread_any ts)).symm
      | cons q qs =>
        have hfolders : ∀ u, TakesAll (.folders :: laterFragments anySegments (q :: qs)) u ↔
            Spread takes (anySegments :: q :: qs) (Text.pieces CodePoint.slash u) :=
          takesAll_folders_cons (List.cons_ne_nil _ _) (ih htail fun _ => List.cons_ne_nil _ _)
        rw [List.isEmpty_cons, if_neg Bool.false_ne_true]
        exact takesAll_separator (not_spread_any_nil (List.cons_ne_nil _ _)) hfolders
    · have hsegment := takesAll_segment_cons hp htakes (ih htail fun he => absurd he hp)
      rw [if_neg hp]
      by_cases hprevious : previous = anySegments
      · -- No separator stands in front of this segment, and no gap.
        subst hprevious
        rw [if_pos rfl, List.nil_append, gap_any_of_ne hp, hsegment]
        constructor
        · intro hspread
          exact ⟨_, rfl, hspread⟩
        · rintro ⟨ts, hpieces, hspread⟩
          exact hpieces ▸ hspread
      · rw [if_neg hprevious, List.append_assoc, List.singleton_append, gap_of_ne hprevious]
        exact takesAll_separator (not_spread_nil hp) hsegment

/-- The parts of a list of segments take the texts whose segments it is spread over. -/
theorem takesAll_iff_spread (hne : ps ≠ []) (htakes : Taking takes ps) (t : Text) :
    TakesAll (segmentsFragments ps) t ↔ Spread takes ps (Text.pieces CodePoint.slash t) := by
  obtain ⟨p, ps, rfl⟩ := List.exists_cons_of_ne_nil hne
  have htail : Taking takes ps := fun q hq => htakes q (List.mem_cons_of_mem _ hq)
  rw [segmentsFragments]
  by_cases hp : p = anySegments
  · subst hp
    rw [if_pos rfl]
    cases ps with
    | nil =>
      rw [List.isEmpty_nil, if_pos rfl]
      exact iff_of_true (takesAll_anything t) (spread_any _)
    | cons q qs =>
      rw [List.isEmpty_cons, if_neg Bool.false_ne_true]
      exact takesAll_folders_cons (List.cons_ne_nil _ _)
        (takesAll_laterFragments htail fun _ => List.cons_ne_nil _ _) t
  · rw [if_neg hp]
    exact takesAll_segment_cons hp htakes (takesAll_laterFragments htail fun he => absurd he hp) t

/-! ## All parts -/

/-- The parts that stand between segments, or for any number of them, have a property. -/
structure HoldsBetween (P : Fragment → Prop) : Prop where
  separator : P .separator
  anything : P .anything
  folders : P .folders
  below : P .below

section Parts

variable {P : Fragment → Prop} (hP : HoldsBetween P)

include hP

theorem forall_later (previous : Text) :
    (∀ f ∈ laterFragments previous ps, P f) ↔
      ∀ p ∈ ps, p ≠ anySegments → ∀ f ∈ segmentFragments false p, P f := by
  induction ps generalizing previous with
  | nil => simp [laterFragments]
  | cons p ps ih =>
    rw [laterFragments, List.forall_mem_cons]
    by_cases hp : p = anySegments
    · rw [if_pos hp, and_iff_right fun hne => absurd hp hne]
      cases ps with
      | nil => simp [hP.below]
      | cons q qs =>
        rw [List.isEmpty_cons, if_neg Bool.false_ne_true, List.forall_mem_cons, List.forall_mem_cons,
          ih p, and_iff_right hP.separator, and_iff_right hP.folders]
    · have hfront : ∀ f ∈ (if previous = anySegments then [] else [.separator] : List Fragment), P f := by
        intro f hf
        split at hf
        · exact absurd hf List.not_mem_nil
        · rw [List.mem_singleton.mp hf]
          exact hP.separator
      rw [if_neg hp, List.forall_mem_append, List.forall_mem_append, and_iff_right hfront, ih p]
      exact and_congr_left fun _ => ⟨fun h _ => h, fun h => h hp⟩

/-- All parts of a list of segments have a property if those of each segment have it. -/
theorem forall_segments :
    (∀ f ∈ segmentsFragments ps, P f) ↔
      ∀ p ∈ ps, p ≠ anySegments → ∀ f ∈ segmentFragments false p, P f := by
  cases ps with
  | nil => simp [segmentsFragments]
  | cons p ps =>
    rw [segmentsFragments, List.forall_mem_cons]
    by_cases hp : p = anySegments
    · rw [if_pos hp, and_iff_right fun hne => absurd hp hne]
      cases ps with
      | nil => simp [hP.anything]
      | cons q qs =>
        rw [List.isEmpty_cons, if_neg Bool.false_ne_true, List.forall_mem_cons, forall_later hP p,
          and_iff_right hP.folders]
    · rw [if_neg hp, List.forall_mem_append, forall_later hP p]
      exact and_congr_left fun _ => ⟨fun h _ => h, fun h => h hp⟩

end Parts

/-- The parts of a list of segments are in order if those of each segment are. -/
theorem forall_isValid_segments :
    (∀ f ∈ segmentsFragments ps, f.isValid = true) ↔
      ∀ p ∈ ps, p ≠ anySegments → ∀ f ∈ segmentFragments false p, f.isValid = true :=
  forall_segments ⟨rfl, rfl, rfl, rfl⟩

end NoteAccess.Glob
