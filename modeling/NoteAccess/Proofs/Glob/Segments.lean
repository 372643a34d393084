/-
  NoteAccess.Proofs.Glob.Segments

  The meaning of a glob without braces and classes: the segments of a text are
  cut along the segments of the pattern (`Cut`), where `**` takes any run of
  segments and every other segment takes one that it matches (`SegmentTakes`).

  No two neighbours are both `**` here (`Separate`), and so no separator is left
  between their runs: this is `Spread` with the gaps gone (`spread_iff_cut`).
-/

import Mathlib.Data.List.Chain
import NoteAccess.Pattern
import NoteAccess.Proofs.Glob.Expansion
import NoteAccess.Proofs.Glob.Spread
import NoteAccess.Proofs.VaultPath

namespace NoteAccess.Glob

/-! ## One segment -/

/-- The texts that a segment without classes takes: a run of stars stands for any text,
    `?` for one code point, and every other code point for itself. -/
inductive SegmentTakes : Text → Text → Prop where
  | done : SegmentTakes [] []
  | literal {c : CodePoint} {p t : Text} : c ≠ CodePoint.star → c ≠ CodePoint.query →
      SegmentTakes p t → SegmentTakes (c :: p) (c :: t)
  | query {c : CodePoint} {p t : Text} : SegmentTakes p t →
      SegmentTakes (CodePoint.query :: p) (c :: t)
  | stars {n : Nat} {p s t : Text} : p.head? ≠ some CodePoint.star → SegmentTakes p t →
      SegmentTakes (CodePoint.star :: (List.replicate n CodePoint.star ++ p)) (s ++ t)

/-- A segment without its stars in front. -/
def unstarred (p : Text) : Text := p.dropWhile (· == CodePoint.star)

theorem head?_unstarred (p : Text) : (unstarred p).head? ≠ some CodePoint.star := by
  intro h
  have hnot := List.head?_dropWhile_not (· == CodePoint.star) p
  rw [← unstarred, h] at hnot
  simp at hnot

theorem replicate_append_unstarred (p : Text) :
    ∃ n, p = List.replicate n CodePoint.star ++ unstarred p := by
  induction p with
  | nil => exact ⟨0, rfl⟩
  | cons c p ih =>
    by_cases hc : c = CodePoint.star
    · obtain ⟨n, hn⟩ := ih
      refine ⟨n + 1, ?_⟩
      rw [unstarred, List.dropWhile_cons_of_pos (by simpa using hc), List.replicate_succ,
        List.cons_append, ← unstarred, ← hn, hc]
    · refine ⟨0, ?_⟩
      rw [unstarred, List.dropWhile_cons_of_neg (by simpa using hc)]
      rfl

theorem unstarred_replicate_append (n : Nat) {p : Text} (hp : p.head? ≠ some CodePoint.star) :
    unstarred (List.replicate n CodePoint.star ++ p) = p := by
  have hpos : ∀ c ∈ List.replicate n CodePoint.star, (c == CodePoint.star) = true := by
    intro c hc
    rw [List.eq_of_mem_replicate hc, beq_iff_eq]
  rw [unstarred, List.dropWhile_append_of_pos hpos]
  cases p with
  | nil => rfl
  | cons c p =>
    have hc : c ≠ CodePoint.star := by
      rintro rfl
      exact hp rfl
    exact List.dropWhile_cons_of_neg (by simpa using hc)

theorem unstarred_cons {c : CodePoint} (hc : c ≠ CodePoint.star) (p : Text) :
    unstarred (c :: p) = c :: p :=
  List.dropWhile_cons_of_neg (by simpa using hc)

/-- The stars in front of a segment take any text. -/
theorem segmentTakes_star_cons {p t : Text} :
    SegmentTakes (CodePoint.star :: p) t ↔ ∃ u v, t = u ++ v ∧ SegmentTakes (unstarred p) v := by
  constructor
  · intro h
    -- `star` is a number, which case analysis does not tell from the other ones.
    generalize hq : CodePoint.star :: p = q at h
    cases h with
    | done => cases hq
    | literal hstar => exact absurd (List.cons.inj hq).1.symm hstar
    | query => exact absurd (List.cons.inj hq).1 (by decide)
    | @stars n p' u v hhead hv =>
      rw [(List.cons.inj hq).2, unstarred_replicate_append n hhead]
      exact ⟨u, v, rfl, hv⟩
  · rintro ⟨u, v, rfl, hv⟩
    obtain ⟨n, hn⟩ := replicate_append_unstarred p
    rw [hn]
    exact .stars (head?_unstarred p) hv

theorem segmentTakes_query_cons {p t : Text} :
    SegmentTakes (CodePoint.query :: p) t ↔ ∃ c v, t = c :: v ∧ SegmentTakes p v := by
  constructor
  · intro h
    generalize hq : CodePoint.query :: p = q at h
    cases h with
    | done => cases hq
    | literal _ hquery => exact absurd (List.cons.inj hq).1.symm hquery
    | @query c p' v hv =>
      rw [(List.cons.inj hq).2]
      exact ⟨c, v, rfl, hv⟩
    | stars => exact absurd (List.cons.inj hq).1 (by decide)
  · rintro ⟨c, v, rfl, hv⟩
    exact .query hv

theorem segmentTakes_literal_cons {c : CodePoint} {p t : Text} (hs : c ≠ CodePoint.star)
    (hq : c ≠ CodePoint.query) :
    SegmentTakes (c :: p) t ↔ ∃ v, t = c :: v ∧ SegmentTakes p v := by
  constructor
  · intro h
    generalize hq : c :: p = q at h
    cases h with
    | done => cases hq
    | @literal d p' v _ _ hv =>
      obtain ⟨rfl, rfl⟩ := List.cons.inj hq
      exact ⟨v, rfl, hv⟩
    | query => exact absurd (List.cons.inj hq).1 (by assumption)
    | stars => exact absurd (List.cons.inj hq).1 hs
  · rintro ⟨v, rfl, hv⟩
    exact .literal hs hq hv

theorem segmentTakes_nil {t : Text} : SegmentTakes [] t ↔ t = [] := by
  constructor
  · intro h
    cases h
    rfl
  · rintro rfl
    exact .done

/-- No class is in the segment: there is no bracket to open one, or none to close it. -/
def Classless (p : Text) : Prop := CodePoint.openBracket ∉ p ∨ CodePoint.closeBracket ∉ p

theorem Classless.tail {c : CodePoint} {p : Text} (h : Classless (c :: p)) : Classless p :=
  h.imp (fun hopen hmem => hopen (List.mem_cons_of_mem _ hmem))
    fun hclose hmem => hclose (List.mem_cons_of_mem _ hmem)

/-- Without a closing bracket there is no body of a class. -/
theorem classBody?_eq_none {p : Text} (h : CodePoint.closeBracket ∉ p) : classBody? p = none := by
  have hcut : ∀ t, CodePoint.closeBracket ∉ t → Text.cut? CodePoint.closeBracket t = none := by
    intro t ht
    refine Option.eq_none_iff_forall_ne_some.mpr fun ⟨a, b⟩ hsome => ht ?_
    rw [(Text.cut?_eq_some_iff.mp hsome).2]
    exact List.mem_append_right _ (List.mem_cons_self ..)
  cases p with
  | nil => rfl
  | cons c p =>
    rw [classBody?, hcut p fun hmem => h (List.mem_cons_of_mem _ hmem), hcut _ h, Option.map_none, ite_self]

/-- The parts of a segment, one step at a time; the recursion of the definition is on the
    length, since a class takes several code points at once. -/
theorem segmentFragments_cons {starred : Bool} {c : CodePoint} {p : Text} (h : Classless (c :: p)) :
    segmentFragments starred (c :: p) =
      if c = CodePoint.star then
        if starred then segmentFragments true p else .run :: segmentFragments true p
      else if c = CodePoint.query then .one :: segmentFragments false p
      else .literal c :: segmentFragments false p := by
  rw [segmentFragments]
  by_cases hc : c = CodePoint.openBracket
  · subst hc
    have hclose : CodePoint.closeBracket ∉ p := by
      rcases h with hopen | hclose
      · exact absurd (List.mem_cons_self ..) hopen
      · exact fun hmem => hclose (List.mem_cons_of_mem _ hmem)
    rw [if_neg (by decide), if_neg (by decide), if_pos rfl, if_neg (by decide), if_neg (by decide)]
    split
    · next hbody =>
      rw [classBody?_eq_none hclose] at hbody
      cases hbody
    · rfl
  · rw [if_neg hc]

/-- The parts of a segment take the texts that the segment takes and that have no
    separator. -/
theorem takesAll_segmentFragments {starred : Bool} {p t : Text}
    (hslash : CodePoint.slash ∉ p) (hclass : Classless p) :
    TakesAll (segmentFragments starred p) t ↔
      SegmentTakes (if starred then unstarred p else p) t ∧ CodePoint.slash ∉ t := by
  -- The flag is general: behind a star the rest of its run adds no part.
  induction p generalizing starred t with
  | nil =>
    have hnil : (if starred then unstarred [] else []) = ([] : Text) := by cases starred <;> rfl
    rw [hnil, segmentFragments, TakesAll, segmentTakes_nil]
    constructor
    · rintro rfl
      exact ⟨rfl, List.not_mem_nil⟩
    · exact And.left
  | cons c p ih =>
    obtain ⟨hcs, hps⟩ := not_or.mp (mt List.mem_cons.mpr hslash)
    have hpb : Classless p := hclass.tail
    rw [segmentFragments_cons hclass]
    by_cases hstar : c = CodePoint.star
    · subst hstar
      rw [if_pos rfl]
      cases starred with
      | true =>
        -- One more star of a run adds nothing.
        rw [if_pos rfl, ih hps hpb, if_pos rfl, if_pos rfl, unstarred, unstarred,
          List.dropWhile_cons_of_pos (by rfl)]
      | false =>
        rw [if_neg Bool.false_ne_true, if_neg Bool.false_ne_true, TakesAll, segmentTakes_star_cons]
        constructor
        · rintro ⟨u, v, rfl, hu, hv⟩
          obtain ⟨hv, hvs⟩ := (ih hps hpb).mp hv
          refine ⟨⟨u, v, rfl, hv⟩, ?_⟩
          rw [List.mem_append, not_or]
          exact ⟨hu, hvs⟩
        · rintro ⟨⟨u, v, rfl, hv⟩, hts⟩
          rw [List.mem_append, not_or] at hts
          exact ⟨u, v, rfl, hts.1, (ih hps hpb).mpr ⟨hv, hts.2⟩⟩
    · have hsame : (if starred then unstarred (c :: p) else c :: p) = c :: p := by
        rw [unstarred_cons hstar, ite_self]
      rw [if_neg hstar, hsame]
      by_cases hquery : c = CodePoint.query
      · subst hquery
        rw [if_pos rfl, takesAll_one_cons, segmentTakes_query_cons]
        constructor
        · rintro ⟨d, v, rfl, hd, hv⟩
          obtain ⟨hv, hvs⟩ := (ih hps hpb).mp hv
          refine ⟨⟨d, v, rfl, hv⟩, ?_⟩
          rw [List.mem_cons, not_or]
          exact ⟨Ne.symm hd, hvs⟩
        · rintro ⟨⟨d, v, rfl, hv⟩, hts⟩
          obtain ⟨hd, hvs⟩ := not_or.mp (mt List.mem_cons.mpr hts)
          exact ⟨d, v, rfl, Ne.symm hd, (ih hps hpb).mpr ⟨hv, hvs⟩⟩
      · rw [if_neg hquery, takesAll_literal_cons, segmentTakes_literal_cons hstar hquery]
        constructor
        · rintro ⟨v, rfl, hv⟩
          obtain ⟨hv, hvs⟩ := (ih hps hpb).mp hv
          refine ⟨⟨v, rfl, hv⟩, ?_⟩
          rw [List.mem_cons, not_or]
          exact ⟨hcs, hvs⟩
        · rintro ⟨⟨v, rfl, hv⟩, hts⟩
          obtain ⟨-, hvs⟩ := not_or.mp (mt List.mem_cons.mpr hts)
          exact ⟨v, rfl, (ih hps hpb).mpr ⟨hv, hvs⟩⟩

/-! ## Segments along segments -/

/-- The segments of a text are cut along the segments of a pattern: `**` takes any run of
    segments, every other segment exactly one. -/
inductive Cut : List Text → List Text → Prop where
  | done : Cut [] []
  | any {ps ts : List Text} (run : List Text) : Cut ps ts → Cut (anySegments :: ps) (run ++ ts)
  | one {p t : Text} {ps ts : List Text} : p ≠ anySegments → SegmentTakes p t → Cut ps ts →
      Cut (p :: ps) (t :: ts)

theorem cut_nil {ts : List Text} : Cut [] ts ↔ ts = [] := by
  constructor
  · intro h
    cases h
    rfl
  · rintro rfl
    exact .done

theorem cut_any_cons {ps ts : List Text} :
    Cut (anySegments :: ps) ts ↔ ∃ run rest, ts = run ++ rest ∧ Cut ps rest := by
  constructor
  · intro h
    generalize hq : anySegments :: ps = qs at h
    cases h with
    | done => cases hq
    | @any ps' rest run hcut =>
      obtain ⟨-, rfl⟩ := List.cons.inj hq
      exact ⟨run, rest, rfl, hcut⟩
    | one hne => exact absurd (List.cons.inj hq).1.symm hne
  · rintro ⟨run, rest, rfl, hcut⟩
    exact .any run hcut

theorem cut_cons {p : Text} {ps ts : List Text} (hp : p ≠ anySegments) :
    Cut (p :: ps) ts ↔ ∃ t rest, ts = t :: rest ∧ SegmentTakes p t ∧ Cut ps rest := by
  constructor
  · intro h
    generalize hq : p :: ps = qs at h
    cases h with
    | done => cases hq
    | any => exact absurd (List.cons.inj hq).1 hp
    | @one p' t ps' rest _ htakes hcut =>
      obtain ⟨rfl, rfl⟩ := List.cons.inj hq
      exact ⟨t, rest, rfl, htakes, hcut⟩
  · rintro ⟨t, rest, rfl, htakes, hcut⟩
    exact .one hp htakes hcut

/-- The segments have no separator and no class. -/
def Plain (ps : List Text) : Prop :=
  ∀ p ∈ ps, CodePoint.slash ∉ p ∧ CodePoint.openBracket ∉ p

/-- No two neighbours are both `**`. -/
def Separate (ps : List Text) : Prop :=
  ps.IsChain fun p q => p = anySegments → q ≠ anySegments

instance (ps : List Text) : Decidable (Separate ps) :=
  inferInstanceAs (Decidable (ps.IsChain fun p q => p = anySegments → q ≠ anySegments))

/-- Without adjacent `**`, segments are spread over a pattern as they are cut along it. -/
theorem spread_iff_cut {ps ts : List Text} (hsep : Separate ps) :
    Spread SegmentTakes ps ts ↔ Cut ps ts := by
  induction ps generalizing ts with
  | nil => rw [spread_nil, cut_nil]
  | cons p ps ih =>
    have hcut : ∀ rest, Spread SegmentTakes ps rest ↔ Cut ps rest := fun _ => ih hsep.tail
    by_cases hp : p = anySegments
    · subst hp
      have hgap : gap anySegments ps = [] := by
        cases ps with
        | nil => rfl
        | cons q qs => exact gap_any_of_ne ((List.isChain_cons_cons.mp hsep).1 rfl) qs
      simp only [spread_any_cons, cut_any_cons, hgap, hcut, List.nil_append]
    · simp only [spread_cons hp, cut_cons hp, hcut]

/-- The parts of a list of segments take the texts whose segments are cut along it. -/
theorem takesAll_segmentsFragments {ps : List Text} (hne : ps ≠ []) (hplain : Plain ps)
    (hsep : Separate ps) (t : Text) :
    TakesAll (segmentsFragments ps) t ↔ Cut ps (Text.pieces CodePoint.slash t) := by
  have htaking : Taking SegmentTakes ps := by
    intro p hp _ u
    exact takesAll_segmentFragments (hplain p hp).1 (.inl (hplain p hp).2)
  rw [takesAll_iff_spread hne htaking, spread_iff_cut hsep]

/-! ## Whole patterns -/

/-- A pattern without braces has one list of parts, which all have to be in order. -/
theorem compile?_of_not_mem {pattern : Text} (h : CodePoint.openBrace ∉ pattern) :
    compile? pattern =
      if (fragments pattern).all Fragment.isValid then some ⟨[fragments pattern]⟩ else none :=
  compile?_of_expandBraces (expandBraces_of_not_mem h)

theorem matches_singleton {fs : List Fragment} {t : Text} :
    Program.matches ⟨[fs]⟩ t = true ↔ TakesAll fs t := by
  rw [Program.matches, List.any_cons, List.any_nil, Bool.or_false, matchAll_iff]

/-- The parts of a segment without classes are valid. -/
theorem isValid_segmentFragments (starred : Bool) {p : Text} (h : Classless p) :
    ∀ f ∈ segmentFragments starred p, f.isValid = true := by
  induction p generalizing starred with
  | nil => simp [segmentFragments]
  | cons c p ih =>
    have hp : Classless p := h.tail
    rw [segmentFragments_cons h]
    intro f hf
    split at hf
    · split at hf
      · exact ih _ hp f hf
      · rcases List.mem_cons.mp hf with rfl | hf
        · rfl
        · exact ih _ hp f hf
    · split at hf
      · rcases List.mem_cons.mp hf with rfl | hf
        · rfl
        · exact ih _ hp f hf
      · rcases List.mem_cons.mp hf with rfl | hf
        · rfl
        · exact ih _ hp f hf

theorem isValid_segmentsFragments {ps : List Text} (h : Plain ps) :
    ∀ f ∈ segmentsFragments ps, f.isValid = true := by
  rw [forall_isValid_segments]
  intro p hp _
  exact isValid_segmentFragments false (.inl (h p hp).2)

/-- The segments of a pattern without brackets are plain. -/
theorem plain_pieces {pattern : Text} (h : CodePoint.openBracket ∉ pattern) :
    Plain (Text.pieces CodePoint.slash (VaultPath.relative pattern)) := by
  intro p hp
  refine ⟨Text.not_mem_of_mem_pieces hp, fun hmem => ?_⟩
  rcases (VaultPath.mem_relative (Text.mem_of_mem_pieces hp hmem)).2 with hslash | hpattern
  · exact absurd hslash (by decide)
  · exact h hpattern

/-- A glob without braces, classes and adjacent `**` is in order, and it matches the texts
    whose segments are cut along its own. -/
theorem compile_glob {pattern : Text} (letters : Option Text)
    (hbrace : CodePoint.openBrace ∉ pattern) (hbracket : CodePoint.openBracket ∉ pattern)
    (hsep : Separate (Text.pieces CodePoint.slash (VaultPath.relative pattern))) :
    ∃ p, (Pattern.make false pattern letters).compile = .ok p ∧ p.isValid = true ∧
      ∀ t, p.matches t = true ↔
        Cut (Text.pieces CodePoint.slash (VaultPath.relative pattern))
          (Text.pieces CodePoint.slash t) := by
  have hplain := plain_pieces hbracket
  have hvalid : ([fragments pattern].all (·.all Fragment.isValid)) = true := by
    rw [List.all_cons, List.all_nil, Bool.and_true, List.all_eq_true]
    exact isValid_segmentsFragments hplain
  have hcompile : compile? pattern = some ⟨[fragments pattern]⟩ := by
    rw [compile?, expandBraces_of_not_mem hbrace, ofExpansions?, List.map_singleton]
    exact if_pos hvalid
  refine ⟨.glob ⟨[fragments pattern]⟩, ?_, rfl, ?_⟩
  · rw [Pattern.make, if_neg Bool.false_ne_true, Pattern.compile, hcompile]
  · intro t
    rw [Pattern.Program.matches, Program.matches, List.any_cons, List.any_nil, Bool.or_false,
      matchAll_iff]
    exact takesAll_segmentsFragments (Text.pieces_ne_nil _ _) hplain hsep t

/-- Three segments, of which the middle one takes two segments of a text. -/
theorem compile_glob_notes :
    CodePoint.openBrace ∉ ("notes/**/2?-*.md" : Text) ∧
      CodePoint.openBracket ∉ ("notes/**/2?-*.md" : Text) ∧
      Separate (Text.pieces CodePoint.slash (VaultPath.relative "notes/**/2?-*.md")) ∧
      ∃ p, (Pattern.make false "notes/**/2?-*.md" none).compile = .ok p ∧ p.isValid = true ∧
        ∀ t, p.matches t = true ↔
          Cut (Text.pieces CodePoint.slash (VaultPath.relative "notes/**/2?-*.md"))
            (Text.pieces CodePoint.slash t) := by
  have hbrace : CodePoint.openBrace ∉ ("notes/**/2?-*.md" : Text) := by decide
  have hbracket : CodePoint.openBracket ∉ ("notes/**/2?-*.md" : Text) := by decide
  have hsep : Separate (Text.pieces CodePoint.slash (VaultPath.relative "notes/**/2?-*.md")) := by
    decide
  exact ⟨hbrace, hbracket, hsep, compile_glob none hbrace hbracket hsep⟩

end NoteAccess.Glob
