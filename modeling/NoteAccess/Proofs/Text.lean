/-
  NoteAccess.Proofs.Text

  Cutting a text into pieces and putting the pieces together again.  `pieces` is
  the split of a list at a separator and `fields` the split at every separator
  without the empty parts, so the laws of the library's splits hold for them.

  A text is `Trimmed` when no blank is at either end; stripping leaves it as it is.
-/

import NoteAccess.Text.Blank

namespace NoteAccess.Text

/-! ## Beginnings -/

theorem dropLead?_append (lead t : Text) : dropLead? lead (lead ++ t) = some t := by
  induction lead with
  | nil => rfl
  | cons c lead ih => rw [List.cons_append, dropLead?, if_pos rfl, ih]

theorem eq_append_of_dropLead? {lead t rest : Text} (h : dropLead? lead t = some rest) :
    t = lead ++ rest := by
  induction lead generalizing t with
  | nil => exact Option.some.inj h
  | cons a lead ih =>
    cases t with
    | nil => cases h
    | cons b t =>
      rw [dropLead?] at h
      split at h
      · next hab => rw [hab, ih h, List.cons_append]
      · cases h

/-- A text that ends with another one is something in front of it. -/
theorem exists_append_of_endsWith {t tail : Text} (h : t.endsWith tail = true) : ∃ lead, t = lead ++ tail := by
  obtain ⟨rest, hrest⟩ := Option.isSome_iff_exists.mp h
  refine ⟨rest.reverse, ?_⟩
  rw [← List.reverse_reverse t, eq_append_of_dropLead? hrest, List.reverse_append, List.reverse_reverse]

/-! ## Cuts -/

/-- A text is cut at the first separator. -/
theorem cut?_eq_some_iff {sep : CodePoint} {t a b : Text} :
    cut? sep t = some (a, b) ↔ sep ∉ a ∧ t = a ++ sep :: b := by
  induction t generalizing a with
  | nil =>
    constructor
    · intro h
      cases h
    · rintro ⟨-, h⟩
      exact absurd h.symm (List.append_ne_nil_of_right_ne_nil _ (List.cons_ne_nil _ _))
  | cons c t ih =>
    rw [cut?]
    by_cases hc : c = sep
    · subst hc
      rw [if_pos rfl]
      constructor
      · intro h
        cases h
        exact ⟨List.not_mem_nil, rfl⟩
      · rintro ⟨hsep, h⟩
        rcases List.cons_eq_append_iff.mp h with ⟨rfl, hb⟩ | ⟨a', rfl, -⟩
        · rw [(List.cons.inj hb).2]
        · exact absurd (List.mem_cons_self ..) hsep
    · rw [if_neg hc]
      constructor
      · intro h
        obtain ⟨⟨a', b'⟩, hcut, he⟩ := Option.map_eq_some_iff.mp h
        cases he
        obtain ⟨ha, rfl⟩ := ih.mp hcut
        refine ⟨?_, rfl⟩
        rw [List.mem_cons, not_or]
        exact ⟨Ne.symm hc, ha⟩
      · rintro ⟨hsep, h⟩
        rcases List.cons_eq_append_iff.mp h with ⟨rfl, hb⟩ | ⟨a', rfl, ht⟩
        · exact absurd (List.cons.inj hb).1.symm hc
        · rw [ih.mpr ⟨fun hmem => hsep (List.mem_cons_of_mem _ hmem), ht⟩]
          rfl

/-! ## Pieces -/

/-- The pieces of a text are the split of the list of its code points. -/
theorem pieces_eq_splitOn (sep : CodePoint) (t : Text) : pieces sep t = t.splitOn sep := by
  induction t with
  | nil => rfl
  | cons c t ih =>
    rw [pieces_cons, List.splitOn_cons_eq_if_modifyHead, ih]
    unfold putPiece
    simp only [beq_iff_eq]
    split
    · rfl
    · cases h : t.splitOn sep with
      | nil => exact absurd h (List.splitOn_ne_nil sep t)
      | cons piece rest => rfl

theorem pieces_ne_nil (sep : CodePoint) (t : Text) : pieces sep t ≠ [] := by
  rw [pieces_eq_splitOn]
  exact List.splitOn_ne_nil sep t

/-- A separator in front begins a new piece. -/
theorem pieces_sep_cons (sep : CodePoint) (t : Text) : pieces sep (sep :: t) = [] :: pieces sep t := by
  rw [pieces_cons]
  exact if_pos rfl

/-- Any other code point in front belongs to the first piece. -/
theorem pieces_cons_of_ne {sep c : CodePoint} {t first : Text} {rest : List Text} (hc : c ≠ sep)
    (h : pieces sep t = first :: rest) : pieces sep (c :: t) = (c :: first) :: rest := by
  rw [pieces_cons, h]
  exact if_neg hc

/-- No piece has the separator in it. -/
theorem not_mem_of_mem_pieces {sep : CodePoint} {t piece : Text} (h : piece ∈ pieces sep t) :
    sep ∉ piece := by
  induction t generalizing piece with
  | nil => simp_all
  | cons c t ih =>
    by_cases hc : c = sep
    · rw [hc, pieces_sep_cons] at h
      rcases List.mem_cons.mp h with rfl | h
      · exact List.not_mem_nil
      · exact ih h
    · obtain ⟨first, rest, hpieces⟩ := List.exists_cons_of_ne_nil (pieces_ne_nil sep t)
      rw [pieces_cons_of_ne hc hpieces] at h
      rcases List.mem_cons.mp h with rfl | h
      · have hfirst : sep ∉ first := ih (hpieces ▸ List.mem_cons_self ..)
        simpa [hfirst] using Ne.symm hc
      · exact ih (hpieces ▸ List.mem_cons_of_mem _ h)

/-- The pieces put together again are the text. -/
theorem join_pieces (sep : CodePoint) (t : Text) : join [sep] (pieces sep t) = t := by
  rw [pieces_eq_splitOn, join]
  exact List.intercalate_splitOn sep

/-- Pieces without the separator are found again in the text that they make up. -/
theorem pieces_join {sep : CodePoint} {ps : List Text} (h : ∀ p ∈ ps, sep ∉ p) (hne : ps ≠ []) :
    pieces sep (join [sep] ps) = ps := by
  rw [pieces_eq_splitOn, join]
  exact List.splitOn_intercalate sep h hne

/-- A text without the separator is its only piece. -/
theorem pieces_of_not_mem {sep : CodePoint} {t : Text} (h : sep ∉ t) : pieces sep t = [t] := by
  rw [pieces_eq_splitOn]
  exact List.splitOn_eq_singleton h

theorem mem_join {sep : Text} {ps : List Text} {c : CodePoint} (h : c ∈ join sep ps) :
    c ∈ sep ∨ ∃ p ∈ ps, c ∈ p := by
  induction ps with
  | nil => exact absurd h List.not_mem_nil
  | cons p ps ih =>
    cases ps with
    | nil =>
      rw [join, List.intercalate_singleton] at h
      exact .inr ⟨p, List.mem_cons_self .., h⟩
    | cons q qs =>
      rw [join, List.intercalate_cons_cons, List.mem_append, List.mem_append] at h
      rcases h with (h | h) | h
      · exact .inr ⟨p, List.mem_cons_self .., h⟩
      · exact .inl h
      · obtain h | ⟨r, hr, hc⟩ := ih h
        · exact .inl h
        · exact .inr ⟨r, List.mem_cons_of_mem _ hr, hc⟩

theorem mem_join_of_mem {sep : Text} {ps : List Text} {p : Text} {c : CodePoint} (hp : p ∈ ps)
    (hc : c ∈ p) : c ∈ join sep ps := by
  induction ps with
  | nil => exact absurd hp List.not_mem_nil
  | cons q ps ih =>
    cases ps with
    | nil =>
      rw [join, List.intercalate_singleton]
      exact List.mem_singleton.mp hp ▸ hc
    | cons r rs =>
      rw [join, List.intercalate_cons_cons]
      rcases List.mem_cons.mp hp with rfl | hp
      · exact List.mem_append_left _ (List.mem_append_left _ hc)
      · exact List.mem_append_right _ (ih hp)

/-- One more piece stands behind a separator. -/
theorem join_concat {sep : CodePoint} {ps : List Text} (h : ps ≠ []) (p : Text) :
    join [sep] (ps ++ [p]) = join [sep] ps ++ sep :: p := by
  induction ps with
  | nil => exact absurd rfl h
  | cons q ps ih =>
    cases ps with
    | nil =>
      rw [List.singleton_append, join, join, List.intercalate_cons_cons,
        List.intercalate_singleton, List.intercalate_singleton, List.append_assoc,
        List.singleton_append]
    | cons r rs =>
      have hrest := ih (List.cons_ne_nil _ _)
      unfold join at hrest ⊢
      rw [List.cons_append, List.cons_append, List.intercalate_cons_cons, ← List.cons_append,
        hrest, List.intercalate_cons_cons, List.append_assoc _ _ (sep :: p)]

theorem join_cons {sep : Text} {ps : List Text} (h : ps ≠ []) (p : Text) :
    join sep (p :: ps) = p ++ sep ++ join sep ps := by
  cases ps with
  | nil => exact absurd rfl h
  | cons q qs => rw [join, List.intercalate_cons_cons, join]

theorem splitOnText_go_ne_nil (sep : Text) (fuel : Nat) (seen t : Text) : splitOnText.go sep fuel seen t ≠ [] := by
  induction fuel, seen, t using splitOnText.go.induct sep with
  | case1 | case2 => exact List.cons_ne_nil _ _
  | case3 fuel seen c t rest h =>
    rw [splitOnText.go, h]
    exact List.cons_ne_nil _ _
  | case4 fuel seen c t h ih =>
    rw [splitOnText.go, h]
    exact ih

theorem splitOnText_ne_nil (sep t : Text) : splitOnText sep t ≠ [] := splitOnText_go_ne_nil sep _ _ _

/-- What stands between the occurrences of a text, with the text between it, is the whole. -/
theorem join_splitOnText (sep t : Text) : join sep (splitOnText sep t) = t := by
  -- What has been seen stands in front of what is still to be searched, however far the search goes.
  have hgo : ∀ fuel seen t, join sep (splitOnText.go sep fuel seen t) = seen.reverse ++ t := by
    intro fuel seen t
    induction fuel, seen, t using splitOnText.go.induct sep with
    | case1 seen t => exact List.intercalate_singleton
    | case2 fuel seen =>
      rw [List.append_nil]
      exact List.intercalate_singleton
    | case3 fuel seen c t rest h ih =>
      rw [splitOnText.go, h, eq_append_of_dropLead? h]
      dsimp only
      rw [join_cons (splitOnText_go_ne_nil _ _ _ _), ih, List.append_assoc]
      rfl
    | case4 fuel seen c t h ih =>
      rw [splitOnText.go, h]
      dsimp only
      rw [ih, List.reverse_cons, List.append_assoc]
      rfl
  exact hgo t.length [] t

theorem mem_of_mem_pieces {sep c : CodePoint} {t piece : Text} (h : piece ∈ pieces sep t)
    (hc : c ∈ piece) : c ∈ t := by
  rw [← join_pieces sep t]
  exact mem_join_of_mem h hc

theorem pieces_append_cons {sep : CodePoint} {a : Text} (h : sep ∉ a) (t : Text) :
    pieces sep (a ++ sep :: t) = a :: pieces sep t := by
  rw [pieces_eq_splitOn, pieces_eq_splitOn]
  exact List.splitOn_append_cons_self_of_not_mem h t

/-- A separator stands between the pieces of what is before it and of what is behind it. -/
theorem pieces_append (sep : CodePoint) (s t : Text) :
    pieces sep (s ++ sep :: t) = pieces sep s ++ pieces sep t := by
  rw [pieces_eq_splitOn, pieces_eq_splitOn, pieces_eq_splitOn]
  exact List.splitOn_append_cons_self s t

/-- Two lists that the pieces fall into are the pieces around a separator. -/
theorem exists_of_pieces_eq_append {sep : CodePoint} {t : Text} {ps qs : List Text}
    (h : pieces sep t = ps ++ qs) (hp : ps ≠ []) (hq : qs ≠ []) :
    ∃ u v, t = u ++ sep :: v ∧ pieces sep u = ps ∧ pieces sep v = qs := by
  have hps : pieces sep (join [sep] ps) = ps := by
    refine pieces_join (fun p hmem => not_mem_of_mem_pieces (t := t) ?_) hp
    rw [h]
    exact List.mem_append_left _ hmem
  have hqs : pieces sep (join [sep] qs) = qs := by
    refine pieces_join (fun p hmem => not_mem_of_mem_pieces (t := t) ?_) hq
    rw [h]
    exact List.mem_append_right _ hmem
  refine ⟨join [sep] ps, join [sep] qs, ?_, hps, hqs⟩
  -- Both texts have the same pieces, and pieces make up one text only.
  have hpieces := pieces_append sep (join [sep] ps) (join [sep] qs)
  rw [hps, hqs, ← h] at hpieces
  rw [← join_pieces sep t, ← hpieces, join_pieces]

/-- The first piece is empty if the text is, or if it begins with the separator. -/
theorem pieces_eq_nil_cons_iff {sep : CodePoint} {t : Text} {ps : List Text} :
    pieces sep t = [] :: ps ↔ (t = [] ∧ ps = []) ∨ ∃ u, t = sep :: u ∧ pieces sep u = ps := by
  cases t with
  | nil =>
    rw [pieces_nil]
    constructor
    · intro h
      exact .inl ⟨rfl, (List.cons.inj h).2.symm⟩
    · rintro (⟨-, rfl⟩ | ⟨u, h, -⟩)
      · rfl
      · cases h
  | cons c t =>
    constructor
    · intro h
      by_cases hc : c = sep
      · subst hc
        rw [pieces_sep_cons] at h
        exact .inr ⟨t, rfl, (List.cons.inj h).2⟩
      · obtain ⟨first, rest, hpieces⟩ := List.exists_cons_of_ne_nil (pieces_ne_nil sep t)
        rw [pieces_cons_of_ne hc hpieces] at h
        cases h
    · rintro (⟨h, -⟩ | ⟨u, h, rfl⟩)
      · cases h
      · rw [h, pieces_sep_cons]

/-- The text begins with its first piece, behind which comes the end or a separator. -/
theorem pieces_eq_cons_iff {sep : CodePoint} {t p : Text} {ps : List Text} :
    pieces sep t = p :: ps ↔ sep ∉ p ∧ ∃ u, t = p ++ u ∧ pieces sep u = [] :: ps := by
  constructor
  · intro h
    have hp : sep ∉ p := not_mem_of_mem_pieces (h ▸ List.mem_cons_self ..)
    have hsingle : ∀ u, pieces sep u = [p] → u = p := by
      intro u hu
      rw [← join_pieces sep u, hu, join, List.intercalate_singleton]
    refine ⟨hp, ?_⟩
    cases ps with
    | nil => exact ⟨[], by rw [hsingle t h, List.append_nil], rfl⟩
    | cons q qs =>
      rw [← List.singleton_append] at h
      obtain ⟨u, v, rfl, hu, hv⟩ :=
        exists_of_pieces_eq_append h (List.cons_ne_nil _ _) (List.cons_ne_nil _ _)
      refine ⟨sep :: v, by rw [hsingle u hu], ?_⟩
      rw [pieces_sep_cons, hv]
  · rintro ⟨hp, u, rfl, hu⟩
    rcases pieces_eq_nil_cons_iff.mp hu with ⟨rfl, rfl⟩ | ⟨v, rfl, rfl⟩
    · rw [List.append_nil]
      exact pieces_of_not_mem hp
    · exact pieces_append_cons hp v

/-! ## Fields -/

/-- The parts between separators, empty ones included, are a split of the library. -/
theorem fields_go_eq_splitOnP (sep : CodePoint → Bool) (t : Text) :
    fields.go sep t = t.splitOnP sep := by
  induction t with
  | nil => rfl
  | cons c t ih =>
    rw [fields.go, List.splitOnP_cons_eq_if_modifyHead, ih]
    split
    · rfl
    · cases h : t.splitOnP sep with
      | nil => exact absurd h (List.splitOnP_ne_nil sep t)
      | cons piece rest => rfl

/-- Words that are joined with a separator are the fields of the result. -/
theorem fields_join {sep : CodePoint → Bool} {c : CodePoint} (hc : sep c = true) {ws : List Text}
    (hws : ∀ w ∈ ws, w ≠ [] ∧ ∀ d ∈ w, sep d = false) : fields sep (join [c] ws) = ws := by
  have hne : ∀ w ∈ ws, (!w.isEmpty) = true := by
    intro w hw
    simpa using (hws w hw).1
  unfold fields
  rw [fields_go_eq_splitOnP, join]
  cases ws with
  | nil => rfl
  | cons w ws =>
    -- The split is exact, so there are no empty parts to be dropped.
    suffices hsplit : ([c].intercalate (w :: ws)).splitOnP sep = w :: ws by
      rw [hsplit]
      exact List.filter_eq_self.mpr hne
    clear hne
    induction ws generalizing w with
    | nil =>
      rw [List.intercalate_singleton]
      exact List.splitOnP_eq_singleton (hws w (List.mem_cons_self ..)).2
    | cons v ws ih =>
      have hw := (hws w (List.mem_cons_self ..)).2
      rw [List.intercalate_cons_cons, List.append_assoc, List.singleton_append,
        List.splitOnP_append_cons_of_forall_mem hw c hc,
        ih v fun u hu => hws u (List.mem_cons_of_mem _ hu)]

/-! ## Blanks -/

/-- No blank is at either end. -/
def Trimmed (t : Text) : Prop :=
  (∀ c ∈ t.head?, c.isBlank = false) ∧ ∀ c ∈ t.getLast?, c.isBlank = false

theorem hasBlank_eq_false_iff {t : Text} : t.hasBlank = false ↔ ∀ c ∈ t, c.isBlank = false := by
  simp [hasBlank]

/-- Words without blanks that are joined without blanks have none. -/
theorem hasBlank_join {sep : Text} {ws : List Text} (hsep : sep.hasBlank = false)
    (hws : ∀ w ∈ ws, w.hasBlank = false) : (join sep ws).hasBlank = false := by
  rw [hasBlank_eq_false_iff]
  intro c hc
  obtain hc | ⟨w, hw, hc⟩ := mem_join hc
  · exact hasBlank_eq_false_iff.mp hsep c hc
  · exact hasBlank_eq_false_iff.mp (hws w hw) c hc

theorem trimmed_of_hasBlank_eq_false {t : Text} (h : t.hasBlank = false) : t.Trimmed := by
  rw [hasBlank_eq_false_iff] at h
  exact ⟨fun c hc => h c (List.mem_of_mem_head? hc), fun c hc => h c (List.mem_of_mem_getLast? hc)⟩

/-- Two texts with the right ends in front and behind make a trimmed one, whatever is
    between them. -/
theorem Trimmed.append {s t : Text} (u : Text) (hs : s.Trimmed) (ht : t.Trimmed) (hsne : s ≠ [])
    (htne : t ≠ []) : (s ++ (u ++ t)).Trimmed := by
  obtain ⟨c, s, rfl⟩ := List.exists_cons_of_ne_nil hsne
  refine ⟨hs.1, ?_⟩
  rw [← List.append_assoc, List.getLast?_append, Option.or_of_isSome (by simpa using htne)]
  exact ht.2

/-- Nothing is dropped from the left of a text that begins without a blank. -/
theorem stripLeft_of_head {t : Text} (h : ∀ c ∈ t.head?, c.isBlank = false) : t.stripLeft = t := by
  cases t with
  | nil => rfl
  | cons c t =>
    have hc : ¬ c.isBlank = true := by simp [h c rfl]
    exact List.dropWhile_cons_of_neg hc

theorem Trimmed.stripLeft {t : Text} (h : t.Trimmed) : t.stripLeft = t := stripLeft_of_head h.1

theorem Trimmed.strip {t : Text} (h : t.Trimmed) : t.strip = t := by
  have hlast : ∀ c ∈ t.reverse.head?, c.isBlank = false := by
    rw [List.head?_reverse]
    exact h.2
  have hrev : t.reverse.dropWhile CodePoint.isBlank = t.reverse := stripLeft_of_head hlast
  rw [Text.strip, h.stripLeft, dropRightWhile, hrev, List.reverse_reverse]

/-- Blanks in front of a trimmed text are stripped. -/
theorem stripLeft_append {b t : Text} (hb : ∀ c ∈ b, c.isBlank = true) (ht : t.Trimmed) :
    (b ++ t).stripLeft = t := by
  rw [Text.stripLeft, List.dropWhile_append_of_pos hb]
  exact ht.stripLeft

theorem strip_append {b t : Text} (hb : ∀ c ∈ b, c.isBlank = true) (ht : t.Trimmed) :
    (b ++ t).strip = t := by
  have hsame := ht.strip
  rw [Text.strip, ht.stripLeft] at hsame
  rw [Text.strip, stripLeft_append hb ht, hsame]

/-- A word ends at the first blank after it. -/
theorem takeWhile_word {w t : Text} (hw : w.hasBlank = false)
    (ht : ∀ c ∈ t.head?, c.isBlank = true) :
    (w ++ t).takeWhile (!CodePoint.isBlank ·) = w ∧
      (w ++ t).dropWhile (!CodePoint.isBlank ·) = t := by
  have hpos : ∀ c ∈ w, (!c.isBlank) = true := by
    intro c hc
    simp [hasBlank_eq_false_iff.mp hw c hc]
  rw [List.takeWhile_append_of_pos hpos, List.dropWhile_append_of_pos hpos]
  cases t with
  | nil => simp
  | cons c t => simp [ht c rfl]

end NoteAccess.Text
