/-
  NoteAccess.Proofs.Glob.Language

  The texts that the regular expression of a glob takes are those that its parts take: part by part
  (`takes_nodes?`), then for the parts of an alternative (`takes_nodes`) and for the choice between
  the alternatives (`fullMatch_wholeSource`).  The expression compiles if all parts are in order
  (`isSome_compile?_iff`).
-/

import NoteAccess.Proofs.Glob.Class
import NoteAccess.Proofs.Glob.Expression
import NoteAccess.Proofs.Regex.Language

namespace NoteAccess.Glob

open Regex

/-! ## Leaves -/

theorem accepts_char (c : CodePoint) : (Atom.step globFlags (.char c)).Accepts (· = c) :=
  (accepts_one _).congr fun d => by rw [contains_ofChar rfl, Bool.bne_false, beq_iff_eq]

theorem accepts_notChar (c : CodePoint) : (Atom.step globFlags (.notChar c)).Accepts (· ≠ c) :=
  (accepts_one _).congr fun d => by rw [contains_ofChar rfl, Bool.bne_true, Bool.not_eq_true', beq_eq_false_iff_ne]

/-- What members are read as takes what one of them holds, or what none of them holds. -/
theorem accepts_setAtom (negated : Bool) (items : List SetItem) :
    (Atom.step globFlags (Reader.setAtom negated items)).Accepts
      fun c => (items.any (·.holds globFlags c) != negated) = true := by
  have hdistinct : ∀ c, items.any (·.holds globFlags c) = items.eraseDups.any (·.holds globFlags c) := by
    intro c
    rw [Bool.eq_iff_iff, List.any_eq_true, List.any_eq_true]
    simp only [List.mem_eraseDups]
  simp only [hdistinct]
  unfold Reader.setAtom
  split
  · next c hsingle =>
    have hholds : ∀ d, [SetItem.single c].any (·.holds globFlags d) = (d == c) := by simp [holds_single]
    simp only [hsingle, hholds]
    cases negated with
    | false => exact (accepts_char c).congr fun d => by rw [Bool.bne_false, beq_iff_eq]
    | true => exact (accepts_notChar c).congr fun d => by rw [Bool.bne_true, Bool.not_eq_true', beq_eq_false_iff_ne]
  · exact (accepts_one _).congr fun d => by rw [contains_ofItems rfl]

/-! ## Classes -/

/-- The members of a class hold what its ranges hold. -/
theorem inRanges_classRanges? (body : Text) (d : CodePoint) :
    (classRanges? body).map (inRanges · d) = (classItems? body).map (·.any (·.holds globFlags d)) := by
  have hnil : inRanges [] d = false := rfl
  fun_induction classItems? body with
  | case1 => rfl
  | case2 c => simp [classRanges?, inRanges_point, hnil, holds_single]
  | case3 c e => simp [classRanges?, inRanges_point, hnil, holds_single]
  | case4 c e rest hlt =>
    rw [classRanges?_range, if_pos hlt]
    rfl
  | case5 c e rest hge ih =>
    have hrange : ∀ ranges, inRanges ((c, e) :: ranges) d = ((decide (c ≤ d) && decide (d ≤ e)) || inRanges ranges d) :=
      fun _ => rfl
    have hbehind := congrArg (Option.map ((decide (c ≤ d) && decide (d ≤ e)) || ·)) ih
    rw [classRanges?_range, if_neg hge]
    simpa [Function.comp_def, hrange, holds_range] using hbehind
  | case6 c e f rest he ih =>
    have hbehind := congrArg (Option.map ((d == c) || ·)) ih
    rw [classRanges?, if_neg he]
    simpa [Function.comp_def, inRanges_point, holds_single] using hbehind

theorem isSome_classItems? (body : Text) : (classItems? body).isSome = (classRanges? body).isSome := by
  have h := congrArg Option.isSome (inRanges_classRanges? body 0)
  rwa [Option.isSome_map, Option.isSome_map, eq_comm] at h

theorem inClass_eq {body : Text} {items : List SetItem} (h : classItems? body = some items) (d : CodePoint) :
    inClass body d = items.any (·.holds globFlags d) := by
  have hmap := inRanges_classRanges? body d
  rw [h, Option.map_some, Option.map_eq_some_iff] at hmap
  obtain ⟨ranges, hranges, hsame⟩ := hmap
  unfold inClass
  rw [hranges]
  exact hsame

/-! ## Parts -/

theorem isSome_nodes? (f : Fragment) : f.nodes?.isSome = f.isValid := by
  cases f with
  | oneOf body => rw [Fragment.nodes?, Option.isSome_map, isSome_classItems?, Fragment.isValid]
  | noneOf body => rw [Fragment.nodes?, Option.isSome_map, isSome_classItems?, Fragment.isValid]
  | _ => rfl

/-- A leaf in the place of a part that takes single code points. -/
theorem takes_single {x : Step} {p : CodePoint → Prop} (h : x.Accepts p) {L : Text → Prop}
    (hL : ∀ u, L u ↔ ∃ c, u = [c] ∧ p c) : (Node.leaf x).Takes L :=
  (takes_leaf h).congr fun u => (hL u).symm

/-- The trees of a part take what the part takes. -/
theorem takes_nodes? {f : Fragment} {ns : List (Node Atom)} (h : f.nodes? = some ns) :
    ((Node.ofList ns).map (Atom.step globFlags)).Takes f.Takes := by
  have hanything : (Node.loop .greedy 0 none (.leaf (Atom.step globFlags .any))).Takes fun _ => True :=
    (takes_star accepts_any).congr fun u => iff_of_true (fun _ _ => trivial) trivial
  have hslash : (Node.leaf (Atom.step globFlags (.char CodePoint.slash))).Takes (· = [CodePoint.slash]) :=
    takes_single (accepts_char _) (by simp)
  cases f with
  | literal c =>
    cases h
    exact takes_single (accepts_char c) fun u => by simp [Fragment.Takes]
  | separator =>
    cases h
    exact hslash
  | one =>
    cases h
    exact takes_single (accepts_notChar _) fun u => Iff.rfl
  | noneOf body =>
    obtain ⟨items, hitems, rfl⟩ := Option.map_eq_some_iff.mp h
    refine takes_single (accepts_setAtom true items) fun u => exists_congr fun c => and_congr_right fun _ => ?_
    rw [inClass_eq hitems, Bool.bne_true, Bool.not_eq_true']
  | oneOf body =>
    obtain ⟨items, hitems, rfl⟩ := Option.map_eq_some_iff.mp h
    refine (takes_notAhead (accepts_char _) (accepts_setAtom false items)).congr fun u => exists_congr fun c => ?_
    rw [inClass_eq hitems, Bool.bne_false]
  | run =>
    cases h
    exact (takes_star (accepts_notChar _)).congr fun u =>
      ⟨fun hu hmem => hu _ hmem rfl, fun hu c hc he => hu (he ▸ hc)⟩
  | anything =>
    cases h
    exact hanything
  | folders =>
    cases h
    refine (takes_optional (takes_seq hanything hslash)).congr fun u => or_congr_right ?_
    simp [Concat]
  | below =>
    cases h
    refine (takes_optional (takes_seq hslash hanything)).congr fun u => or_congr_right ?_
    simp [Concat]

theorem isSome_nodes (fs : List Fragment) : (nodes? fs).isSome = fs.all Fragment.isValid := by
  induction fs with
  | nil => rfl
  | cons f fs ih =>
    rw [nodes?, List.all_cons, ← isSome_nodes? f, ← ih]
    cases f.nodes? with
    | none => rfl
    | some ns => rw [Option.bind_some, Option.isSome_map, Option.isSome_some, Bool.true_and]

theorem isFlat_nodes? {f : Fragment} {ns : List (Node Atom)} (h : f.nodes? = some ns) : ∀ n ∈ ns, n.IsFlat := by
  cases f with
  | oneOf body =>
    obtain ⟨items, -, rfl⟩ := Option.map_eq_some_iff.mp h
    simp [Node.IsFlat]
  | noneOf body =>
    obtain ⟨items, -, rfl⟩ := Option.map_eq_some_iff.mp h
    simp [Node.IsFlat]
  | _ =>
    cases h
    simp [Node.IsFlat]

theorem isFlat_nodes {fs : List Fragment} {ns : List (Node Atom)} (h : nodes? fs = some ns) : ∀ n ∈ ns, n.IsFlat := by
  induction fs generalizing ns with
  | nil =>
    cases h
    exact fun n hn => absurd hn List.not_mem_nil
  | cons f fs ih =>
    obtain ⟨ms, hms, hrest⟩ := Option.bind_eq_some_iff.mp h
    obtain ⟨ls, hls, rfl⟩ := Option.map_eq_some_iff.mp hrest
    exact List.forall_mem_append.mpr ⟨isFlat_nodes? hms, ih hls⟩

/-- The trees of parts take what the parts take one after the other. -/
theorem takes_nodes {fs : List Fragment} {ns : List (Node Atom)} (h : nodes? fs = some ns) :
    ((Node.ofList ns).map (Atom.step globFlags)).Takes (TakesAll fs) := by
  induction fs generalizing ns with
  | nil =>
    cases h
    exact takes_empty
  | cons f fs ih =>
    obtain ⟨ms, hms, hrest⟩ := Option.bind_eq_some_iff.mp h
    obtain ⟨ls, hls, rfl⟩ := Option.map_eq_some_iff.mp hrest
    have hfirst := takes_nodes? hms
    have hlater := ih hls
    rw [Node.map_ofList] at hfirst hlater ⊢
    rw [List.map_append]
    exact takes_ofList_append hfirst hlater

/-! ## Whole globs -/

/-- A choice between alternatives takes what one of them takes. -/
theorem takes_alternation {found : List (List (Node Atom))} (hne : found ≠ []) {L : List (Node Atom) → Text → Prop}
    (h : ∀ b ∈ found, ((Node.ofList b).map (Atom.step globFlags)).Takes (L b)) :
    ((Node.ofList (Reader.alternation found)).map (Atom.step globFlags)).Takes fun u => ∃ b ∈ found, L b u := by
  unfold Reader.alternation
  split
  · next only => exact (h only (List.mem_singleton_self only)).congr fun u => by simp
  · exact takes_choice rfl hne _ h

theorem isFlat_alternation {found : List (List (Node Atom))} (h : ∀ b ∈ found, ∀ n ∈ b, n.IsFlat) :
    ∀ n ∈ Reader.alternation found, n.IsFlat := by
  unfold Reader.alternation
  split
  · exact h _ (List.mem_singleton_self _)
  · exact isFlat_choice h _

/-- The expression of a glob is compiled to a choice between the trees of its alternatives, if
    these are all in order. -/
theorem compile_wholeSource (pattern : Text) :
    (Regex.compile { dotAll := true } (wholeSource pattern)).toOption =
      ((branches pattern).mapM nodes?).map fun found =>
        { tree := (Node.ofList (Reader.alternation found)).map (Atom.step globFlags), groups := 1 } := by
  rw [toOption_compile, read_wholeSource, Option.bind_map, Option.map_eq_bind]
  refine Option.bind_congr fun found hfound => ?_
  have hflat : (Node.ofList (Reader.alternation found)).IsFlat := by
    refine Node.isFlat_ofList.mpr (isFlat_alternation fun b hb => ?_)
    obtain ⟨fs, -, hfs⟩ := (mem_of_mapM hfound).mp hb
    exact isFlat_nodes hfs
  have hsettled : (Node.ofList (Reader.alternation found)).settle globFlags =
      .ok ((Node.ofList (Reader.alternation found)).map (Atom.step globFlags)) := settle_eq_map rfl hflat
  exact congrArg (fun settled => settled.toOption.map fun tree => ({ tree, groups := 1 } : Regex.Program)) hsettled

theorem isSome_mapM_nodes (bs : List (List Fragment)) :
    (bs.mapM nodes?).isSome = bs.all (·.all Fragment.isValid) := by
  induction bs with
  | nil => rfl
  | cons fs bs ih =>
    rw [List.mapM_cons, List.all_cons, ← isSome_nodes fs, ← ih]
    cases nodes? fs with
    | none => rfl
    | some ns => cases bs.mapM nodes? <;> rfl

/-- A glob is in order if its expression compiles. -/
theorem isSome_compile?_iff (pattern : Text) :
    (compile? pattern).isSome = true ↔ ∃ e, Regex.compile { dotAll := true } (wholeSource pattern) = .ok e := by
  have hexpression := congrArg Option.isSome (compile_wholeSource pattern)
  rw [Option.isSome_map, isSome_mapM_nodes, ← isSome_compile?_eq] at hexpression
  rw [← hexpression]
  cases Regex.compile { dotAll := true } (wholeSource pattern) with
  | error f => exact iff_of_false Bool.false_ne_true nofun
  | ok e => exact iff_of_true rfl ⟨e, rfl⟩

/-- The expression of a glob matches the whole of a text if the glob matches it. -/
theorem fullMatch_wholeSource {pattern : Text} {e : Regex.Program} {q : Program}
    (he : Regex.compile { dotAll := true } (wholeSource pattern) = .ok e) (hq : compile? pattern = some q) (t : Text) :
    e.fullMatch t = q.matches t := by
  have hcompile := compile_wholeSource pattern
  rw [he] at hcompile
  obtain ⟨found, hfound, rfl⟩ := Option.map_eq_some_iff.mp hcompile.symm
  have hne : found ≠ [] := by
    obtain ⟨fs, hfs⟩ := List.exists_mem_of_ne_nil _ (branches_ne_nil pattern)
    obtain ⟨b, hb⟩ := exists_of_mapM hfound fs hfs
    exact List.ne_nil_of_mem ((mem_of_mapM hfound).mpr ⟨fs, hfs, hb⟩)
  -- Alternatives with the same trees take the same texts.
  have hbranch : ∀ b ∈ found, ((Node.ofList b).map (Atom.step globFlags)).Takes
      fun u => ∃ fs ∈ branches pattern, nodes? fs = some b ∧ TakesAll fs u := by
    intro b hb
    obtain ⟨fs, hfs, hnodes⟩ := (mem_of_mapM hfound).mp hb
    refine (takes_nodes hnodes).congr fun u => ⟨fun hu => ⟨fs, hfs, hnodes, hu⟩, ?_⟩
    rintro ⟨gs, -, hsame, hu⟩
    exact ((takes_nodes hsame).unique (takes_nodes hnodes) u).mp hu
  have hq' : q = ⟨branches pattern⟩ := (Option.some.inj (Option.ite_none_right_eq_some.mp hq).2).symm
  rw [Bool.eq_iff_iff, fullMatch_iff (takes_alternation hne hbranch), hq', Program.matches, List.any_eq_true]
  simp only [matchAll_iff]
  constructor
  · rintro ⟨b, -, fs, hfs, -, hu⟩
    exact ⟨fs, hfs, hu⟩
  · rintro ⟨fs, hfs, hu⟩
    obtain ⟨b, hb⟩ := exists_of_mapM hfound fs hfs
    exact ⟨b, (mem_of_mapM hfound).mpr ⟨fs, hfs, hb⟩, fs, hfs, hb, hu⟩

end NoteAccess.Glob
