/-
  NoteAccess.Proofs.Policy.Lookups

  Which lookups an evaluation makes.  A run's `lookups` are those of its trace, in
  order; rules that are tried leave none (`lookups_opinion`), so each stage adds
  the lookup that it begins with, and passes on those of the next stage exactly if
  it leaves the decision to it (`lookups_orElse_bind`).

  Behind the guards (`Admits`) the tags are looked up if `WantsTags`, and after
  them the content if `WantsContent` (`lookups_tagFirst`), and nothing else is.
-/

import NoteAccess.Proofs.Policy.Stages
import NoteAccess.Proofs.VaultPath

namespace NoteAccess

/-! ## Lookups in a trace -/

/-- The event asks a source about a path. -/
def Event.isLookup : Event → Bool
  | .tags _ | .content _ => true
  | _ => false

namespace Run

variable {ε α β : Type}

/-- The lookups of a run, in order. -/
def lookups (x : Run ε α) : List Event := x.events.filter Event.isLookup

@[simp] theorem lookups_pure (a : α) : (pure a : Run ε α).lookups = [] := rfl

theorem lookups_bind_of_ok {x : Run ε α} {f : α → Run ε β} {a : α} (h : x.result = .ok a) :
    (x >>= f).lookups = x.lookups ++ (f a).lookups := by
  simp only [lookups, bind, h, List.filter_append]

/-- What follows a failure makes no lookups. -/
theorem lookups_bind_of_error {x : Run ε α} {f : α → Run ε β} {e : ε} (h : x.result = .error e) :
    (x >>= f).lookups = x.lookups := by
  simp only [lookups, bind, h]

end Run

namespace Sources

variable {ε : Type}

/-- A source of tags is asked once, whatever it answers. -/
theorem lookups_lookupTags {s : Sources} {tags : Text → Except Incident TagLookup}
    (hs : s.tags = some tags) (path : Text) :
    (s.lookupTags path : Run ε TagLookup).lookups = [.tags path] := by
  unfold lookupTags
  rw [hs]
  dsimp only
  rw [Run.lookups_bind_of_ok (Run.result_emit _)]
  cases tags path <;> rfl

theorem lookups_lookupContent {s : Sources} {content : Text → Except Incident ContentLookup}
    (hs : s.content = some content) (path : Text) :
    (s.lookupContent path : Run ε ContentLookup).lookups = [.content path] := by
  unfold lookupContent
  rw [hs]
  dsimp only
  rw [Run.lookups_bind_of_ok (Run.result_emit _)]
  cases content path <;> rfl

end Sources

namespace Snapshot

open Matching

variable {s : Snapshot} {src : Sources} {m : Option Method} {path : Text}

/-! ## Stages that pass -/

/-- Trying the rules of a kind makes no lookup. -/
theorem lookups_opinion [Stack] {k : Kind} {rules : List Rule} : (opinion src path k rules).lookups = [] := by
  rw [Run.lookups, List.filter_eq_nil_iff]
  intro e he
  obtain ⟨p, rfl⟩ := mem_events_opinion he
  exact Bool.false_ne_true

/-- The rules of a kind have been tried, and they leave the decision to what follows: none
    of them decides, or the one that does is not about the method. -/
def Passes [Stack] (s : Snapshot) (src : Sources) (m : Option Method) (path : Text) (k : Kind) : Prop :=
  ∃ o, (opinion src path k (s.rules.ofKind k)).result = .ok o ∧
    ∀ d, o = some d → d.appliesTo m = false

theorem passes_of_isEmpty [Stack] {k : Kind} (h : (s.rules.ofKind k).isEmpty = true) :
    s.Passes src m path k := by
  rw [Passes, List.isEmpty_iff.mp h, opinion_nil]
  exact ⟨none, rfl, fun _ hd => nomatch hd⟩

open Classical in
/-- A kind in front of a run passes the lookups of the run on if it leaves the decision to
    it; else there are none. -/
theorem lookups_orElse_bind [Stack] (src : Sources) {k : Kind} {next : Run Fault Decision} :
    (opinion src path k (s.rules.ofKind k) >>= fun o => orElse o m next).lookups =
      if s.Passes src m path k then next.lookups else [] := by
  cases ho : (opinion src path k (s.rules.ofKind k)).result with
  | error f =>
    have hnot : ¬ s.Passes src m path k := by
      rintro ⟨o, ho', -⟩
      rw [ho] at ho'
      cases ho'
    rw [Run.lookups_bind_of_error ho, lookups_opinion, if_neg hnot]
  | ok o =>
    rw [Run.lookups_bind_of_ok ho, lookups_opinion, List.nil_append]
    have hpasses : s.Passes src m path k ↔ ∀ d, o = some d → d.appliesTo m = false := by
      constructor
      · rintro ⟨o', ho', h⟩
        rw [ho, Except.ok.injEq] at ho'
        exact ho' ▸ h
      · exact fun h => ⟨o, ho, h⟩
    cases o with
    | none => rw [if_pos (hpasses.mpr fun _ hd => nomatch hd), orElse]
    | some d =>
      cases hd : d.appliesTo m with
      | true =>
        rw [if_neg, orElse, if_pos hd, Run.lookups_pure]
        intro h
        rw [hpasses.mp h d rfl] at hd
        cases hd
      | false =>
        rw [if_pos, orElse, if_neg (Bool.eq_false_iff.mp hd)]
        rw [hpasses]
        rintro _ ⟨⟩
        exact hd

/-! ## Which lookups are wanted -/

/-- The stages need the tags: a global tag is set, or there are tag rules and neither folder
    nor name rules decide. -/
def WantsTags [Stack] (s : Snapshot) (src : Sources) (m : Option Method) (path : Text) : Prop :=
  s.hasGlobalTag = true ∨
    (s.rules.tag ≠ [] ∧ s.Passes src m path .folder ∧ s.Passes src m path .name)

/-- The stages need the content: there are keyword rules and nothing before them decides. -/
def WantsContent [Stack] (s : Snapshot) (src : Sources) (m : Option Method) (path : Text) : Prop :=
  s.rules.keyword ≠ [] ∧ byGlobalTags (src.tagAnswer path) s.allowTag s.denyTag = none ∧
    s.Passes src m path .folder ∧ s.Passes src m path .name ∧ s.Passes src m path .tag

/-! ## The lookups of the stages -/

section Stages

variable {tags : Text → Except Incident TagLookup} {content : Text → Except Incident ContentLookup}
  (ht : src.tags = some tags) (hc : src.content = some content)

include hc in
theorem lookups_keywordStage [Stack] :
    (s.keywordStage src m path).lookups = if s.rules.keyword = [] then [] else [.content path] := by
  unfold keywordStage
  by_cases hempty : s.rules.keyword = []
  · rw [if_pos hempty, if_pos (List.isEmpty_iff.mpr hempty), Run.lookups_pure]
  · -- The default policy behind the rules makes no lookup, whether or not it is asked.
    have hrest : (opinion src path .keyword s.rules.keyword >>= fun o =>
        orElse o m (pure (.byDefault s.defaultPolicy))).lookups = [] := by
      refine (lookups_orElse_bind src).trans ?_
      rw [Run.lookups_pure, ite_self]
    rw [if_neg hempty, if_neg (by simpa using hempty),
      Run.lookups_bind_of_ok (Sources.result_lookupContent src path), Sources.lookups_lookupContent hc]
    exact congrArg (.content path :: ·) hrest

open Classical in
include ht hc in
/-- Tags that are known already are not looked up again. -/
theorem lookups_tagStage [Stack] {known : Option TagLookup}
    (hknown : known = none ∨ known = some (src.tagAnswer path)) :
    (s.tagStage src m path known).lookups =
      (if s.rules.tag ≠ [] ∧ known = none then [.tags path] else []) ++
        if s.rules.keyword ≠ [] ∧ s.Passes src m path .tag then [.content path] else [] := by
  have hrest : (opinion src path .tag s.rules.tag >>= fun o =>
      orElse o m (s.keywordStage src m path)).lookups =
        if s.rules.keyword ≠ [] ∧ s.Passes src m path .tag then [.content path] else [] := by
    refine (lookups_orElse_bind src).trans ?_
    rw [lookups_keywordStage hc]
    by_cases hkeyword : s.rules.keyword = [] <;> simp [hkeyword]
  unfold tagStage
  by_cases hempty : s.rules.tag = []
  · have hpasses : s.Passes src m path .tag := passes_of_isEmpty (List.isEmpty_iff.mpr hempty)
    rw [if_pos (List.isEmpty_iff.mpr hempty), lookups_keywordStage hc]
    by_cases hkeyword : s.rules.keyword = [] <;> simp [hempty, hkeyword, hpasses]
  · rw [if_neg (by simpa using hempty)]
    rcases hknown with rfl | rfl
    · rw [Run.lookups_bind_of_ok (Sources.result_lookupTags src path), Sources.lookups_lookupTags ht,
        if_pos ⟨hempty, rfl⟩]
      exact congrArg (.tags path :: ·) hrest
    · rw [Run.lookups_bind_of_ok (Run.result_pure _), Run.lookups_pure, if_neg (by simp)]
      exact hrest

open Classical in
theorem lookups_ruleStages [Stack] {known : Option TagLookup} :
    (s.ruleStages src m path known).lookups =
      if s.Passes src m path .folder ∧ s.Passes src m path .name then
        (s.tagStage src m path known).lookups else [] := by
  refine (lookups_orElse_bind src (k := .folder)).trans ?_
  by_cases hfolder : s.Passes src m path .folder
  · rw [if_pos hfolder]
    refine (lookups_orElse_bind src (k := .name)).trans ?_
    simp only [hfolder, true_and]
  · rw [if_neg hfolder, if_neg fun h => hfolder h.1]

open Classical in
include ht hc in
/-- Behind the guards the tags are looked up if they are wanted, and then the content. -/
theorem lookups_tagFirst [Stack] :
    (s.tagFirst src m path).lookups =
      (if s.WantsTags src m path then [.tags path] else []) ++
        if s.WantsContent src m path then [.content path] else [] := by
  unfold tagFirst WantsTags WantsContent
  by_cases hset : s.hasGlobalTag = true
  · rw [if_pos hset, Run.lookups_bind_of_ok (Sources.result_lookupTags src path),
      Sources.lookups_lookupTags ht, if_pos (Or.inl hset)]
    congr 1
    cases hglobal : byGlobalTags (src.tagAnswer path) s.allowTag s.denyTag with
    | some d => simp
    | none =>
      dsimp only
      rw [lookups_ruleStages, lookups_tagStage ht hc (.inr rfl)]
      by_cases hfolder : s.Passes src m path .folder <;>
        by_cases hname : s.Passes src m path .name <;> simp [hfolder, hname]
  · have hglobal := byGlobalTags_of_unset hset (src.tagAnswer path)
    rw [if_neg hset, lookups_ruleStages, lookups_tagStage ht hc (.inl rfl)]
    by_cases hfolder : s.Passes src m path .folder <;>
      by_cases hname : s.Passes src m path .name <;> simp [hset, hglobal, hfolder, hname]

end Stages

theorem lookups_evaluate_eq [Stack] {request : Request} :
    (s.evaluate src request (.text path)).lookups = (s.decide src request path).lookups := by
  unfold evaluate
  cases hd : (s.decideValue src request (.text path)).result with
  | error f => exact Run.lookups_bind_of_error hd
  | ok d =>
    rw [Run.lookups_bind_of_ok hd]
    exact List.append_nil _

/-- An evaluation asks for tags at most once, and then at most once for content, and about
    the normal form of its path only, which is in order.  It asks for what the stages want,
    and only if the guards in front of them let the request through. -/
theorem lookups_evaluate [Stack] (s : Snapshot) (tags : Text → Except Incident TagLookup)
    (content : Text → Except Incident ContentLookup) (request : Request) (path : Text) :
    let src : Sources := ⟨some tags, some content⟩
    let normal := VaultPath.normalize path
    let lookups := (s.evaluate src request (.text path)).events.filter Event.isLookup
    lookups.Sublist [.tags normal, .content normal] ∧
      (lookups ≠ [] → normal.length ≤ 4096 ∧ 0 ∉ normal ∧
        (".." : Text) ∉ Text.pieces CodePoint.slash normal) ∧
      (.tags normal ∈ lookups ↔ ∃ m, s.Admits request normal m ∧ s.WantsTags src m normal) ∧
      (.content normal ∈ lookups ↔ ∃ m, s.Admits request normal m ∧ s.WantsContent src m normal) := by
  intro src normal lookups
  have hlookups : lookups = (s.decide src request path).lookups := lookups_evaluate_eq
  by_cases hadmits : ∃ m, s.Admits request normal m
  · obtain ⟨m, hm⟩ := hadmits
    -- A request names one method, so it is this one that the stages ask for.
    have hmethod : ∀ p : Option Method → Prop, (∃ m', s.Admits request normal m' ∧ p m') ↔ p m := by
      intro p
      constructor
      · rintro ⟨m', hm', hp⟩
        have hsame : m' = m := by simpa using hm'.method.symm.trans hm.method
        exact hsame ▸ hp
      · exact fun hp => ⟨m, hm, hp⟩
    have htags : src.tags = some tags := rfl
    rw [decide_of_admits hm, lookups_tagFirst htags rfl] at hlookups
    rw [hmethod, hmethod, hlookups]
    refine ⟨?_, fun _ => VaultPath.check_eq_ok_iff.mp hm.pathChecked, ?_⟩
    · by_cases ht : s.WantsTags src m normal <;>
        by_cases hc : s.WantsContent src m normal <;> simp [ht, hc, normal]
    · by_cases ht : s.WantsTags src m normal <;>
        by_cases hc : s.WantsContent src m normal <;> simp [ht, hc, normal]
  · have hnone : lookups = [] := by
      obtain ⟨d, hd⟩ := exists_decide_eq_pure src fun m hm => hadmits ⟨m, hm⟩
      rw [hlookups, hd, Run.lookups_pure]
    have hnot : ∀ p : Option Method → Prop, ¬ ∃ m, s.Admits request normal m ∧ p m :=
      fun p ⟨m, hm, _⟩ => hadmits ⟨m, hm⟩
    rw [hnone]
    refine ⟨List.nil_sublist _, fun h => absurd rfl h, ?_, ?_⟩
    · exact iff_of_false List.not_mem_nil (hnot _)
    · exact iff_of_false List.not_mem_nil (hnot _)

end Snapshot

end NoteAccess
