/-
  NoteAccess.Proofs.Policy.Justification

  Why an evaluation grants access.  `Snapshot.Grants` lists what holds of a
  request that is granted; the last of it is the ground of the decision, the
  global tag, the first matching rule of a kind, or the default policy.

  Each stage of an evaluation passes a grant on: it is either the ground itself,
  or its rules stand aside and what follows grants (`granting_opinion`).  A stage
  that finds its note unreadable refuses, so whatever was looked up on the way
  to a grant was answered.
-/

import NoteAccess.Proofs.Decision.FirstMatch

namespace NoteAccess.Snapshot

open Matching

variable {s : Snapshot} {src : Sources} {m : Option Method} {path : Text}

/-! ## Grounds -/

/-- The first matching rule of a kind, if there is one, does not speak about the method. -/
def StandsAside [Stack] (s : Snapshot) (src : Sources) (m : Option Method) (path : Text) (k : Kind) : Prop :=
  ∀ r, IsFirst (ruleMatches src path k) (s.rules.ofKind k) r → r.appliesTo m = false

/-- The rules of kinds, tried in order, or the default policy behind them allow. -/
inductive Ground [Stack] (s : Snapshot) (src : Sources) (m : Option Method) (path : Text)
    (kinds : List Kind) : Decision → Prop
  /-- The first matching rule of a kind allows, and the kinds before it stand aside. -/
  | rule {earlier later : List Kind} {k : Kind} {r : Rule}
      (order : kinds = earlier ++ k :: later)
      (aside : ∀ j ∈ earlier, s.StandsAside src m path j)
      (first : IsFirst (ruleMatches src path k) (s.rules.ofKind k) r)
      (applies : r.appliesTo m = true)
      (allows : r.mode = .allow) : Ground s src m path kinds (.rule k r)
  /-- All kinds stand aside, and the default policy allows. -/
  | byDefault (aside : ∀ k ∈ kinds, s.StandsAside src m path k)
      (allows : s.defaultPolicy = .allow) : Ground s src m path kinds (.byDefault .allow)

/-- A ground remains one behind a kind that stands aside. -/
theorem Ground.cons [Stack] {kinds : List Kind} {k : Kind} {d : Decision}
    (hk : s.StandsAside src m path k) (h : s.Ground src m path kinds d) :
    s.Ground src m path (k :: kinds) d := by
  cases h with
  | @rule earlier later _ _ order aside first applies allows =>
    have horder : k :: kinds = (k :: earlier) ++ _ :: later := congrArg (List.cons k) order
    refine .rule horder ?_ first applies allows
    intro j hj
    rcases List.mem_cons.mp hj with rfl | hj
    · exact hk
    · exact aside j hj
  | byDefault aside allows =>
    refine .byDefault ?_ allows
    intro j hj
    rcases List.mem_cons.mp hj with rfl | hj
    · exact hk
    · exact aside j hj

/-- What holds of a request about a path in normal form that a decision grants. -/
structure Grants [Stack] (s : Snapshot) (src : Sources) (m : Option Method) (path : Text) (d : Decision) :
    Prop where
  pathChecked : VaultPath.check path = .ok ()
  /-- Nothing is written while writing is off. -/
  mayWrite : s.readOnly = true → ∀ method, m = some method → method.isWrite = false
  /-- The tags that global tags are compared with could be read. -/
  tagsRead : s.hasGlobalTag = true → (src.tagAnswer path).IsRead
  notDenied : s.denyTag ≠ [] → ∀ tags, src.tagAnswer path = .found tags → s.denyTag ∉ tags
  ground : s.Ground src m path Kind.all d ∨
    (d = .globalTag .allow s.allowTag ∧ s.allowTag ≠ [] ∧
      ∃ tags, src.tagAnswer path = .found tags ∧ s.allowTag ∈ tags)

/-! ## Stages -/

/-- A run that grants access only with a ground among the kinds, all lookups answered. -/
def Granting [Stack] (s : Snapshot) (src : Sources) (m : Option Method) (path : Text) (kinds : List Kind)
    (x : Run Fault Decision) : Prop :=
  ∀ d, x.result = .ok d → d.allowed = true →
    s.Ground src m path kinds d ∧ ∀ e ∈ x.events, e.Answered src

theorem granting_byDefault [Stack] :
    s.Granting src m path [] (pure (.byDefault s.defaultPolicy)) := by
  intro d hd ha
  simp only [Run.result_pure, Except.ok.injEq] at hd
  subst hd
  have hallow : s.defaultPolicy = .allow := by simpa [Decision.allowed] using ha
  rw [hallow]
  exact ⟨.byDefault (fun _ hk => absurd hk List.not_mem_nil) hallow, by simp⟩

/-- A decision of a kind holds if it speaks about the method; else the next run decides. -/
theorem orElse_eq_ok {o : Option Decision} {next : Run Fault Decision} {d : Decision}
    (h : (orElse o m next).result = .ok d) :
    (o = some d ∧ d.appliesTo m = true ∧ orElse o m next = pure d) ∨
      ((∀ x, o = some x → x.appliesTo m = false) ∧ orElse o m next = next) := by
  cases o with
  | none => exact Or.inr ⟨by simp, rfl⟩
  | some x =>
    cases hx : x.appliesTo m with
    | true =>
      simp only [orElse, hx, if_true, Run.result_pure, Except.ok.injEq] at h
      subst h
      exact Or.inl ⟨rfl, hx, by simp [orElse, hx]⟩
    | false => exact Or.inr ⟨by simp [hx], by simp [orElse, hx]⟩

/-- No refusal of an unreadable note grants access, and it holds for every method. -/
theorem allowed_of_unread {k : Kind} {d : Decision} (h : unread k = some d) :
    d.allowed = false ∧ d.appliesTo m = true := by
  cases k <;> cases h <;> exact ⟨rfl, rfl⟩

/-- A kind in front of a granting run: its first rule is the ground, or it stands aside. -/
theorem granting_opinion [Stack] {kinds : List Kind} {k : Kind} {next : Run Fault Decision}
    (hnext : s.Granting src m path kinds next) :
    s.Granting src m path (k :: kinds)
      (opinion src path k (s.rules.ofKind k) >>= fun o => orElse o m next) := by
  intro d hd ha
  obtain ⟨o, ho, hd⟩ := Run.bind_eq_ok.mp hd
  have hevents : (∀ e ∈ (orElse o m next).events, e.Answered src) →
      ∀ e ∈ (opinion src path k (s.rules.ofKind k) >>= fun o => orElse o m next).events,
        e.Answered src := by
    intro hlater e he
    obtain he | ⟨o', ho', he⟩ := Run.mem_events_bind.mp he
    · obtain ⟨p, rfl⟩ := mem_events_opinion he
      trivial
    · rw [ho, Except.ok.injEq] at ho'
      exact hlater e (ho' ▸ he)
  obtain ⟨rfl, happlies, horElse⟩ | ⟨hsilent, horElse⟩ := orElse_eq_ok hd
  · -- The kind decides, and a decision that grants is that of a rule.
    refine ⟨?_, hevents (by simp [horElse])⟩
    obtain ⟨r, hr, hfirst⟩ | ⟨hnone, -⟩ | ⟨x, hx, hunread⟩ := opinion_eq_ok ho
    · cases hr
      exact .rule rfl (fun _ hj => absurd hj List.not_mem_nil) hfirst happlies
        (by simpa [Decision.allowed, Rule.allows] using ha)
    · cases hnone
    · cases hx
      rw [(allowed_of_unread (m := m) hunread).1] at ha
      cases ha
  · rw [horElse] at hd
    obtain ⟨hground, hanswered⟩ := hnext d hd ha
    refine ⟨hground.cons ?_, hevents (by rwa [horElse])⟩
    intro r hr
    obtain ⟨q, rfl, hq⟩ | ⟨-, hnone⟩ | ⟨x, rfl, hunread⟩ := opinion_eq_ok ho
    · rw [hr.unique hq]
      exact hsilent _ rfl
    · exact absurd hr (hnone r)
    · have := hsilent _ rfl
      rw [(allowed_of_unread hunread).2] at this
      cases this

/-- A lookup in front of a granting run, if a grant shows that it was answered. -/
theorem granting_lookup [Stack] {kinds : List Kind} {ε α : Type} {answer : Lookup ε α}
    {lookup : Run Fault (Lookup ε α)} {next : Lookup ε α → Run Fault Decision}
    (hanswer : lookup.result = .ok answer)
    (hevents : answer.IsRead → ∀ e ∈ lookup.events, e.Answered src)
    (hread : ∀ d, (next answer).result = .ok d → d.allowed = true → answer.IsRead)
    (hnext : s.Granting src m path kinds (next answer)) :
    s.Granting src m path kinds (lookup >>= next) := by
  intro d hd ha
  rw [Run.result_bind_of_ok hanswer] at hd
  obtain ⟨hground, hanswered⟩ := hnext d hd ha
  refine ⟨hground, ?_⟩
  intro e he
  obtain he | ⟨a, ha', he⟩ := Run.mem_events_bind.mp he
  · exact hevents (hread d hd ha) e he
  · rw [hanswer, Except.ok.injEq] at ha'
    exact hanswered e (ha' ▸ he)

/-- Rules about something looked up grant only if it could be read. -/
theorem isRead_of_allowed {ε α : Type} {k : Kind} {answer : Lookup ε α} {refusal d : Decision}
    {tests : α → Rule → Run Fault Bool} {rules : List Rule} {next : Run Fault Decision}
    (hrefusal : unread k = some refusal) (hrules : rules.isEmpty = false)
    (hd : (byLookup k refusal tests answer rules >>= fun o => orElse o m next).result = .ok d)
    (ha : d.allowed = true) : answer.IsRead := by
  -- An unreadable note is refused for every method, so nothing behind could grant access.
  rintro reason rfl
  obtain ⟨hdenied, happlies⟩ := allowed_of_unread (m := m) hrefusal
  have hopinion : byLookup k refusal tests (.unavailable reason) rules = pure (some refusal) := by
    simp [byLookup, hrules]
  rw [hopinion, Run.result_bind_of_ok (Run.result_pure _)] at hd
  simp only [orElse, happlies, if_true, Run.result_pure, Except.ok.injEq] at hd
  rw [← hd, hdenied] at ha
  cases ha

theorem standsAside_of_isEmpty [Stack] {k : Kind} (h : (s.rules.ofKind k).isEmpty = true) :
    s.StandsAside src m path k := by
  intro r hr
  rw [List.isEmpty_iff.mp h] at hr
  exact absurd hr not_isFirst_nil

/-- A granting run remains one behind a kind that stands aside. -/
theorem Granting.cons [Stack] {kinds : List Kind} {k : Kind} {x : Run Fault Decision}
    (hk : s.StandsAside src m path k) (hx : s.Granting src m path kinds x) :
    s.Granting src m path (k :: kinds) x := by
  intro d hd ha
  obtain ⟨hground, hanswered⟩ := hx d hd ha
  exact ⟨hground.cons hk, hanswered⟩

theorem granting_keywordStage [Stack] :
    s.Granting src m path [.keyword] (s.keywordStage src m path) := by
  unfold keywordStage
  split
  next hempty => exact granting_byDefault.cons (standsAside_of_isEmpty hempty)
  next hrules =>
    refine granting_lookup (Sources.result_lookupContent src path)
      (fun hread e he => Sources.answered_of_mem_lookupContent hread he) ?_
      (granting_opinion granting_byDefault)
    intro d hd ha
    exact isRead_of_allowed rfl (by simpa using hrules) hd ha

/-- The tags of the rules are those that the global tags were compared with, if there
    were any. -/
theorem granting_tagStage [Stack] {known : Option TagLookup}
    (hknown : known = none ∨ known = some (src.tagAnswer path)) :
    s.Granting src m path [.tag, .keyword] (s.tagStage src m path known) := by
  unfold tagStage
  split
  next hempty => exact granting_keywordStage.cons (standsAside_of_isEmpty hempty)
  next hrules =>
    have hread : ∀ d, (byTag (src.tagAnswer path) s.rules.tag >>= fun o =>
        orElse o m (s.keywordStage src m path)).result = .ok d → d.allowed = true →
        (src.tagAnswer path).IsRead :=
      fun d hd ha => isRead_of_allowed rfl (by simpa using hrules) hd ha
    have hnext : s.Granting src m path [.tag, .keyword] (byTag (src.tagAnswer path) s.rules.tag >>=
        fun o => orElse o m (s.keywordStage src m path)) :=
      granting_opinion (k := .tag) granting_keywordStage
    rcases hknown with rfl | rfl
    · exact granting_lookup (Sources.result_lookupTags src path)
        (fun hread e he => Sources.answered_of_mem_lookupTags hread he) hread hnext
    · exact granting_lookup (Run.result_pure _) (by simp) hread hnext

theorem granting_ruleStages [Stack] {known : Option TagLookup}
    (hknown : known = none ∨ known = some (src.tagAnswer path)) :
    s.Granting src m path Kind.all (s.ruleStages src m path known) :=
  granting_opinion (k := .folder) (granting_opinion (k := .name) (granting_tagStage hknown))

/-! ## Global tags -/

/-- A decision of the global tags that grants is that of the allowing tag, when the
    refusing one is not there. -/
theorem allowed_of_byGlobalTags {answer : TagLookup} {allowTag denyTag : Text} {d : Decision}
    (hd : byGlobalTags answer allowTag denyTag = some d) (ha : d.allowed = true) :
    ∃ tags, answer = .found tags ∧ d = .globalTag .allow allowTag ∧ allowTag ≠ [] ∧
      allowTag ∈ tags ∧ (denyTag ≠ [] → denyTag ∉ tags) := by
  unfold byGlobalTags at hd
  split at hd
  · cases hd
  · cases answer with
    | notFound => cases hd
    | unavailable reason =>
      cases hd
      cases ha
    | found tags =>
      dsimp only at hd
      split at hd
      · cases hd
        cases ha
      · next hdeny =>
        split at hd
        · next hallow =>
          cases hd
          simp only [Bool.and_eq_true, Bool.not_eq_true', List.isEmpty_eq_false_iff,
            List.contains_iff_mem] at hallow hdeny
          exact ⟨tags, rfl, rfl, hallow.1, hallow.2, fun hne hmem => hdeny ⟨hne, hmem⟩⟩
        · cases hd

/-- Global tags that decide nothing could be compared, and the refusing one is not there. -/
theorem byGlobalTags_eq_none {answer : TagLookup} {allowTag denyTag : Text}
    (hset : (allowTag.isEmpty && denyTag.isEmpty) = false)
    (h : byGlobalTags answer allowTag denyTag = none) :
    answer.IsRead ∧ (denyTag ≠ [] → ∀ tags, answer = .found tags → denyTag ∉ tags) := by
  unfold byGlobalTags at h
  rw [if_neg (by simp [hset])] at h
  cases answer with
  | notFound => exact ⟨Lookup.isRead_notFound, fun _ _ h => nomatch h⟩
  | unavailable reason => cases h
  | found tags =>
    refine ⟨Lookup.isRead_found tags, ?_⟩
    rintro hne _ ⟨⟩ hmem
    dsimp only at h
    rw [if_pos (by simpa using ⟨hne, hmem⟩)] at h
    cases h

/-! ## Evaluations -/

/-- The global tags and the rules behind them grant only for one of the grounds. -/
theorem grants_of_tagFirst [Stack] {d : Decision} (hpath : VaultPath.check path = .ok ())
    (hwrite : s.readOnly = true → ∀ method, m = some method → method.isWrite = false)
    (hd : (s.tagFirst src m path).result = .ok d) (ha : d.allowed = true) :
    s.Grants src m path d ∧ ∀ e ∈ (s.tagFirst src m path).events, e.Answered src := by
  unfold tagFirst at hd ⊢
  split at hd
  · next hset =>
    rw [if_pos hset]
    have hset' : (s.allowTag.isEmpty && s.denyTag.isEmpty) = false := by
      simpa only [hasGlobalTag, Bool.not_eq_true'] using hset
    rw [Run.result_bind_of_ok (Sources.result_lookupTags src path)] at hd
    have hevents : (src.tagAnswer path).IsRead → ∀ {next : TagLookup → Run Fault Decision},
        (∀ e ∈ (next (src.tagAnswer path)).events, e.Answered src) →
        ∀ e ∈ (src.lookupTags path >>= next).events, e.Answered src := by
      intro hread next hnext e he
      obtain he | ⟨a, ha', he⟩ := Run.mem_events_bind.mp he
      · exact Sources.answered_of_mem_lookupTags hread he
      · rw [Sources.result_lookupTags, Except.ok.injEq] at ha'
        exact hnext e (ha' ▸ he)
    cases hg : byGlobalTags (src.tagAnswer path) s.allowTag s.denyTag with
    | some d' =>
      simp only [hg, Run.result_pure, Except.ok.injEq] at hd
      subst hd
      obtain ⟨tags, htags, rfl, hne, hmem, hdeny⟩ := allowed_of_byGlobalTags hg ha
      have hread : (src.tagAnswer path).IsRead := htags ▸ Lookup.isRead_found tags
      refine ⟨⟨hpath, hwrite, fun _ => hread, ?_, Or.inr ⟨rfl, hne, tags, htags, hmem⟩⟩, ?_⟩
      · intro hne' tags' htags'
        rw [htags] at htags'
        cases htags'
        exact hdeny hne'
      · exact hevents hread (by simp [hg])
    | none =>
      simp only [hg] at hd
      obtain ⟨hread, hdeny⟩ := byGlobalTags_eq_none hset' hg
      obtain ⟨hground, hanswered⟩ := granting_ruleStages (Or.inr rfl) d hd ha
      refine ⟨⟨hpath, hwrite, fun _ => hread, hdeny, Or.inl hground⟩, ?_⟩
      exact hevents hread (by simpa [hg] using hanswered)
  · next hunset =>
    rw [if_neg hunset]
    have hempty : s.allowTag = [] ∧ s.denyTag = [] := by simpa [hasGlobalTag] using hunset
    obtain ⟨hground, hanswered⟩ := granting_ruleStages (Or.inl rfl) d hd ha
    refine ⟨⟨hpath, hwrite, ?_, ?_, Or.inl hground⟩, hanswered⟩
    · exact fun hset => absurd hset hunset
    · exact fun hne => absurd hempty.2 hne

/-- A decision that grants, while filtering is on, has been justified. -/
theorem grants_of_decide [Stack] {request : Request} {d : Decision} (hon : s.enabled = true)
    (hd : (s.decide src request path).result = .ok d) (ha : d.allowed = true) :
    ∃ m, request.method = .ok m ∧ s.Grants src m (VaultPath.normalize path) d ∧
      ∀ e ∈ (s.decide src request path).events, e.Answered src := by
  unfold Snapshot.decide at hd ⊢
  rw [if_neg (by simp [hon])] at hd ⊢
  cases hm : request.method with
  | error refusal =>
    simp only [hm, Run.result_pure, Except.ok.injEq] at hd
    subst hd
    cases ha
  | ok m =>
    simp only [hm] at hd ⊢
    cases hpath : VaultPath.check (VaultPath.normalize path) with
    | error refusal =>
      simp only [hpath, Run.result_pure, Except.ok.injEq] at hd
      subst hd
      cases ha
    | ok _ =>
      simp only [hpath] at hd ⊢
      split at hd
      · cases hd
        cases ha
      · next hwrite =>
        rw [if_neg hwrite]
        refine ⟨m, rfl, grants_of_tagFirst hpath ?_ hd ha⟩
        rintro hro method rfl
        simpa [hro] using hwrite

/-- Every access granted while filtering is on is justified: the method is known, the path
    may be evaluated, nothing forbids it, every lookup made on the way was answered, and the
    decision has a ground. -/
theorem evaluate_grants [Stack] {request : Request} {d : Decision} (hon : s.enabled = true)
    (hd : (s.evaluate src request (.text path)).result = .ok d) (ha : d.allowed = true) :
    ∃ m, request.method = .ok m ∧ s.Grants src m (VaultPath.normalize path) d ∧
      ∀ e ∈ (s.evaluate src request (.text path)).events, e.Answered src := by
  obtain ⟨d', hd', hlog⟩ := Run.bind_eq_ok.mp hd
  have hsame : d' = d := by
    obtain ⟨-, -, hlog⟩ := Run.bind_eq_ok.mp hlog
    simpa using hlog
  subst hsame
  obtain ⟨m, hm, hgrants, hanswered⟩ := grants_of_decide hon hd' ha
  refine ⟨m, hm, hgrants, ?_⟩
  intro e he
  obtain he | ⟨_, -, he⟩ := Run.mem_events_bind.mp he
  · exact hanswered e he
  · obtain he | ⟨_, -, he⟩ := Run.mem_events_bind.mp he
    · obtain rfl := List.mem_singleton.mp he
      trivial
    · cases he

/-- A policy whose only tag rule is about deleting, in front of keyword rules. -/
def draftPolicy : Snapshot where
  rules := {
    tag := [{ mode := .deny, pattern := "#draft", methods := some [.delete] }]
    keyword := [{ mode := .deny, pattern := "secret" }, { mode := .allow, pattern := "plan" }] }
  denyTag := "#private"

/-- Every note is a draft of a plan. -/
def draftSources : Sources where
  tags := some fun _ => .ok (.found ["#draft"])
  content := some fun _ => .ok (.found "the plan")

attribute [local instance] Stack.usual

/-- A draft may be read: its tag rule stands aside and the second keyword rule allows. -/
theorem evaluate_grants_draft :
    (draftPolicy.evaluate draftSources (.given (some "get")) (.text "/Work//a.md")).result =
        .ok (.rule .keyword { mode := .allow, pattern := "plan" }) ∧
      ∃ m, (Request.given (some "get")).method = .ok m ∧
        draftPolicy.Grants draftSources m (VaultPath.normalize "/Work//a.md")
          (.rule .keyword { mode := .allow, pattern := "plan" }) ∧
        ∀ e ∈ (draftPolicy.evaluate draftSources (.given (some "get"))
          (.text "/Work//a.md")).events, e.Answered draftSources := by
  have hd : (draftPolicy.evaluate draftSources (.given (some "get"))
      (.text "/Work//a.md")).result =
        .ok (.rule .keyword { mode := .allow, pattern := "plan" }) := by
    rfl
  exact ⟨hd, evaluate_grants rfl hd rfl⟩

end NoteAccess.Snapshot
