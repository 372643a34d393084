/-
  NoteAccess.Proofs.Policy.Calls

  What calls make of an engine that is changed in place.  Such a call is a
  program (`Call.perform`): it sets one part of the engine after the other, and
  what it has set before a failure stays.  It turns out that nothing has been set
  by then: a program leaves the engine that the functions of the library give, or
  the old one if they give none (`outcome_eq`).

  A call that succeeds replaces the rules, by those of the listing that it reads,
  or everything but the rules (`outcome_reload`, `outcome_updateSettings`).  After
  any calls the engine is made up of the last of each (`after_calls`).
-/

import NoteAccess.Policy.Engine
import NoteAccess.Proofs.Rule.Listing
import NoteAccess.Proofs.Setting

namespace NoteAccess

namespace Snapshot

/-- The policy apart from its rules. -/
def bare (s : Snapshot) : Snapshot := s.withRules {} []

@[simp] theorem bare_withRules (s : Snapshot) (rules : RuleSet) (entries : List RuleEntry) :
    (s.withRules rules entries).bare = s.bare := rfl

@[simp] theorem rules_withRules (s : Snapshot) (rules : RuleSet) (entries : List RuleEntry) :
    (s.withRules rules entries).rules = rules := rfl

@[simp] theorem entries_withRules (s : Snapshot) (rules : RuleSet) (entries : List RuleEntry) :
    (s.withRules rules entries).entries = entries := rfl

end Snapshot

namespace Engine

/-! ## Programs -/

/-- Why a call fails. -/
inductive CallFailure where
  | fault (f : Fault)
  | rulesFile (e : RulesFile.Error)
  | settings (f : SettingFailure)

/-- A program on an engine that is changed in place: what it has set before a failure
    stays. -/
abbrev InPlace (α : Type) := ExceptT CallFailure (StateM Engine) α

namespace InPlace

variable {α : Type}

/-- How a program ends on an engine, and the engine then. -/
def outcome (x : InPlace α) (e : Engine) : Except CallFailure α × Engine := x.run.run e

/-- A value, or a failure. -/
def ofExcept : Except CallFailure α → InPlace α
  | .ok a => return a
  | .error f => throw f

/-- A program that fails with a failure found outside sets nothing. -/
theorem outcome_ofExcept_bind {β : Type} (x : Except CallFailure α) (f : α → InPlace β) (e : Engine) :
    (ofExcept x >>= f).outcome e =
      match x with
      | .ok a => (f a).outcome e
      | .error failure => (.error failure, e) := by
  cases x <;> rfl

end InPlace

/-! ## Calls -/

/-- Where rules are read from. -/
inductive RulesSource where
  | text (content : Text)
  | file (t : FileTree) (path : FilePath)

/-- The listing that is read; a missing file has an empty one. -/
def RulesSource.listing : RulesSource → Except CallFailure Listing
  | text content => (Listing.ofText content).result.mapError .fault
  | file t path => ((RulesFile.load t path).result.mapError .rulesFile).map (·.getD .empty)

/-- The bound on evaluations at once that settings name. -/
def boundSetting? : Value → Option Value
  | .dict entries =>
    match Value.field? Setting.concurrencyKey entries with
    | none | some .null => none
    | some v => some v
  | _ => none

/-- The bound that settings name, if it is accepted; `none` if they name none. -/
def boundOf [Stack] (settings : Value) : Except CallFailure (Option Nat) :=
  match boundSetting? settings with
  | none => .ok none
  | some v => ((Setting.concurrency v).mapError .settings).map some

/-- The policy of settings, without rules, and the bound on evaluations at once if they name
    one. -/
def readSettings [Stack] (settings : Value) : Except CallFailure (Snapshot × Option Nat) :=
  ((Snapshot.ofSettings settings).mapError .settings).bind fun s =>
    (boundOf settings).map fun bound => (s, bound)

/-- A call of an engine. -/
inductive Call where
  | reload (r : RulesSource)
  | updateSettings (settings : Value)
  | evaluate (src : Sources) (request : Request) (candidate : Value)
  | filterPaths (src : Sources) (request : Request) (candidates : List Value)
  | filterRecords (src : Sources) (request : Request) (records : List (List (Value × Value)))
  | filterListing (src : Sources) (request : Request) (directory : Text) (names : List Text)

namespace Call

/-- What a call does.  New settings set the bound before the policy. -/
def perform [Stack] : Call → InPlace Unit
  | reload r => do
    let l ← InPlace.ofExcept r.listing
    modify (·.install l)
  | updateSettings settings => do
    let current := (← get).snapshot
    let updated ← InPlace.ofExcept ((Snapshot.ofSettings settings).mapError .settings)
    if let some n ← InPlace.ofExcept (boundOf settings) then
      modify fun e => { e with concurrency := n }
    modify fun e => { e with snapshot := updated.withRules current.rules current.entries }
  | evaluate src request candidate => do
    let _ ← InPlace.ofExcept (((← get).snapshot.evaluate src request candidate).result.mapError .fault)
  | filterPaths src request candidates => do
    let _ ← InPlace.ofExcept (((← get).filterPaths src request candidates).result.mapError .fault)
  | filterRecords src request records => do
    let _ ← InPlace.ofExcept (((← get).filterRecords src request records).result.mapError .fault)
  | filterListing src request directory names => do
    let _ ← InPlace.ofExcept (((← get).filterListing src request directory names).result.mapError .fault)

/-- How a call ends on an engine, and the engine then. -/
def outcome [Stack] (c : Call) (e : Engine) : Except CallFailure Unit × Engine := c.perform.outcome e

/-- The engine that the functions of the library give for a call. -/
def result [Stack] (e : Engine) : Call → Except CallFailure Engine
  | reload (.text content) => ((e.reloadText content).result.mapError .fault).map Prod.fst
  | reload (.file t path) => ((e.reloadFile t path).result.mapError .rulesFile).map Prod.fst
  | updateSettings settings => (e.updateSettings settings).mapError .settings
  | evaluate src request candidate =>
    ((e.snapshot.evaluate src request candidate).result.mapError .fault).map fun _ => e
  | filterPaths src request candidates =>
    ((e.filterPaths src request candidates).result.mapError .fault).map fun _ => e
  | filterRecords src request records =>
    ((e.filterRecords src request records).result.mapError .fault).map fun _ => e
  | filterListing src request directory names =>
    ((e.filterListing src request directory names).result.mapError .fault).map fun _ => e

end Call

/-! ## Outcomes -/

/-- The outcome of a call by the new engine that there is, or the old one if there is none. -/
def left (e : Engine) : Except CallFailure Engine → Except CallFailure Unit × Engine
  | .ok e' => (.ok (), e')
  | .error f => (.error f, e)

theorem outcome_reload [Stack] (e : Engine) (r : RulesSource) :
    (Call.reload r).outcome e = left e (r.listing.map e.install) := by
  unfold Call.outcome Call.perform
  rw [InPlace.outcome_ofExcept_bind]
  cases r.listing <;> rfl

/-- Settings that are refused leave neither a policy nor a bound behind. -/
theorem outcome_updateSettings [Stack] (e : Engine) (settings : Value) :
    (Call.updateSettings settings).outcome e =
      left e ((readSettings settings).map fun (s, bound) =>
        ⟨s.withRules e.snapshot.rules e.snapshot.entries, bound.getD e.concurrency⟩) := by
  unfold Call.outcome Call.perform readSettings
  dsimp only
  cases Snapshot.ofSettings settings with
  | error f => rfl
  | ok s =>
    -- A bound that is refused ends the program before anything is set.
    cases boundOf settings with
    | error f => rfl
    | ok bound => cases bound <;> rfl

variable {α : Type}

/-- A question leaves the engine as it is, whether or not it is answered. -/
theorem outcome_ask (question : Engine → Except CallFailure α) (e : Engine) :
    InPlace.outcome (do let _ ← InPlace.ofExcept (question (← get))) e =
      left e ((question e).map fun _ => e) := by
  have hrun : InPlace.outcome (do let _ ← InPlace.ofExcept (question (← get))) e =
      InPlace.outcome (do let _ ← InPlace.ofExcept (question e)) e := rfl
  rw [hrun, InPlace.outcome_ofExcept_bind]
  cases question e <;> rfl

theorem snd_outcome_ask (question : Engine → Except CallFailure α) (e : Engine) :
    (InPlace.outcome (do let _ ← InPlace.ofExcept (question (← get))) e).2 = e := by
  rw [outcome_ask]
  cases question e <;> rfl

theorem result_reload [Stack] (e : Engine) (r : RulesSource) :
    (Call.reload r).result e = r.listing.map e.install := by
  cases r with
  | text content =>
    unfold Call.result RulesSource.listing Engine.reloadText
    dsimp only
    rw [Run.result_bind]
    cases (Listing.ofText content).result <;> rfl
  | file t path =>
    unfold Call.result RulesSource.listing Engine.reloadFile
    dsimp only
    rw [Run.result_bind]
    have hattempt : ((RulesFile.load t path).attempt :
        Run RulesFile.Error (Except RulesFile.Error (Option Listing))).result =
          .ok (RulesFile.load t path).result := rfl
    rw [hattempt]
    cases (RulesFile.load t path).result with
    | error f => rfl
    | ok found => cases found <;> rfl

theorem result_updateSettings [Stack] (e : Engine) (settings : Value) :
    (Call.updateSettings settings).result e =
      (readSettings settings).map fun (s, bound) =>
        ⟨s.withRules e.snapshot.rules e.snapshot.entries, bound.getD e.concurrency⟩ := by
  unfold Call.result Engine.updateSettings readSettings boundOf boundSetting?
  dsimp only
  cases hs : Snapshot.ofSettings settings with
  | error f => rfl
  | ok s =>
    cases settings with
    | dict entries =>
      dsimp only
      cases hv : Value.field? Setting.concurrencyKey entries with
      | none => rfl
      | some v =>
        -- Null names no bound, and any other value is one or is refused.
        cases v with
        | null => rfl
        | _ =>
          dsimp only
          generalize Setting.concurrency _ = bound
          cases bound <;> rfl
    | _ => rfl

/-- A call that fails has set nothing, and one that succeeds leaves the new engine. -/
theorem outcome_eq [Stack] (c : Call) (e : Engine) : c.outcome e = left e (c.result e) := by
  cases c with
  | reload r => rw [outcome_reload, result_reload]
  | updateSettings settings => rw [outcome_updateSettings, result_updateSettings]
  | evaluate src request candidate => exact outcome_ask ..
  | filterPaths src request candidates => exact outcome_ask ..
  | filterRecords src request records => exact outcome_ask ..
  | filterListing src request directory names => exact outcome_ask ..

/-! ## Runs of calls -/

/-- The engine after calls one after the other, whether or not they fail. -/
def after [Stack] (e : Engine) (calls : List Call) : Engine := calls.foldl (fun e c => (c.outcome e).2) e

namespace Call

/-- The listing that a call puts in place, if it succeeds. -/
def listing? : Call → Option Listing
  | reload r => r.listing.toOption
  | _ => none

/-- The policy that a call puts in place apart from the rules, with the bound on evaluations
    at once if that is set as well, if the call succeeds. -/
def settings? [Stack] : Call → Option (Snapshot × Option Nat)
  | updateSettings settings => (readSettings settings).toOption
  | _ => none

/-- The policy that a call puts in place apart from the rules, if it succeeds. -/
def policy? [Stack] (c : Call) : Option Snapshot := c.settings?.map Prod.fst

/-- The bound on evaluations at once that a call sets, if it succeeds. -/
def bound? [Stack] (c : Call) : Option Nat := c.settings?.bind Prod.snd

end Call

/-- What a call leaves of the engine, part by part. -/
theorem snd_outcome [Stack] (c : Call) (e : Engine) :
    (c.outcome e).2 =
      ⟨(c.policy?.getD e.snapshot).withRules ((c.listing?.map Listing.ruleSet).getD e.snapshot.rules)
        ((c.listing?.map Listing.entries).getD e.snapshot.entries), c.bound?.getD e.concurrency⟩ := by
  cases c with
  | reload r =>
    rw [outcome_reload]
    unfold Call.listing?
    dsimp only
    cases r.listing <;> rfl
  | updateSettings settings =>
    rw [outcome_updateSettings]
    unfold Call.policy? Call.bound? Call.settings?
    dsimp only
    cases readSettings settings <;> rfl
  | evaluate src request candidate => exact snd_outcome_ask ..
  | filterPaths src request candidates => exact snd_outcome_ask ..
  | filterRecords src request records => exact snd_outcome_ask ..
  | filterListing src request directory names => exact snd_outcome_ask ..

/-- A part of the engine that some calls replace and others keep is as the last call of the
    former left it. -/
theorem part_after [Stack] {β γ : Type} (part : Engine → β) {change? : Call → Option γ} {put : γ → β}
    (h : ∀ c e, part (c.outcome e).2 = ((change? c).map put).getD (part e)) (e : Engine)
    (calls : List Call) :
    part (e.after calls) = ((calls.filterMap change?).getLast?.map put).getD (part e) := by
  induction calls generalizing e with
  | nil => rfl
  | cons c calls ih =>
    have hafter : e.after (c :: calls) = (c.outcome e).2.after calls := rfl
    -- What this call puts in place counts only if no later call puts something else there.
    rw [hafter, ih, h, List.filterMap_cons]
    cases change? c with
    | none => rfl
    | some g =>
      dsimp only
      rw [List.getLast?_cons]
      cases (calls.filterMap change?).getLast? <;> rfl

/-- The rules of an engine after calls are those of the last listing put in place. -/
theorem rules_after [Stack] (e : Engine) (calls : List Call) :
    (e.after calls).snapshot.rules =
      ((calls.filterMap Call.listing?).getLast?.map Listing.ruleSet).getD e.snapshot.rules :=
  part_after (fun e => e.snapshot.rules) (fun c e => by rw [snd_outcome]; rfl) e calls

theorem entries_after [Stack] (e : Engine) (calls : List Call) :
    (e.after calls).snapshot.entries =
      ((calls.filterMap Call.listing?).getLast?.map Listing.entries).getD e.snapshot.entries :=
  part_after (fun e => e.snapshot.entries) (fun c e => by rw [snd_outcome]; rfl) e calls

/-- The rest of the policy is that of the last settings put in place. -/
theorem bare_after [Stack] (e : Engine) (calls : List Call) :
    (e.after calls).snapshot.bare =
      ((calls.filterMap Call.policy?).getLast?.map Snapshot.bare).getD e.snapshot.bare := by
  refine part_after (fun e => e.snapshot.bare) (fun c e => ?_) e calls
  rw [snd_outcome]
  cases c.policy? <;> rfl

theorem concurrency_after [Stack] (e : Engine) (calls : List Call) :
    (e.after calls).concurrency = (calls.filterMap Call.bound?).getLast?.getD e.concurrency := by
  have hstep : ∀ (c : Call) (e : Engine), (c.outcome e).2.concurrency = (c.bound?.map id).getD e.concurrency := by
    intro c e
    rw [snd_outcome, Option.map_id, id]
  have h := part_after Engine.concurrency hstep e calls
  rwa [Option.map_id, id] at h

/-! ## Where the parts come from -/

/-- An engine as it is started: with the default policy, or with the policy of settings and
    perhaps the rules of a text. -/
inductive Begins [Stack] : Engine → Prop
  | plain {v : Value} {n : Nat} (hn : Setting.concurrency v = .ok n) : Begins { concurrency := n }
  | configured {settings v : Value} {s : Snapshot} {l : Listing} {n : Nat}
      (hs : Snapshot.ofSettings settings = .ok s) (hl : l.IsRead)
      (hn : Setting.concurrency v = .ok n) : Begins ⟨s.withRules l.ruleSet l.entries, n⟩

theorem isRead_of_listing {r : RulesSource} {l : Listing} (h : r.listing = .ok l) : l.IsRead := by
  cases r with
  | text content =>
    unfold RulesSource.listing at h
    dsimp only at h
    cases hl : (Listing.ofText content).result with
    | error f => rw [hl] at h; cases h
    | ok l' => rw [hl] at h; cases h; exact .inr ⟨content, hl⟩
  | file t path =>
    unfold RulesSource.listing at h
    dsimp only at h
    cases hl : (RulesFile.load t path).result with
    | error f => rw [hl] at h; cases h
    | ok found =>
      rw [hl] at h
      cases found with
      | none => cases h; exact .inl rfl
      | some l' =>
        cases h
        obtain ⟨content, -, hread⟩ := RulesFile.load_eq_ok_some.mp hl
        exact .inr ⟨content, hread⟩

/-- An accepted bound is in range. -/
theorem concurrency_le [Stack] {v : Value} {n : Nat} (h : Setting.concurrency v = .ok n) :
    1 ≤ n ∧ n ≤ Setting.maxConcurrency := by
  unfold Setting.concurrency at h
  split at h
  · split at h
    · exact absurd h Setting.refuse_ne_ok
    · next hrange =>
      cases h
      simp only [Bool.or_eq_true, decide_eq_true_eq] at hrange
      omega
  · exact absurd h Setting.refuse_ne_ok

theorem le_of_boundOf [Stack] {settings : Value} {n : Nat} (h : boundOf settings = .ok (some n)) :
    1 ≤ n ∧ n ≤ Setting.maxConcurrency := by
  unfold boundOf at h
  cases hv : boundSetting? settings with
  | none => rw [hv] at h; cases h
  | some v =>
    rw [hv] at h
    dsimp only at h
    cases hn : Setting.concurrency v with
    | error refusal => rw [hn] at h; cases h
    | ok m => rw [hn] at h; cases h; exact concurrency_le hn

/-- So is a bound that a call sets. -/
theorem le_of_bound? [Stack] {c : Call} {n : Nat} (h : c.bound? = some n) :
    1 ≤ n ∧ n ≤ Setting.maxConcurrency := by
  obtain ⟨⟨s, bound⟩, hc, rfl⟩ := Option.bind_eq_some_iff.mp h
  cases c with
  | updateSettings settings =>
    unfold Call.settings? readSettings at hc
    dsimp only at hc
    cases hs : Snapshot.ofSettings settings with
    | error f => rw [hs] at hc; cases hc
    | ok s' =>
      cases hbound : boundOf settings with
      | error f => rw [hs, hbound] at hc; cases hc
      | ok bound' => rw [hs, hbound] at hc; cases hc; exact le_of_boundOf hbound
  | _ => cases hc

/-- What calls put in place are listings that have been read. -/
theorem isRead_of_mem_listings {calls : List Call} {l : Listing}
    (h : l ∈ calls.filterMap Call.listing?) : l.IsRead := by
  obtain ⟨c, -, hc⟩ := List.mem_filterMap.mp h
  cases c with
  | reload r =>
    unfold Call.listing? at hc
    dsimp only at hc
    cases hr : r.listing with
    | error f => rw [hr] at hc; cases hc
    | ok l' => rw [hr] at hc; cases hc; exact isRead_of_listing hr
  | _ => cases hc

/-- The rules of the engine are those of a listing. -/
def Listed (e : Engine) : Prop :=
  ∃ l : Listing, l.IsRead ∧ e.snapshot.rules = l.ruleSet ∧ e.snapshot.entries = l.entries

theorem listed_default (concurrency : Nat) : Listed { concurrency } := ⟨.empty, .inl rfl, rfl, rfl⟩

theorem Begins.listed [Stack] {e₀ : Engine} (h : e₀.Begins) : e₀.Listed := by
  cases h with
  | plain hn => exact listed_default _
  | configured hs hl hn => exact ⟨_, hl, rfl, rfl⟩

/-- Whatever calls follow, the rules stay those of a listing. -/
theorem Listed.after [Stack] {e : Engine} (h : e.Listed) (calls : List Call) : (e.after calls).Listed := by
  unfold Listed
  rw [rules_after, entries_after]
  cases hlast : (calls.filterMap Call.listing?).getLast? with
  | some l => exact ⟨l, isRead_of_mem_listings (List.mem_of_getLast? hlast), rfl, rfl⟩
  | none => exact h

/-- The bound of an engine that has been started is in range. -/
theorem Begins.concurrency_after_le [Stack] {e₀ : Engine} (h : e₀.Begins) (calls : List Call) :
    1 ≤ (e₀.after calls).concurrency ∧ (e₀.after calls).concurrency ≤ Setting.maxConcurrency := by
  rw [concurrency_after]
  cases hlast : (calls.filterMap Call.bound?).getLast? with
  | some n =>
    obtain ⟨c, -, hc⟩ := List.mem_filterMap.mp (List.mem_of_getLast? hlast)
    exact le_of_bound? hc
  | none =>
    cases h with
    | plain hn => exact concurrency_le hn
    | configured hs hl hn => exact concurrency_le hn

/-- After any calls, of which some may fail, the rules are those of the last reload that
    succeeded, and the rest of the policy is that of the last settings that were accepted.
    A reload succeeds if its listing can be read, settings are accepted if policy and bound
    are, and a call that fails leaves the engine as it was. -/
theorem after_calls [Stack] {e₀ : Engine} (h : e₀.Begins) (calls : List Call) :
    let e := e₀.after calls
    let listed := (calls.filterMap Call.listing?).getLast?
    (e.snapshot.rules = .ofEntries e.snapshot.entries ∧
      (∀ k, e.snapshot.rules.ofKind k =
        (e.snapshot.entries.filter fun x => x.kind = k && x.rule.enabled).map RuleEntry.rule) ∧
      e.snapshot.entries.Pairwise fun a b => a.lineNumber < b.lineNumber) ∧
    (e.snapshot.rules = (listed.map Listing.ruleSet).getD e₀.snapshot.rules ∧
      e.snapshot.entries = (listed.map Listing.entries).getD e₀.snapshot.entries) ∧
    e.snapshot.bare = ((calls.filterMap Call.policy?).getLast?.getD e₀.snapshot).bare ∧
    (e.concurrency = (calls.filterMap Call.bound?).getLast?.getD e₀.concurrency ∧
      1 ≤ e.concurrency ∧ e.concurrency ≤ 1024) ∧
    (∀ r, ((Call.reload r).outcome e).1 = r.listing.map fun _ => ()) ∧
    (∀ settings, ((Call.updateSettings settings).outcome e).1 = (readSettings settings).map fun _ => ()) ∧
    ∀ c : Call, c.outcome e = left e (c.result e) ∧
      ∀ f, (c.outcome e).1 = .error f → (c.outcome e).2 = e := by
  intro e listed
  obtain ⟨l, hl, hrules, hentries⟩ := h.listed.after calls
  obtain ⟨hset, horder⟩ := hl.ofEntries
  have hof : e.snapshot.rules = .ofEntries e.snapshot.entries := by
    rw [hrules, hentries, hset]
  refine ⟨⟨hof, fun k => ?_, hentries ▸ horder⟩, ⟨rules_after .., entries_after ..⟩, ?_,
    ⟨concurrency_after .., h.concurrency_after_le calls⟩, fun r => ?_, fun settings => ?_,
    fun c => ⟨outcome_eq c e, fun f hf => ?_⟩⟩
  · rw [hof]
    exact RuleSet.ofKind_ofEntries _ k
  · rw [bare_after]
    cases (calls.filterMap Call.policy?).getLast? <;> rfl
  · rw [outcome_reload]
    cases r.listing <;> rfl
  · rw [outcome_updateSettings]
    cases readSettings settings <;> rfl
  · rw [outcome_eq] at hf ⊢
    cases hc : c.result e with
    | error f' => rfl
    | ok e' => rw [hc] at hf; cases hf

attribute [local instance] Stack.usual

/-- Settings whose bound is refused after their policy was accepted, between a reload and a
    question. -/
theorem after_calls_refused :
    let e₀ : Engine := {}
    let refused : Value := .dict [(.text "default_policy", .text "allow"), (.text "bulk_concurrency", .int 0)]
    let calls : List Call := [.reload (.text "deny  name  *.md"), .updateSettings refused,
      .evaluate ⟨none, none⟩ (.assumed .get) .null]
    e₀.Begins ∧
      (e₀.after calls).snapshot.entries =
        [⟨.name, 0, { mode := .deny, pattern := "*.md", sourceLine := 0 }⟩] ∧
      (e₀.after calls).snapshot.bare = ({} : Snapshot) ∧ (e₀.after calls).concurrency = 16 ∧
      ((Call.updateSettings refused).outcome (e₀.after calls)).2 = e₀.after calls := by
  intro e₀ refused calls
  have hbegins : e₀.Begins := .plain (v := .int 16) rfl
  obtain ⟨-, ⟨-, hentries⟩, hbare, ⟨hconcurrency, -⟩, -, -, hcalls⟩ := after_calls hbegins calls
  refine ⟨hbegins, hentries, hbare, hconcurrency, ?_⟩
  exact (hcalls (.updateSettings refused)).2 (.settings (.refused (.concurrencyOutOfRange "0"))) rfl

end Engine

end NoteAccess
