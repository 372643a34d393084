/-
  NoteAccess.Proofs.Regex.Reading

  Reading an expression that has no braces, escapes signs only and opens
  parentheses for a group or a look ahead only (`Plain`): it succeeds or finds the
  expression malformed, and the flags stay as they are (`meets_read`).

  `Meets` is the specification of a step of reading, and each step that such an
  expression can reach has one.  No step moves backwards (`After`), so what is
  plain stays plain.
-/

import NoteAccess.Regex.Program

namespace NoteAccess.Regex

/-! ## Plain expressions -/

/-- A token, with those behind it, can be read without counts, flags and names: it is no
    brace, what it escapes is a sign, and if it opens a parenthesis, then that of a group or
    of a look ahead. -/
def Token.IsPlain (rest : List Token) : Token → Prop
  | .char c =>
    c ≠ CodePoint.openBrace ∧
      (c = CodePoint.openParen → ∃ d rest', rest = .char CodePoint.query :: .char d :: rest' ∧
        (d = CodePoint.colon ∨ d = CodePoint.bang))
  | .escape c => c.isBasicLetter = false ∧ c.isBasicDigit = false
  | .dangling => True

/-- All tokens are plain. -/
def Plain : List Token → Prop
  | [] => True
  | t :: rest => t.IsPlain rest ∧ Plain rest

theorem Plain.of_suffix {ts us : List Token} (h : Plain ts) (hs : us <:+ ts) : Plain us := by
  obtain ⟨pre, rfl⟩ := hs
  induction pre with
  | nil => exact h
  | cons t pre ih => exact ih h.2

/-- The expression is malformed. -/
def Failure.IsMalformed (f : Failure) : Prop := ∃ flaw place, f = .malformed flaw place

namespace Reader

variable {α β : Type} {s : Reading}

/-! ## Specifications -/

/-- From a state, a step finds the expression malformed, or else it satisfies `post`. -/
def Meets (x : Reader α) (s : Reading) (post : α → Reading → Prop) : Prop :=
  match x.run s with
  | .ok (a, s') => post a s'
  | .error f => f.IsMalformed

/-- A state further on in the same expression. -/
def After (s s' : Reading) : Prop := s'.tokens <:+ s.tokens ∧ s'.flags = s.flags

theorem After.refl (s : Reading) : After s s := ⟨List.suffix_refl _, rfl⟩

theorem After.trans {s s' s'' : Reading} (h : After s s') (h' : After s' s'') : After s s'' :=
  ⟨h'.1.trans h.1, h'.2.trans h.2⟩

theorem After.plain {s s' : Reading} (h : After s s') (hp : Plain s.tokens) : Plain s'.tokens :=
  hp.of_suffix h.1

/-- The state behind one more token. -/
def Took (t : Token) (s s' : Reading) : Prop := s.tokens = t :: s'.tokens ∧ s'.flags = s.flags

theorem Took.after {t : Token} {s s' : Reading} (h : Took t s s') : After s s' :=
  ⟨⟨[t], h.1.symm⟩, h.2⟩

theorem Took.plain {t : Token} {s s' : Reading} (h : Took t s s') (hp : Plain s.tokens) :
    t.IsPlain s'.tokens ∧ Plain s'.tokens := by
  rw [h.1] at hp
  exact hp

theorem Meets.bind {x : Reader α} {f : α → Reader β} {post : α → Reading → Prop}
    {post' : β → Reading → Prop} (hx : x.Meets s post)
    (hf : ∀ a s', post a s' → (f a).Meets s' post') : (x >>= f).Meets s post' := by
  unfold Meets at hx ⊢
  rw [StateT.run_bind]
  cases hr : x.run s with
  | error e =>
    rw [hr] at hx
    exact hx
  | ok found =>
    rw [hr] at hx
    exact hf found.1 found.2 hx

theorem Meets.mono {x : Reader α} {post post' : α → Reading → Prop} (hx : x.Meets s post)
    (h : ∀ a s', post a s' → post' a s') : x.Meets s post' := by
  unfold Meets at hx ⊢
  split at hx
  · exact h _ _ hx
  · exact hx

theorem meets_failAt (f : Flaw) (n : Nat) (post : α → Reading → Prop) :
    (failAt f n : Reader α).Meets s post := ⟨f, some n, rfl⟩

theorem meets_get : (get : Reader Reading).Meets s fun a s' => a = s ∧ s' = s := ⟨rfl, rfl⟩

theorem meets_place : place.Meets s fun _ s' => s' = s := rfl

theorem meets_fail (f : Flaw) (back : Nat) (post : α → Reading → Prop) :
    (fail f back : Reader α).Meets s post :=
  meets_place.bind fun _ _ _ => meets_failAt ..

/-! ## Tokens -/

theorem meets_moveTo (ts : List Token) :
    (moveTo ts).Meets s fun _ s' => s'.tokens = ts ∧ s'.flags = s.flags := by
  have hmodify : (modify fun s : Reading => { s with tokens := ts } : Reader Unit).Meets s
      fun _ s' => s'.tokens = ts ∧ s'.flags = s.flags := ⟨rfl, rfl⟩
  unfold moveTo
  refine hmodify.bind fun _ s' h => ?_
  split
  · exact meets_get.bind fun _ _ _ => meets_failAt ..
  · exact h

/-- Moving on by one token takes it. -/
theorem meets_moveTo_tail {t : Token} {rest : List Token} (h : s.tokens = t :: rest) :
    (moveTo rest).Meets s fun _ s' => Took t s s' := by
  refine (meets_moveTo rest).mono ?_
  rintro _ s' ⟨rfl, hflags⟩
  exact ⟨h, hflags⟩

theorem meets_peek? : peek?.Meets s fun t s' => t = s.tokens.head? ∧ s' = s := ⟨rfl, rfl⟩

theorem meets_take? :
    take?.Meets s fun found s' =>
      (found = none ∧ s.tokens = [] ∧ s' = s) ∨ ∃ t, found = some t ∧ Took t s s' := by
  unfold take?
  refine meets_get.bind ?_
  rintro _ _ ⟨rfl, rfl⟩
  split
  · next htokens => exact .inl ⟨rfl, htokens, rfl⟩
  · next t rest htokens => exact (meets_moveTo_tail htokens).bind fun _ s' h => .inr ⟨t, rfl, h⟩

/-- The token at hand is taken if it is known. -/
theorem meets_discard_take? {t : Token} (h : s.tokens.head? = some t) :
    (discard take?).Meets s fun _ s' => Took t s s' := by
  have hbind : discard take? = (do let _ ← take?) := rfl
  rw [hbind]
  refine meets_take?.bind ?_
  rintro _ s' (⟨-, hnil, -⟩ | ⟨u, -, htook⟩)
  · rw [hnil] at h
    cases h
  · rw [htook.1] at h
    cases h
    exact htook

theorem meets_take (f : Flaw) : (take f).Meets s fun t s' => Took t s s' := by
  unfold take
  refine meets_take?.bind ?_
  rintro _ _ (⟨rfl, -, rfl⟩ | ⟨t, rfl, htook⟩)
  · exact meets_fail ..
  · exact htook

theorem meets_accept (c : CodePoint) :
    (accept c).Meets s fun b s' =>
      (b = false ∧ s.tokens.head? ≠ some (.char c) ∧ s' = s) ∨ (b = true ∧ Took (.char c) s s') := by
  unfold accept
  refine meets_get.bind ?_
  rintro _ _ ⟨rfl, rfl⟩
  split
  · next d rest htokens =>
    split
    · next hc => exact (meets_moveTo_tail htokens).bind fun _ s' h => .inr ⟨rfl, hc ▸ h⟩
    · next hc => exact .inl ⟨rfl, by simp [htokens, Ne.symm hc], rfl⟩
  · next hother =>
    refine .inl ⟨rfl, fun hhead => ?_, rfl⟩
    obtain ⟨rest, htokens⟩ := List.head?_eq_some_iff.mp hhead
    exact hother c rest htokens

theorem meets_accept_after (c : CodePoint) : (accept c).Meets s fun _ s' => After s s' := by
  refine (meets_accept c).mono ?_
  rintro _ _ (⟨-, -, rfl⟩ | ⟨-, htook⟩)
  · exact .refl _
  · exact htook.after

theorem meets_close (start : Nat) : (close start).Meets s fun _ s' => After s s' := by
  unfold close
  refine (meets_accept_after _).bind fun closed s' h => ?_
  split
  · exact h
  · exact meets_failAt ..

/-! ## Sets -/

theorem meets_setToken (start : Nat) : (setToken start).Meets s fun t s' => Took t s s' := by
  unfold setToken
  refine meets_take?.bind ?_
  rintro _ _ (⟨rfl, -, rfl⟩ | ⟨t, rfl, htook⟩)
  · exact meets_failAt ..
  · exact htook

section Signs

variable {c : CodePoint} (hl : c.isBasicLetter = false)

include hl

/-- A sign is not among letters. -/
theorem lookup_of_sign {γ : Type} {table : List (CodePoint × γ)}
    (htable : ∀ p ∈ table, p.1.isBasicLetter = true) : table.lookup c = none := by
  rw [List.lookup_eq_none_iff]
  rintro p hp
  have hne : c ≠ p.1 := by
    rintro rfl
    rw [htable p hp] at hl
    cases hl
  simpa using hne

theorem anchorOf?_of_sign : anchorOf? c = none := lookup_of_sign hl (by decide)

theorem categoryOf?_of_sign : categoryOf? c = none := by
  refine lookup_of_sign hl ?_
  simp only [List.forall_mem_cons]
  decide

/-- The one sign that stands for a control is the backslash, which stands for itself. -/
theorem controlOf?_of_sign : controlOf? c = none ∨ controlOf? c = some c := by
  have hsplit : controlOf? c =
      ((([('a', 7), ('f', 12), ('n', 10), ('r', 13), ('t', 9), ('v', 11)] : List (CodePoint × CodePoint)) ++
        [(CodePoint.backslash, 92)]).lookup c) := rfl
  rw [hsplit, List.lookup_append, lookup_of_sign hl (by decide), Option.none_or]
  by_cases hc : c = CodePoint.backslash
  · subst hc
    exact .inr rfl
  · have hne : (c == CodePoint.backslash) = false := by simpa using hc
    left
    rw [List.lookup_cons, hne]
    rfl

theorem pointEscape_of_sign : pointEscape c = pure c := by
  have hne : ∀ d : CodePoint, d.isBasicLetter = true → c ≠ d := by
    rintro d hd rfl
    rw [hd] at hl
    cases hl
  unfold pointEscape
  rw [if_neg (hne 'x' rfl), if_neg (hne 'u' rfl), if_neg (hne 'U' rfl), if_neg (hne 'N' rfl),
    if_neg (by simp [hl])]

variable (hd : c.isBasicDigit = false)

include hd

/-- A sign that is escaped stands for itself. -/
theorem setEscape_of_sign : setEscape c = pure (.single c) := by
  unfold setEscape
  rcases controlOf?_of_sign hl with hcontrol | hcontrol
  · have hb : c ≠ 'b' := by
      rintro rfl
      cases hl
    have hoctal : isOctal c = false := by
      refine Bool.eq_false_iff.mpr fun ho => ?_
      simp only [isOctal, Bool.and_eq_true, decide_eq_true_eq] at ho
      simp [CodePoint.isBasicDigit, ho.1, Nat.le_trans ho.2 (by decide : 55 ≤ 57)] at hd
    simp only [hcontrol, if_neg hb, categoryOf?_of_sign hl, hoctal, hd, pointEscape_of_sign hl]
    rfl
  · simp only [hcontrol]

theorem escape_of_sign : escape c = pure (.char c) := by
  unfold escape
  rcases controlOf?_of_sign hl with hcontrol | hcontrol
  · have hzero : c ≠ '0' := by
      rintro rfl
      cases hd
    simp only [anchorOf?_of_sign hl, categoryOf?_of_sign hl, hcontrol, if_neg hzero, hd,
      pointEscape_of_sign hl]
    rfl
  · simp only [anchorOf?_of_sign hl, categoryOf?_of_sign hl, hcontrol]

end Signs

theorem meets_setMember {t : Token} {rest : List Token} (h : t.IsPlain rest) :
    (setMember t).Meets s fun _ s' => s' = s := by
  cases t with
  | char c => rfl
  | escape c =>
    have hpure : setMember (.escape c) = pure (.single c) := setEscape_of_sign h.1 h.2
    rw [hpure]
    rfl
  | dangling => exact meets_fail ..

theorem meets_setItems (start fuel : Nat) {items : List SetItem} (hp : Plain s.tokens) :
    (setItems start items fuel).Meets s fun _ s' => After s s' := by
  induction fuel generalizing items s with
  | zero => exact meets_failAt ..
  | succ fuel ih =>
    unfold setItems
    refine (meets_setToken start).bind fun this s₁ htook => ?_
    obtain ⟨hthis, hp₁⟩ := htook.plain hp
    split
    · exact htook.after
    · refine (meets_setMember hthis).bind ?_
      rintro first _ rfl
      refine (meets_accept _).bind ?_
      rintro _ s₂ (⟨rfl, -, rfl⟩ | ⟨rfl, htook₂⟩)
      · exact (ih hp₁).mono fun _ _ h => htook.after.trans h
      · -- A range: its other end is the next token.
        have hafter₂ := htook.after.trans htook₂.after
        rw [if_pos rfl]
        refine (meets_setToken start).bind fun that s₃ htook₃ => ?_
        obtain ⟨hthat, hp₃⟩ := htook₃.plain (htook₂.plain hp₁).2
        have hafter₃ := hafter₂.trans htook₃.after
        split
        · exact hafter₃
        · refine (meets_setMember hthat).bind ?_
          rintro last _ rfl
          split
          · split
            · exact meets_fail ..
            · exact (ih hp₃).mono fun _ _ h => hafter₃.trans h
          · exact meets_fail ..

theorem meets_set (hp : Plain s.tokens) : set.Meets s fun _ s' => After s s' := by
  unfold set
  refine meets_place.bind ?_
  rintro here _ rfl
  refine (meets_accept_after _).bind fun negated s₁ h₁ => ?_
  refine meets_get.bind ?_
  rintro _ _ ⟨rfl, rfl⟩
  refine (meets_setItems _ _ (h₁.plain hp)).bind fun items s₂ h₂ => ?_
  split <;> exact h₁.trans h₂

/-! ## Loops -/

theorem meets_greed : greed.Meets s fun _ s' => After s s' := by
  unfold greed
  refine (meets_accept_after _).bind fun lazy s₁ h₁ => ?_
  split
  · exact h₁
  · refine (meets_accept_after _).bind fun possessive s₂ h₂ => ?_
    split <;> exact h₁.trans h₂

theorem meets_repeatLast (least : Nat) (most : Option Nat) (sign : Nat) (before : List Piece) :
    (repeatLast least most sign before).Meets s fun _ s' => After s s' := by
  cases before with
  | nil => exact meets_failAt ..
  | cons last earlier =>
    unfold repeatLast
    dsimp only
    cases last.unrepeatable? with
    | some f => exact (meets_failAt f sign fun _ _ => False).bind fun _ _ h => h.elim
    | none => exact meets_greed.bind fun _ _ h => h

/-- Signs of repetition other than a brace have no counts behind them. -/
theorem meets_repetition? {c : CodePoint}
    (h : c = CodePoint.query ∨ c = CodePoint.star ∨ c = CodePoint.plus) :
    (repetition? c).Meets s fun _ s' => s' = s := by
  rcases h with rfl | rfl | rfl <;> rfl

/-! ## Sequences and groups -/

theorem meets_skipLine {ts : List Token} (h : ts <:+ s.tokens) :
    (skipLine ts).Meets s fun _ s' => After s s' := by
  induction ts generalizing s with
  | nil => exact (meets_moveTo []).mono fun _ s' h' => ⟨h'.1 ▸ List.nil_suffix, h'.2⟩
  | cons t rest ih =>
    unfold skipLine
    refine (meets_moveTo rest).bind fun _ s₁ h₁ => ?_
    have hafter : After s s₁ := ⟨h₁.1 ▸ (List.suffix_cons t rest).trans h, h₁.2⟩
    split
    · exact hafter
    · exact (ih (h₁.1 ▸ List.suffix_refl _)).mono fun _ _ h₂ => hafter.trans h₂

/-- What stands behind an opening parenthesis: a group or a look ahead. -/
def OpensPlain (ts : List Token) : Prop :=
  ∃ d rest, ts = .char CodePoint.query :: .char d :: rest ∧ (d = CodePoint.colon ∨ d = CodePoint.bang)

/-- The alternatives, sequences and groups of a plain expression are read with `fuel`. -/
structure ReadsPlain (fuel : Nat) : Prop where
  alternatives : ∀ {verbose top before} {s : Reading}, Plain s.tokens →
    (alternatives fuel verbose top before).Meets s fun _ s' => After s s'
  sequence : ∀ {verbose start before} {s : Reading}, Plain s.tokens →
    (sequence fuel verbose start before).Meets s fun _ s' => After s s'
  parenthesis : ∀ {verbose start} {s : Reading}, Plain s.tokens → OpensPlain s.tokens →
    (parenthesis fuel verbose start).Meets s fun _ s' => After s s'
  body : ∀ {verbose start} {s : Reading}, Plain s.tokens →
    (body fuel verbose start).Meets s fun _ s' => After s s'

section Steps

variable {fuel : Nat} (ih : ReadsPlain fuel) {verbose : Bool}

include ih

theorem meets_alternatives_succ {top : Bool} {before : List (List (Node Atom))} (hp : Plain s.tokens) :
    (alternatives (fuel + 1) verbose top before).Meets s fun _ s' => After s s' := by
  unfold alternatives
  refine (ih.sequence hp).bind fun branch s₁ h₁ => ?_
  refine (meets_accept_after _).bind fun more s₂ h₂ => ?_
  have hafter := h₁.trans h₂
  split
  · refine meets_get.bind ?_
    rintro _ _ ⟨rfl, rfl⟩
    exact (ih.alternatives (hafter.plain hp)).mono fun _ _ h => hafter.trans h
  · split <;> exact hafter

theorem meets_body_succ {start : Nat} (hp : Plain s.tokens) :
    (body (fuel + 1) verbose start).Meets s fun _ s' => After s s' := by
  unfold body
  refine (ih.alternatives hp).bind fun items s₁ h₁ => ?_
  exact (meets_close start).bind fun _ _ h₂ => h₁.trans h₂

theorem meets_parenthesis_succ {start : Nat} (hp : Plain s.tokens) (ho : OpensPlain s.tokens) :
    (parenthesis (fuel + 1) verbose start).Meets s fun _ s' => After s s' := by
  obtain ⟨d, rest, htokens, hd⟩ := ho
  unfold parenthesis
  refine (meets_accept _).bind ?_
  rintro _ s₁ (⟨-, hhead, -⟩ | ⟨rfl, htook₁⟩)
  · -- A group that captures does not occur.
    exact absurd (congrArg List.head? htokens) hhead
  · refine (meets_take _).bind fun sign s₂ htook₂ => ?_
    have hsign : sign = .char d := by
      have h := htook₁.1.symm.trans htokens
      rw [htook₂.1] at h
      simpa using congrArg (List.head? ∘ List.tail) h
    have hp₂ := (htook₂.plain (htook₁.plain hp).2).2
    have hafter := htook₁.after.trans htook₂.after
    subst hsign
    -- Of the signs behind the question mark only these two are left, and flags are not among them.
    rcases hd with rfl | rfl
    · exact (ih.body hp₂).bind fun _ _ h => hafter.trans h
    · exact (ih.body hp₂).bind fun _ _ h => hafter.trans h

theorem meets_sequence_succ {start : Bool} {before : List Piece} (hp : Plain s.tokens) :
    (sequence (fuel + 1) verbose start before).Meets s fun _ s' => After s s' := by
  unfold sequence
  refine meets_peek?.bind ?_
  rintro _ s ⟨rfl, rfl⟩
  split
  · exact .refl _
  · next this hhead =>
    split
    · exact .refl _
    · refine (meets_discard_take? hhead).bind fun _ s₁ htook => ?_
      obtain ⟨hthis, hp₁⟩ := htook.plain hp
      -- Whatever the token stands for, the sequence goes on behind it.
      have hrest : ∀ {verbose start before s₂}, After s₁ s₂ →
          (sequence fuel verbose start before).Meets s₂ fun _ s' => After s s' :=
        fun h => (ih.sequence (h.plain hp₁)).mono fun _ _ h' => htook.after.trans (h.trans h')
      split
      · exact meets_fail ..
      · next c _ =>
        rw [escape_of_sign hthis.1 hthis.2]
        exact hrest (.refl _)
      · next c _ =>
        split
        · exact hrest (.refl _)
        split
        · refine meets_get.bind ?_
          rintro _ _ ⟨rfl, rfl⟩
          exact (meets_skipLine (List.suffix_refl _)).bind fun _ _ h => hrest h
        split
        · exact (meets_set hp₁).bind fun _ _ h => hrest h
        split
        · -- A sign of repetition; it is no brace, so it has no counts that could be too large.
          next hsign =>
          have hloop : c = CodePoint.query ∨ c = CodePoint.star ∨ c = CodePoint.plus := by
            simpa [or_assoc, hthis.1] using hsign
          refine meets_place.bind ?_
          rintro here _ rfl
          refine (meets_repetition? hloop).bind ?_
          rintro bounds _ rfl
          cases bounds with
          | none => exact hrest (.refl _)
          | some bounds => exact (meets_repeatLast ..).bind fun _ _ h => hrest h
        split
        · exact hrest (.refl _)
        split
        · exact hrest (.refl _)
        split
        · exact hrest (.refl _)
        split
        · -- A parenthesis: what is plain says what stands behind it.
          next hparen =>
          refine meets_place.bind ?_
          rintro here _ rfl
          refine (ih.parenthesis hp₁ (hthis.2 hparen)).bind fun opened s₂ h₂ => ?_
          cases opened with
          | piece p => exact hrest h₂
          | comment => exact hrest h₂
          | wholeFlags =>
            dsimp only
            split
            · refine meets_get.bind ?_
              rintro _ _ ⟨rfl, rfl⟩
              exact hrest h₂
            · exact meets_failAt ..
        · exact hrest (.refl _)

end Steps

theorem readsPlain (fuel : Nat) : ReadsPlain fuel := by
  induction fuel with
  | zero => exact ⟨fun _ => meets_fail .., fun _ => meets_fail .., fun _ _ => meets_fail .., fun _ => meets_fail ..⟩
  | succ fuel ih =>
    exact ⟨meets_alternatives_succ ih, meets_sequence_succ ih, meets_parenthesis_succ ih, meets_body_succ ih⟩

end Reader

/-! ## Whole expressions -/

/-- What is read from a plain expression keeps the flags given beside it. -/
theorem meets_read (flags : Flags) {t : Text} (hp : Plain (Token.ofText t)) (fuel : Nat) :
    Reader.Meets (do
        Reader.moveTo (Token.ofText t)
        Reader.alternatives fuel flags.verbose true [])
      { size := t.length, tokens := Token.ofText t, flags } fun _ s' => s'.flags = flags := by
  refine (Reader.meets_moveTo _).bind fun _ s₁ h₁ => ?_
  refine ((Reader.readsPlain fuel).alternatives (h₁.1 ▸ hp)).mono fun _ _ h₂ => ?_
  exact h₂.2.trans h₁.2

/-- Nothing but that an expression is malformed has been found. -/
def OnlyMalformed {α : Type} (x : Except Failure α) : Prop := ∀ f, x = .error f → f.IsMalformed

namespace OnlyMalformed

variable {α β : Type}

theorem pure (a : α) : OnlyMalformed (.ok a) := fun _ h => nomatch h

theorem throw (flaw : Flaw) (place : Option Nat) :
    OnlyMalformed (.error (.malformed flaw place) : Except Failure α) := by
  rintro _ ⟨⟩
  exact ⟨flaw, place, rfl⟩

theorem bind {x : Except Failure α} {f : α → Except Failure β} (hx : OnlyMalformed x)
    (hf : ∀ a, x = .ok a → OnlyMalformed (f a)) : OnlyMalformed (x >>= f) := by
  cases x with
  | error e =>
    rintro _ ⟨⟩
    exact hx e rfl
  | ok a => exact hf a rfl

end OnlyMalformed

/-- A plain expression with no choice of a character set beside it is read, or it is
    malformed. -/
theorem onlyMalformed_read {flags : Flags} {t : Text} (hp : Plain (Token.ofText t))
    (hflags : flags.ascii = false) : OnlyMalformed (read flags t) := by
  have hmeets := meets_read flags hp (8 * (Token.ofText t).length + 8)
  unfold read
  refine .bind ?_ fun found hfound => ?_
  · intro f hf
    unfold Reader.Meets at hmeets
    rw [hf] at hmeets
    exact hmeets
  · have hkept : found.2.flags = flags := by
      unfold Reader.Meets at hmeets
      rw [hfound] at hmeets
      exact hmeets
    have hsettled : settleFlags found.2.flags = .ok { flags with unicode := true } := by
      unfold settleFlags
      rw [hkept, hflags]
      rfl
    dsimp only
    rw [hsettled]
    refine OnlyMalformed.bind (.pure _) fun settled _ => ?_
    split
    · split
      · exact .throw _ _
      · exact .pure _
    · exact OnlyMalformed.throw _ _

/-- Settling the flags of a tree finds at most that it is malformed. -/
theorem onlyMalformed_settle (n : Node Atom) (flags : Flags) : OnlyMalformed (n.settle flags) := by
  induction n generalizing flags with
  | leaf a => exact .pure _
  | empty => exact .pure _
  | seq a b iha ihb => exact (iha flags).bind fun _ _ => (ihb flags).bind fun _ _ => .pure _
  | alt a b iha ihb => exact (iha flags).bind fun _ _ => (ihb flags).bind fun _ _ => .pure _
  | group n a ih => exact (ih flags).bind fun _ _ => .pure _
  | flagged on off a ih => exact ih _
  | loop g least most a ih =>
    unfold Node.settle
    split
    · exact .throw _ _
    · exact (ih flags).bind fun _ _ => .pure _
  | atomic a ih => exact (ih flags).bind fun _ _ => .pure _
  | ahead negated a ih => exact (ih flags).bind fun _ _ => .pure _
  | behind negated width a ih =>
    cases width with
    | none => exact .throw _ _
    | some w => exact (ih flags).bind fun _ _ => .pure _
  | ifGroup n a b iha ihb => exact (iha flags).bind fun _ _ => (ihb flags).bind fun _ _ => .pure _

/-- A plain expression compiles, or it is malformed: it has no count that is too large and
    no flags that exclude each other. -/
theorem onlyMalformed_compile {flags : Flags} {t : Text} (hp : Plain (Token.ofText t))
    (hflags : flags.ascii = false) : OnlyMalformed (compile flags t) := by
  unfold compile
  refine (onlyMalformed_read hp hflags).bind fun e _ => ?_
  exact (onlyMalformed_settle e.tree e.flags).bind fun _ _ => .pure _

end NoteAccess.Regex
