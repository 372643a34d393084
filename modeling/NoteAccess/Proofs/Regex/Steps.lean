/-
  NoteAccess.Proofs.Regex.Steps

  What reading comes to where the tokens at hand are known.  A step gives a value and leaves the
  tokens behind it, or it fails (`Gives`), and steps that do so can be put together (`Gives.bind`).
  For each form of an expression there is a lemma that says what reading it gives: for sets
  (`gives_set`), for what may stand in a sequence (`gives_sequence_char` and those behind it), for
  alternatives and for what opens with a parenthesis.
-/

import NoteAccess.Proofs.Regex.Reading

namespace NoteAccess.Regex

/-- The reading as it stands before the given tokens. -/
def Reading.facing (s : Reading) (ts : List Token) : Reading := { s with tokens := ts }

@[simp] theorem Reading.facing_facing (s : Reading) (ts us : List Token) :
    (s.facing ts).facing us = s.facing us := rfl

namespace Reader

/-! ## Steps -/

variable {α β : Type} {s : Reading} {t : Token} {ts rest : List Token}

/-- From a state, a step comes to a value and the tokens behind it, or else to a failure. -/
def Gives (x : Reader α) (s : Reading) : Option (α × List Token) → Prop
  | some (a, ts) => x.run s = .ok (a, s.facing ts)
  | none => ∃ f, x.run s = .error f

theorem gives_pure (a : α) : (pure a : Reader α).Gives (s.facing ts) (some (a, ts)) := rfl

/-- A step that fails ends the reading. -/
theorem Gives.fails {x : Reader α} {f : α → Reader β} (hx : x.Gives s none) : (x >>= f).Gives s none := by
  obtain ⟨e, he⟩ := hx
  refine ⟨e, ?_⟩
  rw [StateT.run_bind, he]
  rfl

/-- A step with a known value hands over to what follows it. -/
theorem Gives.then {x : Reader α} {f : α → Reader β} {a : α} {r : Option (β × List Token)}
    (hx : x.Gives s (some (a, ts))) (hf : (f a).Gives (s.facing ts) r) : (x >>= f).Gives s r := by
  have hrun : (x >>= f).run s = (f a).run (s.facing ts) := by
    rw [StateT.run_bind, show x.run s = .ok (a, s.facing ts) from hx]
    rfl
  unfold Gives at hf ⊢
  rw [hrun]
  exact hf

theorem Gives.bind {x : Reader α} {f : α → Reader β} {r : Option α} {next : α → Option (β × List Token)}
    (hx : x.Gives s (r.map (·, ts))) (hf : ∀ a, r = some a → (f a).Gives (s.facing ts) (next a)) :
    (x >>= f).Gives s (r.bind next) := by
  cases r with
  | none => exact Gives.fails hx
  | some a => exact Gives.then hx (hf a rfl)

/-- What follows a step makes one value of another. -/
theorem Gives.map {x : Reader α} {f : α → Reader β} {r : Option α} {g : α → β × List Token}
    (hx : x.Gives s (r.map (·, ts))) (hf : ∀ a, (f a).Gives (s.facing ts) (some (g a))) :
    (x >>= f).Gives s (r.map g) := by
  rw [Option.map_eq_bind]
  exact hx.bind fun a _ => hf a

theorem gives_fail (f : Flaw) (back : Nat) : (fail f back : Reader α).Gives s none := ⟨_, rfl⟩

theorem gives_get : (get : Reader Reading).Gives (s.facing ts) (some (s.facing ts, ts)) := rfl

theorem gives_place (s : Reading) (ts : List Token) : ∃ n, place.Gives (s.facing ts) (some (n, ts)) := ⟨_, rfl⟩

theorem gives_peek? : peek?.Gives (s.facing ts) (some (ts.head?, ts)) := rfl

/-- The expression does not end in a lone backslash here. -/
def Sound (ts : List Token) : Prop := ts.head? ≠ some .dangling

theorem sound_char {c : CodePoint} : Sound (.char c :: rest) := by simp [Sound]

theorem head?_char_ne {c d : CodePoint} (h : c ≠ d) : (Token.char c :: rest).head? ≠ some (.char d) :=
  fun hhead => h (Token.char.inj (Option.some.inj hhead))

theorem gives_moveTo (h : Sound ts) : (moveTo ts).Gives s (some ((), ts)) := by
  have hmodify : (modify fun s : Reading => { s with tokens := ts } : Reader Unit).Gives s (some ((), ts)) := rfl
  unfold moveTo
  refine hmodify.then ?_
  rw [if_neg h]
  exact gives_pure ()

theorem gives_take? (h : Sound rest) : take?.Gives (s.facing (t :: rest)) (some (some t, rest)) :=
  gives_get.then ((gives_moveTo h).then rfl)

theorem gives_discard_take? (h : Sound rest) :
    (discard take?).Gives (s.facing (t :: rest)) (some ((), rest)) := by
  have hbind : discard take? = (do let _ ← take?) := rfl
  rw [hbind]
  exact (gives_take? h).then (gives_pure ())

theorem gives_take (f : Flaw) (h : Sound rest) : (take f).Gives (s.facing (t :: rest)) (some (t, rest)) :=
  (gives_take? h).then rfl

theorem gives_accept (c : CodePoint) (h : Sound rest) :
    (accept c).Gives (s.facing (.char c :: rest)) (some (true, rest)) := by
  unfold accept
  refine gives_get.then ?_
  dsimp only [Reading.facing]
  rw [if_pos rfl]
  exact (gives_moveTo h).then rfl

theorem gives_accept_other {c : CodePoint} (h : ts.head? ≠ some (.char c)) :
    (accept c).Gives (s.facing ts) (some (false, ts)) := by
  unfold accept
  refine gives_get.then ?_
  dsimp only [Reading.facing]
  split
  · next d rest =>
    rw [if_neg fun hc => h (congrArg (fun c => some (Token.char c)) hc.symm)]
    exact gives_pure false
  · exact gives_pure false

theorem gives_close (start : Nat) (h : Sound rest) :
    (close start).Gives (s.facing (.char CodePoint.closeParen :: rest)) (some ((), rest)) :=
  (gives_accept _ h).then (gives_pure ())

/-! ## Sets -/

theorem gives_setToken (start : Nat) (h : Sound rest) :
    (setToken start).Gives (s.facing (t :: rest)) (some (t, rest)) :=
  (gives_take? h).then (gives_pure t)

/-- What the members of a set are read as: a set with a single code point is one by itself. -/
def setAtom (negated : Bool) (items : List SetItem) : Atom :=
  match items.eraseDups with
  | [.single c] => if negated then .notChar c else .char c
  | items => .set negated items

/-- A set, once it is known whether it is negated. -/
theorem gives_set {us : List Token} {negated : Bool} {items : Option (List SetItem)}
    (hcaret : (accept CodePoint.caret).Gives (s.facing us) (some (negated, ts)))
    (h : ∀ start, (setItems start [] (ts.length + 1)).Gives (s.facing ts) (items.map (·, rest))) :
    set.Gives (s.facing us) (items.map fun items => (setAtom negated items, rest)) := by
  obtain ⟨here, hplace⟩ := gives_place s us
  unfold set
  -- Where the set begins only matters to the texts of failures.
  refine hplace.then ?_
  refine hcaret.then ?_
  refine gives_get.then ?_
  refine (h (here - 1)).map fun items => ?_
  unfold setAtom
  rcases items.eraseDups with _ | ⟨_ | _ | _, _ | _⟩ <;> exact gives_pure _

/-! ## Sequences -/

section Sequences

variable {fuel : Nat} {start : Bool} {before : List Piece} {c : CodePoint}
  {r : Option (List (Node Atom) × List Token)}

/-- A sequence ends with the expression, before a bar and before a closing parenthesis. -/
theorem gives_sequence_end (h : ∀ t ∈ ts.head?, t = .char CodePoint.bar ∨ t = .char CodePoint.closeParen) :
    (sequence (fuel + 1) false start before).Gives (s.facing ts)
      (some ((before.reverse.map Piece.items).flatten, ts)) := by
  unfold sequence
  refine gives_peek?.then ?_
  split
  · exact gives_pure _
  · next t hhead =>
    have hend : (t = .char CodePoint.bar || t = .char CodePoint.closeParen) = true := by simpa using h t hhead
    rw [if_pos hend]
    exact gives_pure _

/-- A sign that is escaped stands for itself. -/
theorem gives_sequence_escape (hl : c.isBasicLetter = false) (hd : c.isBasicDigit = false) (hrest : Sound rest)
    (h : (sequence fuel false start (.single (.leaf (.char c)) :: before)).Gives (s.facing rest) r) :
    (sequence (fuel + 1) false start before).Gives (s.facing (.escape c :: rest)) r := by
  unfold sequence
  refine gives_peek?.then ?_
  dsimp only [List.head?_cons]
  rw [if_neg (by simp)]
  refine (gives_discard_take? hrest).then ?_
  rw [escape_of_sign hl hd]
  exact h

/-- The signs that do not stand for themselves outside of a set. -/
def signs : List CodePoint :=
  [CodePoint.bar, CodePoint.closeParen, CodePoint.openBracket, CodePoint.query, CodePoint.star, CodePoint.plus,
    CodePoint.openBrace, CodePoint.dot, CodePoint.caret, CodePoint.dollar, CodePoint.openParen]

/-- Anything else stands for itself. -/
theorem gives_sequence_char (hc : c ∉ signs) (hrest : Sound rest)
    (h : (sequence fuel false start (.single (.leaf (.char c)) :: before)).Gives (s.facing rest) r) :
    (sequence (fuel + 1) false start before).Gives (s.facing (.char c :: rest)) r := by
  simp only [signs, List.mem_cons, List.not_mem_nil, or_false, not_or] at hc
  obtain ⟨hbar, hclose, hbracket, hquery, hstar, hplus, hbrace, hdot, hcaret, hdollar, hparen⟩ := hc
  unfold sequence
  refine gives_peek?.then ?_
  dsimp only [List.head?_cons]
  rw [if_neg (by simp [hbar, hclose])]
  refine (gives_discard_take? hrest).then ?_
  rw [if_neg (by simp), if_neg (by simp), if_neg hbracket, if_neg (by simp [hquery, hstar, hplus, hbrace]),
    if_neg hdot, if_neg hcaret, if_neg hdollar, if_neg hparen]
  exact h

/-- A dot stands for any code point. -/
theorem gives_sequence_dot (hrest : Sound rest)
    (h : (sequence fuel false start (.single (.leaf .any) :: before)).Gives (s.facing rest) r) :
    (sequence (fuel + 1) false start before).Gives (s.facing (.char CodePoint.dot :: rest)) r := by
  unfold sequence
  refine gives_peek?.then ?_
  refine (gives_discard_take? hrest).then ?_
  exact h

/-- A bracket opens a set. -/
theorem gives_sequence_bracket (hts : Sound ts)
    (h : (set >>= fun a => sequence fuel false start (.single (.leaf a) :: before)).Gives (s.facing ts) r) :
    (sequence (fuel + 1) false start before).Gives (s.facing (.char CodePoint.openBracket :: ts)) r := by
  unfold sequence
  refine gives_peek?.then ?_
  refine (gives_discard_take? hts).then ?_
  exact h

/-- No sign that says how a loop chooses comes next. -/
def Settled (ts : List Token) : Prop :=
  Sound ts ∧ ts.head? ≠ some (.char CodePoint.query) ∧ ts.head? ≠ some (.char CodePoint.plus)

theorem settled_char (hquery : c ≠ CodePoint.query) (hplus : c ≠ CodePoint.plus) : Settled (.char c :: rest) :=
  ⟨sound_char, head?_char_ne hquery, head?_char_ne hplus⟩

/-- The last part is repeated. -/
theorem gives_repeatLast {last : Piece} {least : Nat} {most : Option Nat} {sign : Nat}
    (hlast : last.unrepeatable? = none) (hrest : Settled rest) :
    (repeatLast least most sign (last :: before)).Gives (s.facing rest)
      (some (.single (.loop .greedy least most (Node.ofList last.items)) :: before, rest)) := by
  have hgreed : greed.Gives (s.facing rest) (some (.greedy, rest)) :=
    (gives_accept_other hrest.2.1).then ((gives_accept_other hrest.2.2).then rfl)
  unfold repeatLast
  dsimp only
  rw [hlast]
  exact hgreed.then rfl

/-- What a sign of repetition stands for, apart from braces. -/
def bounds : List (CodePoint × Nat × Option Nat) :=
  [(CodePoint.query, 0, some 1), (CodePoint.star, 0, none), (CodePoint.plus, 1, none)]

/-- A sign of repetition repeats the part before it, greedily. -/
theorem gives_sequence_repeat {least : Nat} {most : Option Nat} {last : Piece} (hc : (c, least, most) ∈ bounds)
    (hlast : last.unrepeatable? = none) (hrest : Settled rest)
    (h : (sequence fuel false start (.single (.loop .greedy least most (Node.ofList last.items)) :: before)).Gives
      (s.facing rest) r) :
    (sequence (fuel + 1) false start (last :: before)).Gives (s.facing (.char c :: rest)) r := by
  obtain ⟨here, hplace⟩ := gives_place s rest
  simp only [bounds, List.mem_cons, List.not_mem_nil, or_false, Prod.mk.injEq] at hc
  unfold sequence
  refine gives_peek?.then ?_
  rcases hc with ⟨rfl, rfl, rfl⟩ | ⟨rfl, rfl, rfl⟩ | ⟨rfl, rfl, rfl⟩
  all_goals
    refine (gives_discard_take? hrest.1).then ?_
    refine hplace.then ?_
    exact (gives_repeatLast hlast hrest).then h

/-- A parenthesis opens a group. -/
theorem gives_sequence_paren {p : Piece}
    (hparen : ∀ opening, (parenthesis fuel false opening).Gives (s.facing ts) (some (.piece p, rest)))
    (hts : Sound ts) (h : (sequence fuel false start (p :: before)).Gives (s.facing rest) r) :
    (sequence (fuel + 1) false start before).Gives (s.facing (.char CodePoint.openParen :: ts)) r := by
  obtain ⟨here, hplace⟩ := gives_place s ts
  unfold sequence
  refine gives_peek?.then ?_
  refine (gives_discard_take? hts).then ?_
  refine hplace.then ?_
  exact (hparen (here - 1)).then h

/-- If the group fails, so does the sequence. -/
theorem gives_sequence_paren_none
    (hparen : ∀ opening, (parenthesis fuel false opening).Gives (s.facing ts) none) (hts : Sound ts) :
    (sequence (fuel + 1) false start before).Gives (s.facing (.char CodePoint.openParen :: ts)) none := by
  obtain ⟨here, hplace⟩ := gives_place s ts
  unfold sequence
  refine gives_peek?.then ?_
  refine (gives_discard_take? hts).then ?_
  refine hplace.then ?_
  exact (hparen (here - 1)).fails

end Sequences

/-! ## Groups -/

/-- What alternatives are read as: a single one as it is, and several as a choice. -/
def alternation : List (List (Node Atom)) → List (Node Atom)
  | [only] => only
  | branches => choice branches ((branches.getLast?.getD []).length + 1)

section Groups

variable {fuel : Nat} {top : Bool} {before : List (List (Node Atom))} (items : Option (List (Node Atom)))

/-- The last alternative. -/
theorem gives_alternatives_last
    (hseq : (sequence fuel false (top && before.isEmpty) []).Gives (s.facing ts) (items.map (·, rest)))
    (hrest : rest.head? ≠ some (.char CodePoint.bar)) :
    (alternatives (fuel + 1) false top before).Gives (s.facing ts)
      (items.map fun branch => (alternation (branch :: before).reverse, rest)) := by
  unfold alternatives
  refine hseq.map fun branch => ?_
  refine (gives_accept_other hrest).then ?_
  cases before with
  | nil => exact gives_pure _
  | cons b before =>
    have hchoice : alternation (branch :: b :: before).reverse =
        choice (branch :: b :: before).reverse (branch.length + 1) := by
      rw [alternation]
      · simp
      · intro only honly
        have hlength := congrArg List.length honly
        simp at hlength
    rw [hchoice]
    exact gives_pure _

/-- An alternative in front of a bar. -/
theorem gives_alternatives_bar {next : List (Node Atom) → Option (List (Node Atom) × List Token)}
    (hseq : (sequence fuel false false []).Gives (s.facing ts) (items.map (·, .char CodePoint.bar :: rest)))
    (hrest : Sound rest)
    (h : ∀ branch, items = some branch →
      (alternatives fuel false false (branch :: before)).Gives (s.facing rest) (next branch)) :
    (alternatives (fuel + 1) false false before).Gives (s.facing ts) (items.bind next) := by
  unfold alternatives
  refine hseq.bind fun branch hbranch => ?_
  refine (gives_accept _ hrest).then ?_
  exact gives_get.then (h branch hbranch)

/-- What stands in parentheses, with the closing one behind it. -/
theorem gives_body {start : Nat}
    (h : (alternatives fuel false false []).Gives (s.facing ts) (items.map (·, .char CodePoint.closeParen :: rest)))
    (hrest : Sound rest) :
    (body (fuel + 1) false start).Gives (s.facing ts) (items.map (·, rest)) := by
  unfold body
  exact h.map fun items => (gives_close start hrest).then (gives_pure items)

/-- A group that does not capture. -/
theorem gives_parenthesis_colon {start : Nat}
    (h : (body fuel false start).Gives (s.facing ts) (items.map (·, rest))) (hts : Sound ts) :
    (parenthesis (fuel + 1) false start).Gives (s.facing (.char CodePoint.query :: .char CodePoint.colon :: ts))
      (items.map fun items => (.piece ⟨true, items⟩, rest)) := by
  unfold parenthesis
  refine (gives_accept _ sound_char).then ?_
  refine (gives_take _ hts).then ?_
  exact h.map fun items => gives_pure _

/-- A look ahead for what must not follow. -/
theorem gives_parenthesis_bang {start : Nat}
    (h : (body fuel false start).Gives (s.facing ts) (items.map (·, rest))) (hts : Sound ts) :
    (parenthesis (fuel + 1) false start).Gives (s.facing (.char CodePoint.query :: .char CodePoint.bang :: ts))
      (items.map fun items => (.piece (.single (.ahead true (Node.ofList items))), rest)) := by
  unfold parenthesis
  refine (gives_accept _ sound_char).then ?_
  refine (gives_take _ hts).then ?_
  exact h.map fun items => gives_pure _

end Groups

end Reader

end NoteAccess.Regex
