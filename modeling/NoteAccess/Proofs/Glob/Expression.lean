/-
  NoteAccess.Proofs.Glob.Expression

  How the regular expression of a glob is read.  The escapes of a part are read as the code points
  that they stand for (`ofText_source`), so a part is read as its trees (`Fragment.nodes?`,
  `gives_sequence_fragment`), up to where the next one begins.  The whole expression is a choice
  between the trees of its alternatives (`read_wholeSource`).
-/

import NoteAccess.Proofs.Glob.Source
import NoteAccess.Proofs.Glob.Spread
import NoteAccess.Proofs.Glob.Expansion
import NoteAccess.Proofs.Regex.Steps

namespace NoteAccess.Glob

open Regex Regex.Reader

/-! ## Tokens -/

/-- The token of a code point that stands for itself. -/
def token (c : CodePoint) : Token := if specials.contains c then .escape c else .char c

/-- The token of a code point in a class, where a hyphen makes ranges. -/
def bodyToken (c : CodePoint) : Token := if c = CodePoint.minus then .char c else token c

/-- Code points that stand for themselves, each by itself. -/
def chars (u : Text) : List Token := u.map .char

/-- The tokens of a part. -/
def Fragment.tokens : Fragment → List Token
  | literal c => [token c]
  | one => chars "[^/]"
  | run => chars "[^/]*"
  | oneOf body => chars "(?!/)[" ++ (body.map bodyToken ++ chars "]")
  | noneOf body => chars "[^" ++ ((negatedBody body).map bodyToken ++ chars "]")
  | separator => chars "/"
  | anything => chars ".*"
  | folders => chars "(?:.*/)?"
  | below => chars "(?:/.*)?"

theorem ofText_chars {u : Text} (hu : CodePoint.backslash ∉ u) (t : Text) :
    Token.ofText (u ++ t) = chars u ++ Token.ofText t := by
  induction u with
  | nil => rfl
  | cons c u ih =>
    rw [List.mem_cons, not_or] at hu
    rw [List.cons_append, PlainText.ofText_cons (Ne.symm hu.1), ih hu.2]
    rfl

theorem ofText_escaped (c : CodePoint) (t : Text) : Token.ofText (escaped c ++ t) = token c :: Token.ofText t := by
  unfold escaped token
  split
  · exact PlainText.ofText_escape c t
  · next hc =>
    refine PlainText.ofText_cons ?_ t
    rintro rfl
    exact hc rfl

theorem ofText_escapedBody (body t : Text) :
    Token.ofText (escapedBody body ++ t) = body.map bodyToken ++ Token.ofText t := by
  induction body with
  | nil => rfl
  | cons c body ih =>
    have hcons : escapedBody (c :: body) = (if c = CodePoint.minus then [c] else escaped c) ++ escapedBody body :=
      List.flatMap_cons ..
    rw [hcons, List.append_assoc, List.map_cons, List.cons_append, bodyToken]
    split
    · next hc =>
      rw [List.singleton_append, PlainText.ofText_cons (hc ▸ by decide), ih]
    · rw [ofText_escaped, ih]

theorem ofText_source (f : Fragment) (t : Text) : Token.ofText (f.source ++ t) = f.tokens ++ Token.ofText t := by
  cases f with
  | literal c => exact ofText_escaped c t
  | one => exact ofText_chars (u := "[^/]") (by decide) t
  | run => exact ofText_chars (u := "[^/]*") (by decide) t
  | separator => exact ofText_chars (u := "/") (by decide) t
  | anything => exact ofText_chars (u := ".*") (by decide) t
  | folders => exact ofText_chars (u := "(?:.*/)?") (by decide) t
  | below => exact ofText_chars (u := "(?:/.*)?") (by decide) t
  | oneOf body =>
    have hsource : (Fragment.oneOf body).source = "(?!/)[" ++ escapedBody body ++ "]" := rfl
    rw [hsource, List.append_assoc, List.append_assoc, ofText_chars (by decide), ofText_escapedBody,
      ofText_chars (by decide), Fragment.tokens, List.append_assoc, List.append_assoc]
  | noneOf body =>
    have hsource : (Fragment.noneOf body).source = "[^" ++ escapedBody (negatedBody body) ++ "]" := rfl
    rw [hsource, List.append_assoc, List.append_assoc, ofText_chars (by decide), ofText_escapedBody,
      ofText_chars (by decide), Fragment.tokens, List.append_assoc, List.append_assoc]

/-! ## Classes -/

/-- The members of a class, if its ranges are in order. -/
def classItems? : Text → Option (List SetItem)
  | [] => some []
  | [c] => some [.single c]
  | [c, d] => some [.single c, .single d]
  | c :: d :: e :: rest =>
    if d = CodePoint.minus then
      if e < c then none else (classItems? rest).map (.range c e :: ·)
    else (classItems? (d :: e :: rest)).map (.single c :: ·)

theorem token_ne_char {c d : CodePoint} (hd : d ∈ specials) : token c ≠ .char d := by
  unfold token
  split
  · exact nofun
  · next hc =>
    rintro h
    rw [Token.char.inj h] at hc
    exact hc (List.contains_iff_mem.mpr hd)

theorem bodyToken_ne_char {c d : CodePoint} (hd : d ∈ specials) (hminus : d ≠ CodePoint.minus) :
    bodyToken c ≠ .char d := by
  unfold bodyToken
  split
  · next hc => exact fun h => hminus (Token.char.inj h ▸ hc)
  · exact token_ne_char hd

theorem bodyToken_ne_close {c : CodePoint} : bodyToken c ≠ .char CodePoint.closeBracket :=
  bodyToken_ne_char (by decide) (by decide)

theorem bodyToken_eq_minus {c : CodePoint} : bodyToken c = .char CodePoint.minus ↔ c = CodePoint.minus := by
  unfold bodyToken
  split
  · next hc => exact iff_of_true (congrArg Token.char hc) hc
  · next hc => exact iff_of_false (token_ne_char (by decide)) hc

theorem token_ne_dangling (c : CodePoint) : token c ≠ .dangling := by
  unfold token
  split <;> exact nofun

theorem bodyToken_ne_dangling (c : CodePoint) : bodyToken c ≠ .dangling := by
  unfold bodyToken
  split
  · exact nofun
  · exact token_ne_dangling c

/-- A sign is neither a letter nor a digit. -/
theorem isSign_of_mem {c : CodePoint} (h : c ∈ specials) : c.isBasicLetter = false ∧ c.isBasicDigit = false := by
  have hsigns : ∀ d ∈ specials, d.isBasicLetter = false ∧ d.isBasicDigit = false := by decide
  exact hsigns c h

theorem setMember_bodyToken (c : CodePoint) : setMember (bodyToken c) = pure (.single c) := by
  unfold bodyToken
  split
  · rfl
  · unfold token
    split
    · next hc =>
      obtain ⟨hl, hd⟩ := isSign_of_mem (List.contains_iff_mem.mp hc)
      exact setEscape_of_sign hl hd
    · rfl

theorem sound_body (body : Text) {rest : List Token} (hrest : Sound rest) : Sound (body.map bodyToken ++ rest) := by
  cases body with
  | nil => exact hrest
  | cons c body => exact fun h => bodyToken_ne_dangling c (Option.some.inj h)

section Sets

variable {s : Reading} {rest : List Token} {fuel start : Nat} {items : List SetItem}
  {r : Option (List SetItem × List Token)}

/-- The closing bracket ends a set that has members. -/
theorem gives_setItems_end (hitems : items ≠ []) (hrest : Sound rest) :
    (setItems start items (fuel + 1)).Gives (s.facing (.char CodePoint.closeBracket :: rest))
      (some (items.reverse, rest)) := by
  unfold setItems
  refine (gives_setToken start hrest).then ?_
  rw [if_pos (by simpa using hitems)]
  exact gives_pure _

/-- A code point without a hyphen behind it is a member by itself. -/
theorem gives_setItems_single {c : CodePoint} (hrest : Sound rest)
    (hminus : rest.head? ≠ some (.char CodePoint.minus))
    (h : (setItems start (.single c :: items) fuel).Gives (s.facing rest) r) :
    (setItems start items (fuel + 1)).Gives (s.facing (bodyToken c :: rest)) r := by
  unfold setItems
  refine (gives_setToken start hrest).then ?_
  rw [if_neg (by simp [bodyToken_ne_close]), setMember_bodyToken]
  refine (gives_pure _).then ?_
  exact (gives_accept_other hminus).then h

/-- A hyphen at the end of a set is a member. -/
theorem gives_setItems_minus {c : CodePoint} (hrest : Sound rest) :
    (setItems start items (fuel + 1)).Gives
      (s.facing (bodyToken c :: .char CodePoint.minus :: .char CodePoint.closeBracket :: rest))
      (some (items.reverse ++ [.single c, .single CodePoint.minus], rest)) := by
  unfold setItems
  refine (gives_setToken start sound_char).then ?_
  rw [if_neg (by simp [bodyToken_ne_close]), setMember_bodyToken]
  refine (gives_pure _).then ?_
  refine (gives_accept _ sound_char).then ?_
  refine (gives_setToken start hrest).then ?_
  have hitems : (SetItem.single CodePoint.minus :: .single c :: items).reverse =
      items.reverse ++ [.single c, .single CodePoint.minus] := by simp
  rw [if_pos rfl, hitems]
  exact gives_pure _

/-- Two code points with a hyphen between them are the ends of a range. -/
theorem gives_setItems_range {c e : CodePoint} (hrest : Sound rest)
    (h : c ≤ e → (setItems start (.range c e :: items) fuel).Gives (s.facing rest) r) :
    (setItems start items (fuel + 1)).Gives
      (s.facing (bodyToken c :: .char CodePoint.minus :: bodyToken e :: rest)) (if e < c then none else r) := by
  unfold setItems
  refine (gives_setToken start sound_char).then ?_
  rw [if_neg (by simp [bodyToken_ne_close]), setMember_bodyToken]
  refine (gives_pure _).then ?_
  refine (gives_accept _ (by simp [Sound, bodyToken_ne_dangling])).then ?_
  refine (gives_setToken start hrest).then ?_
  rw [if_neg (by simp [bodyToken_ne_close]), setMember_bodyToken]
  refine (gives_pure _).then ?_
  dsimp only
  split
  · exact gives_fail _ _
  · next hlt => exact h (Nat.not_lt.mp hlt)

/-- The members of a class are read up to its closing bracket. -/
theorem gives_setItems (body : Text) (hne : items = [] → body ≠ []) (hfuel : body.length < fuel) (hrest : Sound rest) :
    (setItems start items fuel).Gives (s.facing (body.map bodyToken ++ .char CodePoint.closeBracket :: rest))
      ((classItems? body).map fun found => (items.reverse ++ found, rest)) := by
  have hend : Sound (.char CodePoint.closeBracket :: rest) := sound_char
  -- The last member, behind others.
  have hlast : ∀ c items n, (setItems start items (n + 2)).Gives
      (s.facing (bodyToken c :: .char CodePoint.closeBracket :: rest)) (some (items.reverse ++ [.single c], rest)) := by
    intro c items n
    refine gives_setItems_single hend (head?_char_ne (by decide)) ?_
    rw [← List.reverse_cons]
    exact gives_setItems_end (List.cons_ne_nil _ _) hrest
  -- The cases are those of the members: one by itself, or two with a hyphen between them.
  fun_induction classItems? body generalizing items fuel with
  | case1 =>
    obtain ⟨n, rfl⟩ := Nat.exists_eq_add_one.mpr hfuel
    rw [Option.map_some, List.append_nil]
    exact gives_setItems_end (fun hnil => hne hnil rfl) hrest
  | case2 c =>
    obtain ⟨n, rfl⟩ := Nat.exists_eq_add_of_le' hfuel
    exact hlast c items n
  | case3 c d =>
    obtain ⟨n, rfl⟩ := Nat.exists_eq_add_of_le' hfuel
    by_cases hd : d = CodePoint.minus
    · subst hd
      exact gives_setItems_minus hrest
    · have hsingles := hlast d (.single c :: items) n
      rw [List.reverse_cons, List.append_assoc] at hsingles
      refine gives_setItems_single ?_ ?_ hsingles
      · exact sound_body [d] hend
      · exact fun h => hd (bodyToken_eq_minus.mp (Option.some.inj h))
  | case4 c e rest' hlt =>
    obtain ⟨n, rfl⟩ := Nat.exists_eq_add_of_le' hfuel
    have hrange : (setItems start items (n + (rest'.length + 3) + 1)).Gives
        (s.facing (bodyToken c :: .char CodePoint.minus :: bodyToken e ::
          (rest'.map bodyToken ++ .char CodePoint.closeBracket :: rest)))
        (if e < c then none else none) :=
      gives_setItems_range (sound_body rest' hend) fun hle => absurd hlt (Nat.not_lt.mpr hle)
    rw [if_pos hlt] at hrange
    exact hrange
  | case5 c e rest' hge ih =>
    obtain ⟨n, rfl⟩ := Nat.exists_eq_add_of_le' hfuel
    have hbehind : (setItems start (.range c e :: items) (n + (rest'.length + 3))).Gives
        (s.facing (rest'.map bodyToken ++ .char CodePoint.closeBracket :: rest))
        ((classItems? rest').map fun found => ((SetItem.range c e :: items).reverse ++ found, rest)) :=
      ih nofun (by omega)
    have hrange := gives_setItems_range (c := c) (sound_body rest' hend) fun _ => hbehind
    rw [if_neg hge, ← bodyToken_eq_minus.mpr rfl] at hrange
    simpa [Function.comp_def, Nat.add_assoc] using hrange
  | case6 c d e rest' hd ih =>
    obtain ⟨n, rfl⟩ := Nat.exists_eq_add_of_le' hfuel
    have hbehind : (setItems start (.single c :: items) (n + (rest'.length + 3))).Gives
        (s.facing ((d :: e :: rest').map bodyToken ++ .char CodePoint.closeBracket :: rest))
        ((classItems? (d :: e :: rest')).map fun found => ((SetItem.single c :: items).reverse ++ found, rest)) :=
      ih nofun (by rw [List.length_cons, List.length_cons]; omega)
    have hsingle := gives_setItems_single (sound_body (d :: e :: rest') hend)
      (fun h => hd (bodyToken_eq_minus.mp (Option.some.inj h))) hbehind
    simpa [Function.comp_def, Nat.add_assoc] using hsingle

theorem body_length_lt (body : Text) (rest : List Token) :
    body.length < (body.map bodyToken ++ rest).length + 1 := by
  rw [List.length_append, List.length_map]
  omega

/-- A class that is not negated. -/
theorem gives_set_class (body : Text) (hne : body ≠ []) (hrest : Sound rest) :
    set.Gives (s.facing (body.map bodyToken ++ .char CodePoint.closeBracket :: rest))
      (((classItems? body).map (setAtom false)).map (·, rest)) := by
  obtain ⟨c, tail, rfl⟩ := List.exists_cons_of_ne_nil hne
  have hcaret : ∀ us : List Token, (accept CodePoint.caret).Gives (s.facing (bodyToken c :: us))
      (some (false, bodyToken c :: us)) :=
    fun us => gives_accept_other fun h => bodyToken_ne_char (by decide) (by decide) (Option.some.inj h)
  rw [Option.map_map]
  exact gives_set (hcaret _) fun start => gives_setItems (c :: tail) (fun _ => hne) (body_length_lt _ _) hrest

/-- A negated class. -/
theorem gives_set_negated (body : Text) (hne : body ≠ []) (hrest : Sound rest) :
    set.Gives (s.facing (.char CodePoint.caret :: (body.map bodyToken ++ .char CodePoint.closeBracket :: rest)))
      (((classItems? body).map (setAtom true)).map (·, rest)) := by
  have hsound : Sound (body.map bodyToken ++ .char CodePoint.closeBracket :: rest) :=
    sound_body body sound_char
  rw [Option.map_map]
  exact gives_set (gives_accept _ hsound) fun start => gives_setItems body (fun _ => hne) (body_length_lt _ _) hrest

end Sets

/-! ## Parts -/

/-- The trees of a part, if its class is in order. -/
def Fragment.nodes? : Fragment → Option (List (Node Atom))
  | literal c => some [.leaf (.char c)]
  | one => some [.leaf (.notChar CodePoint.slash)]
  | run => some [.loop .greedy 0 none (.leaf (.notChar CodePoint.slash))]
  | oneOf body => (classItems? body).map fun items =>
      [.ahead true (.leaf (.char CodePoint.slash)), .leaf (setAtom false items)]
  | noneOf body => (classItems? (negatedBody body)).map fun items => [.leaf (setAtom true items)]
  | separator => some [.leaf (.char CodePoint.slash)]
  | anything => some [.loop .greedy 0 none (.leaf .any)]
  | folders => some
      [.loop .greedy 0 (some 1) (.seq (.loop .greedy 0 none (.leaf .any)) (.leaf (.char CodePoint.slash)))]
  | below => some
      [.loop .greedy 0 (some 1) (.seq (.leaf (.char CodePoint.slash)) (.loop .greedy 0 none (.leaf .any)))]

/-- How many steps of a sequence read the part. -/
def Fragment.steps : Fragment → Nat
  | literal _ | one | noneOf _ | separator => 1
  | run | oneOf _ | anything | folders | below => 2

/-- A class has a body. -/
def Fragment.HasBody : Fragment → Prop
  | oneOf body => body ≠ []
  | _ => True

section Parts

variable {s : Reading} {rest : List Token} {fuel : Nat} {start : Bool} {before : List Piece}
  {r : Option (List (Node Atom) × List Token)} {next : List (Node Atom) → Option (List (Node Atom) × List Token)}

theorem gives_sequence_token {c : CodePoint} (hrest : Sound rest)
    (h : (sequence fuel false start (.single (.leaf (.char c)) :: before)).Gives (s.facing rest) r) :
    (sequence (fuel + 1) false start before).Gives (s.facing (token c :: rest)) r := by
  unfold token
  split
  · next hc =>
    obtain ⟨hl, hd⟩ := isSign_of_mem (List.contains_iff_mem.mp hc)
    exact gives_sequence_escape hl hd hrest h
  · next hc =>
    have hsigns : ∀ d ∈ signs, d ∈ specials := by decide
    exact gives_sequence_char (fun hmem => hc (List.contains_iff_mem.mpr (hsigns c hmem))) hrest h

/-- The set of all code points but the separator. -/
theorem gives_sequence_one (hrest : Sound rest)
    (h : (sequence fuel false start (.single (.leaf (.notChar CodePoint.slash)) :: before)).Gives (s.facing rest) r) :
    (sequence (fuel + 1) false start before).Gives (s.facing (chars "[^/]" ++ rest)) r := by
  have hset : set.Gives (s.facing (chars "^/]" ++ rest)) (some (.notChar CodePoint.slash, rest)) :=
    gives_set_negated [CodePoint.slash] (by decide) hrest
  exact gives_sequence_bracket sound_char (hset.then h)

/-- Any text. -/
theorem gives_sequence_anything (hrest : Settled rest)
    (h : (sequence fuel false start (.single (.loop .greedy 0 none (.leaf .any)) :: before)).Gives
      (s.facing rest) r) :
    (sequence (fuel + 2) false start before).Gives (s.facing (.char CodePoint.dot :: .char CodePoint.star :: rest)) r :=
  gives_sequence_dot sound_char (gives_sequence_repeat (by decide) rfl hrest h)

/-- An optional group. -/
theorem gives_sequence_optional (inner : List Token) (items : List (Node Atom))
    (hinner : ∀ n rest, Sound rest → (sequence (n + 4) false false []).Gives
      (s.facing (inner ++ .char CodePoint.closeParen :: rest)) (some (items, .char CodePoint.closeParen :: rest)))
    (hsound : inner.head? ≠ some .dangling) (hrest : Settled rest)
    (h : (sequence (fuel + 6) false start (.single (.loop .greedy 0 (some 1) (Node.ofList items)) :: before)).Gives
      (s.facing rest) r) :
    (sequence (fuel + 8) false start before).Gives
      (s.facing (chars "(?:" ++ (inner ++ (chars ")?" ++ rest)))) r := by
  have hquery : Sound (.char CodePoint.query :: rest) := sound_char
  have htokens : Sound (inner ++ (.char CodePoint.closeParen :: .char CodePoint.query :: rest)) := by
    cases inner with
    | nil => exact sound_char
    | cons t inner => exact hsound
  have halternatives : (alternatives (fuel + 5) false false []).Gives
      (s.facing (inner ++ (.char CodePoint.closeParen :: .char CodePoint.query :: rest)))
      (some (items, .char CodePoint.closeParen :: .char CodePoint.query :: rest)) :=
    gives_alternatives_last (some items) (hinner fuel _ hquery) (head?_char_ne (by decide))
  have hgroup : ∀ opening, (parenthesis (fuel + 7) false opening).Gives
      (s.facing (.char CodePoint.query :: .char CodePoint.colon ::
        (inner ++ (.char CodePoint.closeParen :: .char CodePoint.query :: rest))))
      (some (.piece ⟨true, items⟩, .char CodePoint.query :: rest)) :=
    fun _ => gives_parenthesis_colon (some items) (gives_body (some items) halternatives hquery) htokens
  exact gives_sequence_paren hgroup sound_char (gives_sequence_repeat (by decide) rfl hrest h)

/-- A look ahead at a separator, in front of a set. -/
theorem gives_sequence_notAhead (hrest : Sound rest)
    (h : (sequence (fuel + 6) false start (.single (.ahead true (.leaf (.char CodePoint.slash))) :: before)).Gives
      (s.facing rest) r) :
    (sequence (fuel + 7) false start before).Gives (s.facing (chars "(?!/)" ++ rest)) r := by
  have hslash : (sequence (fuel + 3) false false []).Gives
      (s.facing (.char CodePoint.slash :: .char CodePoint.closeParen :: rest))
      (some ([.leaf (.char CodePoint.slash)], .char CodePoint.closeParen :: rest)) :=
    gives_sequence_char (by decide) sound_char (gives_sequence_end (by simp))
  have halternatives : (alternatives (fuel + 4) false false []).Gives
      (s.facing (.char CodePoint.slash :: .char CodePoint.closeParen :: rest))
      (some ([.leaf (.char CodePoint.slash)], .char CodePoint.closeParen :: rest)) :=
    gives_alternatives_last (some [.leaf (.char CodePoint.slash)]) hslash (head?_char_ne (by decide))
  have hparen : ∀ opening, (parenthesis (fuel + 6) false opening).Gives
      (s.facing (.char CodePoint.query :: .char CodePoint.bang ::
        (.char CodePoint.slash :: .char CodePoint.closeParen :: rest)))
      (some (.piece (.single (.ahead true (.leaf (.char CodePoint.slash)))), rest)) :=
    fun _ => gives_parenthesis_bang (some [.leaf (.char CodePoint.slash)])
      (gives_body (some [.leaf (.char CodePoint.slash)]) halternatives hrest) sound_char
  exact gives_sequence_paren hparen sound_char h

/-- A bracket in front of a class that is read as a set. -/
theorem gives_sequence_class {ts : List Token} {body : Text} {negated : Bool}
    {next : List SetItem → Option (List (Node Atom) × List Token)}
    (hset : set.Gives (s.facing ts) (((classItems? body).map (setAtom negated)).map (·, rest))) (hts : Sound ts)
    (h : ∀ items, classItems? body = some items →
      (sequence fuel false start (.single (.leaf (setAtom negated items)) :: before)).Gives (s.facing rest)
        (next items)) :
    (sequence (fuel + 1) false start before).Gives (s.facing (.char CodePoint.openBracket :: ts))
      ((classItems? body).bind next) := by
  cases hitems : classItems? body with
  | none =>
    rw [hitems] at hset
    exact gives_sequence_bracket hts (Gives.fails hset)
  | some items =>
    rw [hitems] at hset
    exact gives_sequence_bracket hts (Gives.then hset (h items hitems))

/-- A part is read as its trees, and reading goes on behind it. -/
theorem gives_sequence_fragment {f : Fragment} (hf : f.HasBody) (hrest : Settled rest)
    (h : ∀ ns, f.nodes? = some ns →
      (sequence (fuel + 6) false start ((ns.map Piece.single).reverse ++ before)).Gives (s.facing rest) (next ns)) :
    (sequence (fuel + 6 + f.steps) false start before).Gives (s.facing (f.tokens ++ rest)) (f.nodes?.bind next) := by
  have hsound : Sound rest := hrest.1
  cases f with
  | literal c => exact gives_sequence_token hsound (h _ rfl)
  | separator => exact gives_sequence_char (by decide) hsound (h _ rfl)
  | one => exact gives_sequence_one hsound (h _ rfl)
  | run =>
    have htokens : Fragment.run.tokens ++ rest = chars "[^/]" ++ .char CodePoint.star :: rest := rfl
    rw [htokens]
    exact gives_sequence_one sound_char (gives_sequence_repeat (by decide) rfl hrest (h _ rfl))
  | anything => exact gives_sequence_anything hrest (h _ rfl)
  | oneOf body =>
    have hset := gives_set_class (s := s) body hf hsound
    have htokens : (Fragment.oneOf body).tokens ++ rest = chars "(?!/)" ++
        (.char CodePoint.openBracket :: (body.map bodyToken ++ .char CodePoint.closeBracket :: rest)) := by
      simp [Fragment.tokens, chars]
    rw [htokens, Fragment.nodes?, Option.bind_map]
    refine gives_sequence_notAhead sound_char (gives_sequence_class hset (sound_body body sound_char) ?_)
    exact fun items hitems => h _ (congrArg (Option.map _) hitems)
  | noneOf body =>
    have hset := gives_set_negated (s := s) (negatedBody body) (List.cons_ne_nil _ _) hsound
    have htokens : (Fragment.noneOf body).tokens ++ rest = .char CodePoint.openBracket :: .char CodePoint.caret ::
        ((negatedBody body).map bodyToken ++ .char CodePoint.closeBracket :: rest) := by
      simp [Fragment.tokens, chars]
    rw [htokens, Fragment.nodes?, Option.bind_map]
    refine gives_sequence_class hset sound_char ?_
    exact fun items hitems => h _ (congrArg (Option.map _) hitems)
  | folders =>
    refine gives_sequence_optional (chars ".*/")
      [.loop .greedy 0 none (.leaf .any), .leaf (.char CodePoint.slash)] ?_ (by decide) hrest (h _ rfl)
    intro n rest hrest
    refine gives_sequence_anything (settled_char (by decide) (by decide)) ?_
    exact gives_sequence_char (by decide) sound_char (gives_sequence_end (by simp))
  | below =>
    refine gives_sequence_optional (chars "/.*")
      [.leaf (.char CodePoint.slash), .loop .greedy 0 none (.leaf .any)] ?_ (by decide) hrest (h _ rfl)
    intro n rest hrest
    refine gives_sequence_char (by decide) sound_char ?_
    exact gives_sequence_anything (settled_char (by decide) (by decide)) (gives_sequence_end (by simp))

end Parts

/-! ## Lists of parts -/

/-- The trees of parts, one after the other. -/
def nodes? : List Fragment → Option (List (Node Atom))
  | [] => some []
  | f :: fs => f.nodes?.bind fun ns => (nodes? fs).map (ns ++ ·)

/-- No part begins with a sign of repetition. -/
theorem settled_tokens (f : Fragment) (rest : List Token) : Settled (f.tokens ++ rest) := by
  cases f with
  | literal c =>
    refine ⟨fun h => ?_, fun h => ?_, fun h => ?_⟩
    · exact token_ne_dangling c (Option.some.inj h)
    · exact token_ne_char (by decide) (Option.some.inj h)
    · exact token_ne_char (by decide) (Option.some.inj h)
  | one | run | oneOf _ | noneOf _ | separator | anything | folders | below =>
    exact settled_char (by decide) (by decide)

/-- What a list of alternatives leaves for the reader to see: a bar, a closing parenthesis or nothing. -/
def Ends (ts : List Token) : Prop := ∀ t ∈ ts.head?, t = .char CodePoint.bar ∨ t = .char CodePoint.closeParen

theorem Ends.settled {ts : List Token} (h : Ends ts) : Settled ts := by
  cases ts with
  | nil => simp [Settled, Sound]
  | cons t ts =>
    rcases h t rfl with rfl | rfl
    · exact settled_char (by decide) (by decide)
    · exact settled_char (by decide) (by decide)

theorem settled_flatMap (fs : List Fragment) {rest : List Token} (hrest : Settled rest) :
    Settled (fs.flatMap Fragment.tokens ++ rest) := by
  cases fs with
  | nil => exact hrest
  | cons f fs =>
    rw [List.flatMap_cons, List.append_assoc]
    exact settled_tokens f _

section Lists

variable {s : Reading} {rest : List Token} {fuel : Nat} {start : Bool}

theorem steps_le (f : Fragment) : f.steps ≤ f.tokens.length := by
  cases f <;> simp [Fragment.steps, Fragment.tokens, chars]

/-- Parts are read as their trees, up to the end of the sequence. -/
theorem gives_sequence_fragments {fs : List Fragment} (hfs : ∀ f ∈ fs, f.HasBody) (hrest : Ends rest)
    (hfuel : (fs.flatMap Fragment.tokens).length + 7 ≤ fuel) (before : List Piece) :
    (sequence fuel false start before).Gives (s.facing (fs.flatMap Fragment.tokens ++ rest))
      ((nodes? fs).map fun ns => ((before.reverse.map Piece.items).flatten ++ ns, rest)) := by
  induction fs generalizing before fuel with
  | nil =>
    obtain ⟨n, rfl⟩ := Nat.exists_eq_add_of_le' hfuel
    have hend : (sequence (n + 6 + 1) false start before).Gives (s.facing rest)
        (some ((before.reverse.map Piece.items).flatten, rest)) := gives_sequence_end hrest
    simpa [nodes?] using hend
  | cons f fs ih =>
    obtain ⟨hf, hfs⟩ := List.forall_mem_cons.mp hfs
    have hsteps := steps_le f
    rw [List.flatMap_cons, List.length_append] at hfuel
    -- The part takes as many steps as it has tokens at most, so enough are left behind it.
    obtain ⟨n, rfl⟩ : ∃ n, fuel = n + 6 + f.steps := ⟨fuel - 6 - f.steps, by omega⟩
    have hread : (sequence (n + 6 + f.steps) false start before).Gives
        (s.facing (f.tokens ++ (fs.flatMap Fragment.tokens ++ rest)))
        (f.nodes?.bind fun ns => (nodes? fs).map fun ms =>
          ((((ns.map Piece.single).reverse ++ before).reverse.map Piece.items).flatten ++ ms, rest)) :=
      gives_sequence_fragment hf (settled_flatMap fs hrest.settled) fun ns _ =>
        ih hfs (by omega) ((ns.map Piece.single).reverse ++ before)
    rw [List.flatMap_cons, List.append_assoc]
    have hsingles : ∀ ns : List (Node Atom), (ns.map fun n => (Piece.single n).items).flatten = ns :=
      fun ns => (List.flatMap_def ..).symm.trans (List.flatMap_singleton' ns)
    simpa [nodes?, Option.map_bind, Function.comp_def, hsingles] using hread

/-- An alternative is read as the trees of its parts. -/
theorem gives_alternative {fs : List Fragment} (hfs : ∀ f ∈ fs, f.HasBody) (hrest : Ends rest)
    (hfuel : (fs.flatMap Fragment.tokens).length + 7 ≤ fuel) :
    (sequence fuel false start []).Gives (s.facing (fs.flatMap Fragment.tokens ++ rest))
      ((nodes? fs).map (·, rest)) :=
  gives_sequence_fragments hfs hrest hfuel []

/-- The tokens of alternatives, with bars between them. -/
def barred (branches : List (List Fragment)) : List Token :=
  [.char CodePoint.bar].intercalate (branches.map (·.flatMap Fragment.tokens))

theorem barred_singleton (fs : List Fragment) : barred [fs] = fs.flatMap Fragment.tokens := by simp [barred]

theorem barred_cons_cons (fs gs : List Fragment) (branches : List (List Fragment)) :
    barred (fs :: gs :: branches) =
      fs.flatMap Fragment.tokens ++ .char CodePoint.bar :: barred (gs :: branches) := by simp [barred]

theorem settled_barred (branches : List (List Fragment)) (h : Ends rest) : Settled (barred branches ++ rest) := by
  match branches with
  | [] => exact h.settled
  | [fs] =>
    rw [barred_singleton]
    exact settled_flatMap fs h.settled
  | fs :: gs :: branches =>
    rw [barred_cons_cons, List.append_assoc]
    exact settled_flatMap fs (Ends.settled (by simp [Ends]))

/-- Alternatives are read as a choice between their trees, up to the closing parenthesis. -/
theorem gives_alternatives {branches : List (List Fragment)} (hne : branches ≠ [])
    (hbodies : ∀ fs ∈ branches, ∀ f ∈ fs, f.HasBody) (hfuel : (barred branches).length + 8 ≤ fuel)
    (before : List (List (Node Atom))) :
    (alternatives fuel false false before).Gives (s.facing (barred branches ++ .char CodePoint.closeParen :: rest))
      ((branches.mapM nodes?).map fun found =>
        (alternation (before.reverse ++ found), .char CodePoint.closeParen :: rest)) := by
  have hclose : Ends (.char CodePoint.closeParen :: rest) := by simp [Ends]
  -- All alternatives but the last one have a bar behind them.
  induction branches generalizing before fuel with
  | nil => exact absurd rfl hne
  | cons fs branches ih =>
    obtain ⟨hfs, hbodies⟩ := List.forall_mem_cons.mp hbodies
    obtain ⟨n, rfl⟩ : ∃ n, fuel = n + 1 := ⟨fuel - 1, by omega⟩
    cases branches with
    | nil =>
      rw [barred_singleton] at hfuel ⊢
      have hlast : (alternatives (n + 1) false false before).Gives
          (s.facing (fs.flatMap Fragment.tokens ++ .char CodePoint.closeParen :: rest))
          ((nodes? fs).map fun ns => (alternation (ns :: before).reverse, .char CodePoint.closeParen :: rest)) :=
        gives_alternatives_last (nodes? fs) (gives_alternative hfs hclose (by omega)) (head?_char_ne (by decide))
      rw [List.mapM_cons, List.mapM_nil]
      cases hns : nodes? fs <;> simpa [hns] using hlast
    | cons gs branches =>
      rw [barred_cons_cons, List.length_append, List.length_cons] at hfuel
      rw [barred_cons_cons, List.append_assoc]
      have hbar : Ends (.char CodePoint.bar :: (barred (gs :: branches) ++ .char CodePoint.closeParen :: rest)) := by
        simp [Ends]
      have hmore : (alternatives (n + 1) false false before).Gives
          (s.facing (fs.flatMap Fragment.tokens ++
            .char CodePoint.bar :: (barred (gs :: branches) ++ .char CodePoint.closeParen :: rest)))
          ((nodes? fs).bind fun ns => ((gs :: branches).mapM nodes?).map fun found =>
            (alternation ((ns :: before).reverse ++ found), .char CodePoint.closeParen :: rest)) :=
        gives_alternatives_bar (nodes? fs) (gives_alternative hfs hbar (by omega))
          (settled_barred (gs :: branches) hclose).1 fun ns _ =>
            ih (List.cons_ne_nil _ _) hbodies (by omega) (ns :: before)
      rw [List.mapM_cons]
      cases hns : nodes? fs with
      | none => simpa [hns] using hmore
      | some ns =>
        cases hfound : (gs :: branches).mapM nodes? <;> simpa [hns, hfound] using hmore

end Lists

/-! ## Whole globs -/

theorem ofText_flatMap_source (fs : List Fragment) (t : Text) :
    Token.ofText (fs.flatMap Fragment.source ++ t) = fs.flatMap Fragment.tokens ++ Token.ofText t := by
  induction fs with
  | nil => rfl
  | cons f fs ih => rw [List.flatMap_cons, List.append_assoc, ofText_source, ih, List.flatMap_cons, List.append_assoc]

theorem ofText_join (patterns : List Text) (t : Text) :
    Token.ofText (Text.join "|" (patterns.map source) ++ t) = barred (patterns.map fragments) ++ Token.ofText t := by
  induction patterns with
  | nil => rfl
  | cons p ps ih =>
    cases ps with
    | nil =>
      rw [List.map_singleton, List.map_singleton, barred_singleton, Text.join, List.intercalate_singleton]
      exact ofText_flatMap_source ..
    | cons q qs =>
      unfold Text.join at ih ⊢
      rw [List.map_cons, List.map_cons] at ih ⊢
      rw [List.intercalate_cons_cons, List.append_assoc, List.append_assoc]
      rw [List.map_cons, List.map_cons, barred_cons_cons, source, ofText_flatMap_source, List.append_assoc,
        ofText_chars (u := "|") (by decide), ih]
      rfl

theorem ofText_wholeSource (pattern : Text) :
    Token.ofText (wholeSource pattern) =
      .char CodePoint.openParen :: .char CodePoint.query :: .char CodePoint.colon ::
        (barred (branches pattern) ++ [.char CodePoint.closeParen]) := by
  have hclose : Token.ofText ")" = [.char CodePoint.closeParen] := rfl
  rw [wholeSource, List.append_assoc, ofText_chars (by decide), ofText_join, hclose]
  rfl

/-- The whole expression is read as a choice between the trees of its alternatives. -/
theorem gives_wholeSource {s : Reading} {bs : List (List Fragment)} {fuel : Nat} (hne : bs ≠ [])
    (hbodies : ∀ fs ∈ bs, ∀ f ∈ fs, f.HasBody) (hfuel : (barred bs).length + 14 ≤ fuel) :
    (alternatives fuel false true []).Gives
      (s.facing (.char CodePoint.openParen :: .char CodePoint.query :: .char CodePoint.colon ::
        (barred bs ++ [.char CodePoint.closeParen])))
      ((bs.mapM nodes?).map fun found => (alternation found, [])) := by
  obtain ⟨n, rfl⟩ : ∃ n, fuel = n + 6 := ⟨fuel - 6, by omega⟩
  have hclose : Ends [.char CodePoint.closeParen] := by simp [Ends]
  have hinner : (alternatives (n + 2) false false []).Gives
      (s.facing (barred bs ++ [.char CodePoint.closeParen]))
      (((bs.mapM nodes?).map alternation).map (·, [.char CodePoint.closeParen])) := by
    rw [Option.map_map]
    exact gives_alternatives hne hbodies (by omega) []
  have hsound : Sound ([] : List Token) := by simp [Sound]
  have hgroup : ∀ opening, (parenthesis (n + 4) false opening).Gives
      (s.facing (.char CodePoint.query :: .char CodePoint.colon :: (barred bs ++ [.char CodePoint.closeParen])))
      (((bs.mapM nodes?).map alternation).map fun items => (.piece ⟨true, items⟩, [])) :=
    fun _ => gives_parenthesis_colon _ (gives_body _ hinner hsound) (settled_barred bs hclose).1
  have hseq : (sequence (n + 5) false true []).Gives
      (s.facing (.char CodePoint.openParen :: .char CodePoint.query :: .char CodePoint.colon ::
        (barred bs ++ [.char CodePoint.closeParen])))
      (((bs.mapM nodes?).map alternation).map (·, [])) := by
    cases hfound : (bs.mapM nodes?).map alternation with
    | none =>
      rw [hfound] at hgroup
      exact gives_sequence_paren_none hgroup sound_char
    | some items =>
      rw [hfound] at hgroup
      have hend : (sequence (n + 3 + 1) false true [⟨true, items⟩]).Gives (s.facing [])
          (some ((([⟨true, items⟩] : List Piece).reverse.map Piece.items).flatten, [])) :=
        gives_sequence_end (by simp)
      have hitems : (([⟨true, items⟩] : List Piece).reverse.map Piece.items).flatten = items := by simp
      rw [hitems] at hend
      exact gives_sequence_paren hgroup sound_char hend
  have hlast : (alternatives (n + 6) false true []).Gives
      (s.facing (.char CodePoint.openParen :: .char CodePoint.query :: .char CodePoint.colon ::
        (barred bs ++ [.char CodePoint.closeParen])))
      (((bs.mapM nodes?).map alternation).map fun branch => (alternation [branch], [])) :=
    gives_alternatives_last _ hseq (by simp)
  rw [Option.map_map] at hlast
  exact hlast

theorem hasBody_classOf {t body rest : Text} (h : classBody? t = some (body, rest)) : (classOf body).HasBody := by
  unfold classOf
  split
  · exact trivial
  · exact trivial
  · rintro rfl
    cases t with
    | nil => cases h
    | cons c t =>
      rw [classBody?] at h
      split at h
      · obtain ⟨_, -, he⟩ := Option.map_eq_some_iff.mp h
        cases he
      · -- What is cut off begins with the first code point, which does not close the class.
        next hc =>
        have hclose : c ≠ CodePoint.closeBracket := fun he => hc (by simp [he])
        rw [Text.cut?, if_neg hclose] at h
        obtain ⟨_, -, he⟩ := Option.map_eq_some_iff.mp h
        cases he

theorem hasBody_segmentFragments (starred : Bool) (p : Text) : ∀ f ∈ segmentFragments starred p, f.HasBody := by
  fun_induction segmentFragments starred p with
  | case1 => exact fun f hf => absurd hf List.not_mem_nil
  | case2 rest ih => exact ih
  | case3 starred rest _ ih => exact List.forall_mem_cons.mpr ⟨trivial, ih⟩
  | case4 starred rest _ ih => exact List.forall_mem_cons.mpr ⟨trivial, ih⟩
  | case5 starred rest body after hbody _ _ ih => exact List.forall_mem_cons.mpr ⟨hasBody_classOf hbody, ih⟩
  | case6 starred rest _ _ _ ih => exact List.forall_mem_cons.mpr ⟨trivial, ih⟩
  | case7 starred c rest _ _ _ ih => exact List.forall_mem_cons.mpr ⟨trivial, ih⟩

/-- All classes of a glob have bodies. -/
theorem hasBody_branches {pattern : Text} : ∀ fs ∈ branches pattern, ∀ f ∈ fs, f.HasBody := by
  intro fs hfs
  obtain ⟨q, -, rfl⟩ := List.mem_map.mp hfs
  exact (forall_segments ⟨trivial, trivial, trivial, trivial⟩).mpr fun p _ _ => hasBody_segmentFragments false p

/-- The flags of the expression of a glob, settled. -/
def globFlags : Flags := { dotAll := true, unicode := true }

/-- Reading the expression of a glob gives a choice between the trees of its alternatives, or a
    failure if one of them is not in order. -/
theorem read_wholeSource (pattern : Text) :
    (Regex.read { dotAll := true } (wholeSource pattern)).toOption =
      ((branches pattern).mapM nodes?).map fun found =>
        { tree := Node.ofList (alternation found), flags := globFlags, groups := 1 } := by
  have hreader : Reader.Gives (do
        moveTo (Token.ofText (wholeSource pattern))
        alternatives (8 * (Token.ofText (wholeSource pattern)).length + 8) false true [])
      { size := (wholeSource pattern).length
        tokens := Token.ofText (wholeSource pattern)
        flags := { dotAll := true } }
      (((branches pattern).mapM nodes?).map fun found => (alternation found, [])) := by
    rw [ofText_wholeSource]
    refine (gives_moveTo sound_char).then (gives_wholeSource (branches_ne_nil pattern) hasBody_branches ?_)
    simp only [List.length_cons, List.length_append, List.length_nil]
    omega
  unfold Regex.read
  cases hfound : (branches pattern).mapM nodes? with
  | none =>
    rw [hfound] at hreader
    obtain ⟨f, hf⟩ := hreader
    dsimp only
    rw [hf]
    rfl
  | some found =>
    rw [hfound] at hreader
    unfold Reader.Gives at hreader
    dsimp only
    rw [hreader]
    rfl

end NoteAccess.Glob
