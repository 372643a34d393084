/-
  NoteAccess.CommandLine.Reading

  Reading a command line: the values of its parameters, or why there are none.

  The words are read from left to right.  At each run of arguments as many of the
  positional parameters that are still waiting as possible take theirs, each as
  many as it can.  What no parameter takes is left over, and only reported after
  everything else.
-/

import NoteAccess.CommandLine.Token

namespace NoteAccess.CommandLine

/-! ## How many words a positional parameter takes -/

/-- The numbers from `n + k` down to `n`. -/
def downFrom (n : Nat) : Nat → List Nat
  | 0 => [n]
  | k + 1 => (n + k + 1) :: downFrom n k

/-- How many words a positional parameter may take, the greatest number first: an argument
    and what the parameter allows behind it, with separators around it. -/
def Parameter.extents (p : Parameter) (ts : List Token) : List Nat :=
  let before := (ts.takeWhile Token.isSeparator).length
  match ts.drop before with
  | [] => []
  | t :: rest =>
    if !t.isArgument then []
    else downFrom (before + 1) (match p.effect with
      | .many => (rest.takeWhile (! ·.isOption)).length
      | .command => rest.length
      | _ => (rest.takeWhile Token.isSeparator).length)

/-- How many words each of the parameters takes, if all can be served. -/
def fit : List Parameter → List Token → Option (List Nat)
  | [], _ => some []
  | p :: ps, ts => (p.extents ts).findSome? fun n => (fit ps (ts.drop n)).map (n :: ·)

/-- How many words each of the first parameters takes, for as many as can be served. -/
def fitMost (ps : List Parameter) (ts : List Token) : List Nat :=
  ((downFrom 0 ps.length).findSome? fun n => fit (ps.take n) ts).getD []

/-! ## Values -/

namespace Parameter

/-- A value that is among the choices. -/
def choose (p : Parameter) (v : Value) : Except Objection Unit :=
  if p.choices.isEmpty || p.choices.any (fun t => Value.sameKey v (.text t)) then .ok ()
  else .error (.notChoice v p.choices)

/-- The value of a parameter with its arguments, of which the first separator does not
    count: that of one argument, or the list of all. -/
def value (p : Parameter) (arguments : List Text) : Except Objection Value := do
  let arguments := arguments.erase separator
  let vs ← arguments.mapM fun t => (p.read t).mapError .unreadable
  vs.forM p.choose
  match p.effect, vs with
  | .one, [v] => return v
  | _, vs => return .list vs

end Parameter

/-- What has been read of a command line. -/
structure Progress where
  /-- The values of parameters, by their names. -/
  values : List (Value × Value)
  /-- The positional parameters that are not served yet. -/
  waiting : List Parameter
  /-- The words of a further command. -/
  further : List Text := []
  /-- What no parameter takes. -/
  surplus : List Text := []

namespace Progress

/-- What has been read before the first word. -/
def start (c : Command) : Progress := { values := c.defaults, waiting := c.positionals }

/-- The progress with a value. -/
def set (s : Progress) (p : Parameter) (v : Value) : Progress :=
  { s with values := Value.insert (.text p.key) v s.values }

end Progress

namespace Command

/-- A parameter of a command takes its arguments. -/
def serve (c : Command) (s : Progress) (p : Parameter) (arguments : List Text) : Except Stop Progress :=
  let value := (p.value arguments).mapError fun o => Stop.mistake c (.argument p o)
  match p.effect with
  | .usage => .error (.usage c)
  | .version => .error .version
  | .flag => .ok (s.set p (.bool true))
  | .one | .many => value.map (s.set p)
  | .command =>
    let name : Value := .text (arguments.headD [])
    match p.choose name with
    | .error o => .error (.mistake c (.argument p o))
    | .ok () => .ok { s.set p name with further := arguments }

/-! ## Positional parameters -/

/-- Parameters take the numbers of words that belong to them. -/
def serveEach (c : Command) (s : Progress) : List (Parameter × Nat) → List Token → Except Stop Progress
  | [], _ => .ok s
  | (p, n) :: rest, ts => do
    serveEach c (← c.serve s p ((ts.take n).map Token.text)) rest (ts.drop n)

/-- The waiting parameters take the words that they can; the number of these. -/
def servePositionals (c : Command) (s : Progress) (ts : List Token) : Except Stop (Progress × Nat) := do
  let counts := fitMost s.waiting ts
  let s ← serveEach c { s with waiting := s.waiting.drop counts.length } (s.waiting.zip counts) ts
  return (s, counts.foldl (· + ·) 0)

/-! ## Options -/

/-- The options in a word where the first one is `p` and `attached` follows it: each with
    its argument, and last one that needs the next word.  Short options without arguments
    may share a word. -/
def unfold (c : Command) (p : Parameter) (isShort : Bool) :
    Text → Except Mistake (List (Parameter × List Text) × Option Parameter)
  | [] => if p.takesArgument then .ok ([(p, [[]])], none) else .error (.argument p (.notTaken []))
  | x :: rest =>
    if p.takesArgument then .ok ([(p, [x :: rest])], none)
    else if !isShort then .error (.argument p (.notTaken (x :: rest)))
    else match c.option? [CodePoint.minus, x] with
      | none => .error (.argument p (.notTaken (x :: rest)))
      | some q =>
        if rest.isEmpty then .ok ([(p, [])], some q)
        else do
          let (served, last) ← unfold c q true rest
          return ((p, []) :: served, last)

/-- The options of a word with their arguments, and the number of words after it that are
    taken. -/
def serviceOf (c : Command) (m : Mention) (rest : List Token) :
    Except Mistake (List (Parameter × List Text) × Nat) := do
  let (served, last) ← match m.attached with
    | some t => c.unfold m.option (!isLong m.name) t
    | none => pure ([], some m.option)
  match last with
  | none => return (served, 0)
  | some p =>
    if !p.takesArgument then return (served ++ [(p, [])], 0)
    match rest with
    | t :: _ => if t.isArgument then return (served ++ [(p, [t.text])], 1) else throw (.argument p .noArgument)
    | [] => throw (.argument p .noArgument)

/-- An option takes the words that belong to it; the number of words after its own. -/
def serveOption (c : Command) (s : Progress) (t : Token) (rest : List Token) : Except Stop (Progress × Nat) :=
  match t.mark with
  | .option m => do
    let (served, n) ← (c.serviceOf m rest).mapError (.mistake c)
    return (← served.foldlM (fun s (p, arguments) => c.serve s p arguments) s, n)
  | _ => .ok ({ s with surplus := s.surplus ++ [t.text] }, 0)

/-! ## All words -/

/-- Read words in their order. -/
def readTokens (c : Command) (s : Progress) : List Token → Except Stop Progress
  | [] => .ok s
  | t :: rest =>
    if t.isOption then do
      let (s, n) ← c.serveOption s t rest
      readTokens c s (rest.drop n)
    else do
      let (s, n) ← c.servePositionals s (t :: rest)
      match n with
      | 0 => readTokens c { s with surplus := s.surplus ++ [t.text] } rest
      | n + 1 => readTokens c s (rest.drop n)
termination_by ts => ts.length
decreasing_by all_goals simp only [List.length_drop, List.length_cons]; omega

/-- The values of a command line and what is left over; those of a further command follow. -/
def readWords (c : Command) (words : List Text) : Except Stop (List (Value × Value) × List Text) := do
  let tokens ← (c.tokens words).mapError (.mistake c)
  let s ← c.readTokens (.start c) tokens
  let (inner, surplus) ← match s.further with
    | [] => pure ([], [])
    | name :: rest =>
      (c.commands.attach.findSome? fun ⟨(n, d), _⟩ => if n == name then some (readWords d rest) else none).getD
        (pure ([], []))
  if !s.waiting.isEmpty then throw (.mistake c (.missing s.waiting))
  return (inner.foldl (fun vs (k, v) => Value.insert k v vs) s.values, s.surplus ++ surplus)
termination_by c
decreasing_by
  have := List.sizeOf_lt_of_mem ‹(n, d) ∈ c.commands›
  cases c
  simp at this ⊢
  omega

/-- The values of a command line. -/
def readAll (c : Command) (words : List Text) : Except Stop (List (Value × Value)) := do
  let (values, surplus) ← c.readWords words
  if !surplus.isEmpty then throw (.mistake c (.surplus surplus))
  return values

end Command

end NoteAccess.CommandLine
