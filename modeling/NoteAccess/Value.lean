/-
  NoteAccess.Value

  The values of settings, front matter and the environment: what a YAML document
  or an environment variable can hold.

  A mapping keeps its entries in insertion order, with at most one entry per key;
  numbers and truth values that are equal are the same key.
-/

import NoteAccess.Decimal.Floating
import NoteAccess.Text.Quoted

namespace NoteAccess

/-- A point in time of the calendar, with the offset from universal time in minutes. -/
structure Moment where
  year : Nat
  month : Nat
  day : Nat
  hour : Nat
  minute : Nat
  second : Nat
  microsecond : Nat
  offset : Option Int
  deriving BEq

/-- A value of a settings file, of front matter or of the environment. -/
inductive Value where
  | null
  | bool (b : Bool)
  | int (i : Int)
  | float (x : Float)
  | text (t : Text)
  | list (items : List Value)
  | tuple (items : List Value)
  | dict (entries : List (Value × Value))
  | set (items : List Value)
  | date (year month day : Nat)
  | moment (m : Moment)
  | bytes (content : List UInt8)
  deriving Inhabited

namespace Value

instance : Coe Text Value := ⟨.text⟩

/-! ## Kinds -/

/-- The name of the value's kind, as messages give it. -/
def kindName : Value → Text
  | null => "NoneType"
  | bool _ => "bool"
  | int _ => "int"
  | float _ => "float"
  | text _ => "str"
  | list _ => "list"
  | tuple _ => "tuple"
  | dict _ => "dict"
  | set _ => "set"
  | date .. => "datetime.date"
  | moment _ => "datetime.datetime"
  | bytes _ => "bytes"

/-- Whether the value counts as set: not null, false, zero or empty. -/
def isTruthy : Value → Bool
  | null => false
  | bool b => b
  | int i => i != 0
  | float x => !(x == 0)
  | text t => !t.isEmpty
  | list items | tuple items | set items => !items.isEmpty
  | dict entries => !entries.isEmpty
  | bytes content => !content.isEmpty
  | date .. | moment _ => true

/-- Whether the value is null. -/
def isNull : Value → Bool
  | null => true
  | _ => false

/-- Whether the value may be the key of a mapping. -/
def isKey : Value → Bool
  | list _ | dict _ | set _ => false
  | tuple items => go items
  | _ => true
where
  go : List Value → Bool
    | [] => true
    | v :: rest => v.isKey && go rest

/-! ## Equality of keys -/

/-- A finite floating-point number as an exact fraction with a power of two below. -/
def exactFloat? (x : Float) : Option (Int × Nat) :=
  let bits : Nat := x.toBits.toNat
  let exponent : Nat := bits / Nat.pow 2 52 % 2048
  let fraction : Nat := bits % Nat.pow 2 52
  if exponent == 2047 then none
  else
    let (m, e) : Nat × Nat := if exponent == 0 then (fraction, 1) else (fraction + Nat.pow 2 52, exponent)
    let signed : Int := if bits / Nat.pow 2 63 == 1 then -(m : Int) else m
    if e ≤ 1075 then some (signed, 1075 - e) else some (signed * (Nat.pow 2 (e - 1075) : Nat), 0)

/-- The number that a value equals, if it is a number or a truth value. -/
def number? : Value → Option (Int × Nat)
  | bool b => some (if b then 1 else 0, 0)
  | int i => some (i, 0)
  | float x => exactFloat? x
  | _ => none

/-- Whether two keys are the same. -/
def sameKey : Value → Value → Bool
  | null, null => true
  | text s, text t => s == t
  | date y m d, date y' m' d' => y == y' && m == m' && d == d'
  | moment m, moment m' => m == m'
  | bytes b, bytes b' => b == b'
  | tuple a, tuple b => go a b
  | float x, float y => x == y || (x.isNaN && y.isNaN)
  | a, b =>
    match a.number?, b.number? with
    | some (m, p), some (n, q) => m * (Nat.pow 2 q : Nat) == n * (Nat.pow 2 p : Nat)
    | _, _ => false
where
  go : List Value → List Value → Bool
    | [], [] => true
    | v :: rest, w :: rest' => v.sameKey w && go rest rest'
    | _, _ => false

/-! ## Text of a value -/

/-- The text of a date. -/
def dateText (year month day : Nat) : Text :=
  Text.padLeft '0' 4 (Text.ofNat year) ++ "-" ++ Text.padLeft '0' 2 (Text.ofNat month) ++ "-" ++
    Text.padLeft '0' 2 (Text.ofNat day)

/-- The text of a point in time. -/
def momentText (m : Moment) : Text :=
  let two (n : Nat) : Text := Text.padLeft '0' 2 (Text.ofNat n)
  let base : Text := dateText m.year m.month m.day ++ " " ++ two m.hour ++ ":" ++ two m.minute ++ ":" ++
    two m.second
  let fraction : Text :=
    if m.microsecond == 0 then [] else "." ++ Text.padLeft '0' 6 (Text.ofNat m.microsecond)
  let zone : Text := match m.offset with
    | none => []
    | some o => (if o < 0 then "-" else "+") ++ two (o.natAbs / 60) ++ ":" ++ two (o.natAbs % 60)
  base ++ fraction ++ zone

/-- The text of a duration in minutes inside a collection. -/
def durationNested (minutes : Int) : Text :=
  let seconds := minutes * 60
  let days := seconds.fdiv 86400
  let rest := seconds.fmod 86400
  let parts : List Text :=
    (if days != 0 then ["days=" ++ Text.ofInt days] else []) ++
    (if rest != 0 then ["seconds=" ++ Text.ofInt rest] else [])
  "datetime.timedelta(" ++ Text.join ", " parts ++ ")"

/-- The text of a point in time inside a collection. -/
def momentNested (m : Moment) : Text :=
  let part (n : Nat) : Text := ", " ++ Text.ofNat n
  let clock : Text :=
    part m.hour ++ part m.minute ++
      (if m.microsecond != 0 then part m.second ++ part m.microsecond
       else if m.second != 0 then part m.second else [])
  let zone : Text := match m.offset with
    | none => []
    | some 0 => ", tzinfo=datetime.timezone.utc"
    | some o => ", tzinfo=datetime.timezone(" ++ durationNested o ++ ")"
  "datetime.datetime(" ++ Text.ofNat m.year ++ part m.month ++ part m.day ++ clock ++ zone ++ ")"

mutual

/-- The text of a value inside a collection: text is quoted. -/
def nested : Value → Text
  | null => "None"
  | bool b => if b then "True" else "False"
  | int i => Text.ofInt i
  | float x => Decimal.writeFloat x
  | text t => t.quoted
  | list items => "[" ++ Text.join ", " (nestedAll items) ++ "]"
  | tuple items =>
    match items with
    | [v] => "(" ++ nested v ++ ",)"
    | items => "(" ++ Text.join ", " (nestedAll items) ++ ")"
  | dict entries => "\x7b" ++ Text.join ", " (nestedEntries entries) ++ "\x7d"
  | set items =>
    if items.isEmpty then "set()" else "\x7b" ++ Text.join ", " (nestedAll items) ++ "\x7d"
  | date y m d =>
    "datetime.date(" ++ Text.ofNat y ++ ", " ++ Text.ofNat m ++ ", " ++ Text.ofNat d ++ ")"
  | moment m => momentNested m
  | bytes b => Text.quotedBytes b

/-- The texts of values inside a collection. -/
def nestedAll : List Value → List Text
  | [] => []
  | v :: rest => nested v :: nestedAll rest

/-- The texts of the entries of a mapping. -/
def nestedEntries : List (Value × Value) → List Text
  | [] => []
  | (k, v) :: rest => (nested k ++ ": " ++ nested v) :: nestedEntries rest

end

/-- The text of a value on its own. -/
def toText : Value → Text
  | text t => t
  | date y m d => dateText y m d
  | moment m => momentText m
  | v => v.nested

/-! ## Mappings -/

/-- The value at a key of a mapping's entries. -/
def lookup? (key : Value) : List (Value × Value) → Option Value
  | [] => none
  | (k, v) :: rest => if k.sameKey key then some v else lookup? key rest

/-- The value at a text key. -/
def field? (name : Text) (entries : List (Value × Value)) : Option Value := lookup? (.text name) entries

/-- The entries with `value` at `key`: in its place if the key is there, else at the end. -/
def insert (key value : Value) : List (Value × Value) → List (Value × Value)
  | [] => [(key, value)]
  | (k, v) :: rest => if k.sameKey key then (k, value) :: rest else (k, v) :: insert key value rest

/-- The mapping with the given entries, a later entry of a key replacing an earlier one. -/
def ofEntries (entries : List (Value × Value)) : List (Value × Value) :=
  entries.foldl (fun acc (k, v) => insert k v acc) []

end Value

end NoteAccess
