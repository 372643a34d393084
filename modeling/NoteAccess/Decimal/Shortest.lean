/-
  NoteAccess.Decimal.Shortest

  The fewest decimal digits that read back as a given binary floating-point
  number.  The number is `m * 2 ^ q`; the reals that round to it form an
  interval, its ends included when `m` is even.  For one digit, two digits, …
  the two neighbours of the number on that decimal grid are tested in exact
  arithmetic; the first grid with a hit wins, of two hits the nearer one, and of
  two equally near ones the even one.
-/

import NoteAccess.Text

namespace NoteAccess.Decimal

/-- A positive number `m * 2 ^ q` as a fraction of natural numbers. -/
def fraction (m : Nat) (q : Int) : Nat × Nat :=
  if q < 0 then (m, Nat.pow 2 q.natAbs) else (m * Nat.pow 2 q.toNat, 1)

/-- A positive binary number with the interval of reals that round to it, all
    over one denominator. -/
structure Interval where
  /-- Numerator of the number. -/
  value : Nat
  /-- Numerator of the lower end. -/
  low : Nat
  /-- Numerator of the upper end. -/
  high : Nat
  /-- The common denominator. -/
  denominator : Nat
  /-- Whether the ends round to the number too. -/
  closed : Bool

/-- The interval of `m * 2 ^ q`; `narrow` says that the next number below is only
    half as far away as the next one above. -/
def Interval.of (m : Nat) (q : Int) (narrow : Bool) : Interval :=
  let (scale, denominator) := fraction 1 (q - 2)
  { value := 4 * m * scale
    low := (if narrow then 4 * m - 1 else 4 * m - 2) * scale
    high := (4 * m + 2) * scale
    denominator
    closed := m % 2 == 0 }

/-- Whether the fraction `n / d` lies in the interval. -/
def Interval.contains (r : Interval) (n d : Nat) : Bool :=
  let x := n * r.denominator
  let lo := r.low * d
  let hi := r.high * d
  if r.closed then lo ≤ x && x ≤ hi else lo < x && x < hi

/-- The exponent `k` with `10 ^ (k - 1) ≤ n / d < 10 ^ k`, sought upward from a
    value that is not too large. -/
def decimalExponent (n d : Nat) (start : Int) : Nat → Int
  | 0 => start
  | fuel + 1 =>
    let below := if start < 0 then n * Nat.pow 10 start.natAbs < d else n < d * Nat.pow 10 start.toNat
    if below then start else decimalExponent n d (start + 1) fuel

/-- The digits of the nearest grid point of `count` digits that reads back, if any,
    for a number below `10 ^ k`. -/
def onGrid? (r : Interval) (k : Int) (count : Nat) : Option Nat :=
  let e := k - count
  -- the grid's unit is `10 ^ e`, as a fraction `un / ud`
  let (un, ud) := if e < 0 then (1, Nat.pow 10 e.natAbs) else (Nat.pow 10 e.toNat, 1)
  let below := r.value * ud / (r.denominator * un)
  let above := below + 1
  let hits (x : Nat) := r.contains (x * un) ud
  match hits below && below != 0, hits above with
  | true, false => some below
  | false, true => some above
  | false, false => none
  | true, true =>
    let twice := 2 * r.value * ud
    let middle := (below + above) * un * r.denominator
    if twice < middle then some below
    else if middle < twice then some above
    else if below % 2 == 0 then some below else some above

/-- The digits `d` and the exponent `k`, meaning `0.d * 10 ^ k`, of the shortest
    decimal that reads back as `m * 2 ^ q`. -/
def shortest (m : Nat) (q : Int) (narrow : Bool) : Nat × Int :=
  let r := Interval.of m q narrow
  let start := (((m.log2 : Int) + q) * 1233) / 4096 - 2
  let k := decimalExponent r.value r.denominator start 8
  let rec go : Nat → Nat → Nat × Int
    | 0, count => (r.value, count)
    | fuel + 1, count =>
      match onGrid? r k count with
      | some digits => (digits, if digits == Nat.pow 10 count then k + 1 else k)
      | none => go fuel (count + 1)
  let (digits, k) := go 18 1
  (trimZeros 20 digits, k)
where
  trimZeros : Nat → Nat → Nat
    | 0, n => n
    | fuel + 1, n => if n != 0 && n % 10 == 0 then trimZeros fuel (n / 10) else n

end NoteAccess.Decimal
