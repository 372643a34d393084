/-
  NoteAccess.Decimal.Floating

  The text of a floating-point number and the number of a text.

  Written: the fewest digits that read back; positional from `0.0001` below
  `10 ^ 16`, with `.0` kept on whole numbers, else with an exponent of at least
  two digits and its sign.
-/

import NoteAccess.Decimal.Shortest
import NoteAccess.Decimal.Numeral

namespace NoteAccess.Decimal

/-- Where positional notation ends, and how an exponent is written. -/
structure FloatFormat where
  /-- Numbers below ten to this power are positional. -/
  positionalBelow : Int
  /-- Numbers not below ten to this power are positional. -/
  positionalFrom : Int
  /-- The least number of digits of an exponent. -/
  exponentDigits : Nat

/-- The notation of settings and log lines. -/
def settingsFormat : FloatFormat := ⟨16, -4, 2⟩

/-- The text of the digits `d` with exponent `k`, meaning `0.d * 10 ^ k`. -/
def FloatFormat.write (f : FloatFormat) (d : Nat) (k : Int) : Text :=
  let digits := Text.ofNat d
  if f.positionalFrom ≤ k - 1 && k - 1 < f.positionalBelow then
    if k ≤ 0 then
      Text.ofString "0." ++ List.replicate k.natAbs ('0' : CodePoint) ++ digits
    else
      let whole := digits.take k.toNat
      let rest := digits.drop k.toNat
      Text.padRight '0' k.toNat whole ++ Text.ofString "." ++
        (if rest.isEmpty then Text.ofString "0" else rest)
  else
    let e := k - 1
    let mantissa := match digits with
      | [] => []
      | [c] => [c]
      | c :: rest => c :: ('.' : CodePoint) :: rest
    mantissa ++ Text.ofString (if e < 0 then "e-" else "e+") ++
      Text.padLeft '0' f.exponentDigits (Text.ofNat e.natAbs)

/-- The text of a floating-point number. -/
def writeFloat (x : Float) : Text :=
  let bits : Nat := x.toBits.toNat
  let negative := bits / Nat.pow 2 63 == 1
  let exponent : Nat := bits / Nat.pow 2 52 % 2048
  let fraction : Nat := bits % Nat.pow 2 52
  let sign := Text.ofString (if negative then "-" else "")
  if exponent == 2047 then
    if fraction == 0 then sign ++ Text.ofString "inf" else Text.ofString "nan"
  else if exponent == 0 && fraction == 0 then sign ++ Text.ofString "0.0"
  else
    let (m, q) : Nat × Int :=
      if exponent == 0 then (fraction, -1074) else (fraction + Nat.pow 2 52, (exponent : Int) - 1075)
    let narrow := fraction == 0 && exponent > 1
    let (d, k) := shortest m q narrow
    sign ++ settingsFormat.write d k

/-- The number `digits * 10 ^ exponent`, correctly rounded. -/
def toFloat (digits : Nat) (exponent : Int) : Float :=
  let size : Int := (Nat.toDigits 10 digits).length
  if digits == 0 then 0.0
  else if size + exponent > 400 then 1.0 / 0.0
  else if size + exponent < -400 then 0.0
  else if exponent < 0 then Float.ofScientific digits true exponent.natAbs
  else Float.ofScientific digits false exponent.toNat

/-- Positive infinity. -/
def infinity : Float := 1.0 / 0.0

/-- The number that is not one. -/
def notANumber : Float := 0.0 / 0.0

/-- The unsigned number written as digits with an optional fraction and an optional exponent. -/
def readMagnitude? (t : Text) : Option Float := do
  let (whole, rest) := (t.takeWhile CodePoint.isBasicDigit, t.dropWhile CodePoint.isBasicDigit)
  let (places, rest) := match rest with
    | CodePoint.dot :: rest => (rest.takeWhile CodePoint.isBasicDigit, rest.dropWhile CodePoint.isBasicDigit)
    | _ => ([], rest)
  if whole.isEmpty && places.isEmpty then none
  let exponent ← match rest with
    | [] => some 0
    | e :: rest => do
      if e != 'e' && e != 'E' then none
      let (negative, digits) := match rest with
        | CodePoint.plus :: digits => (false, digits)
        | CodePoint.minus :: digits => (true, digits)
        | digits => (false, digits)
      if digits.isEmpty || !digits.all CodePoint.isBasicDigit then none
      let size := digitsToNat digits
      some (if negative then -(size : Int) else size)
  some (toFloat (digitsToNat (whole ++ places)) (exponent - places.length))

/-- The number that a text denotes: a decimal with optional sign, fraction and
    exponent, an infinity or the number that is not one, in any case, with blanks
    around it and underscores between digits. -/
def readFloat? (t : Text) : Option Float := do
  let t ← plainNumeral? t
  let t ← dropUnderscores? t
  let (negative, body) := match t with
    | CodePoint.plus :: t => (false, t)
    | CodePoint.minus :: t => (true, t)
    | t => (false, t)
  let word := body.map fun c => if 65 ≤ c && c ≤ 90 then c + 32 else c
  let magnitude ←
    if word == Text.ofString "inf" || word == Text.ofString "infinity" then some infinity
    else if word == Text.ofString "nan" then some notANumber
    else readMagnitude? body
  some (if negative then -magnitude else magnitude)

end NoteAccess.Decimal
