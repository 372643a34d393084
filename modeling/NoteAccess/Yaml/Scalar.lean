/-
  NoteAccess.Yaml.Scalar

  What the text of a scalar means and the value that it has.  An untagged plain
  scalar is a truth value, a number, a date or null if it is written like one;
  every other scalar is text.
-/

import NoteAccess.Yaml.Token
import NoteAccess.Value
import NoteAccess.Text.Letters

namespace NoteAccess.Yaml

/-- What a node stands for. -/
inductive Meaning where
  | null
  | bool
  | int
  | float
  | text
  | bytes
  | time
  /-- The key whose value holds entries for the mapping around it. -/
  | merge
  /-- The key whose value stands for the mapping around it. -/
  | content
  | sequence
  | mapping
  | set
  | pairs
  /-- No value. -/
  | unknown
  deriving DecidableEq

/-- The beginning of the tags that have a meaning. -/
def coreLead : Text := "tag:yaml.org,2002:"

/-- The tags that have a meaning, after their common beginning. -/
def coreTags : List (Text × Meaning) := [
  ("null", .null), ("bool", .bool), ("int", .int), ("float", .float), ("str", .text),
  ("binary", .bytes), ("timestamp", .time), ("merge", .merge), ("value", .content),
  ("seq", .sequence), ("map", .mapping), ("set", .set), ("omap", .pairs), ("pairs", .pairs)]

/-- The meaning of a tag. -/
def Meaning.ofTag (tag : Text) : Meaning :=
  ((Text.dropLead? coreLead tag).bind fun name => coreTags.lookup name).getD .unknown

/-! ## Written forms -/

/-- The text without a sign in front. -/
def dropSign (t : Text) : Text :=
  match t with
  | CodePoint.plus :: rest | CodePoint.minus :: rest => rest
  | _ => t

/-- Whether the text begins with a minus sign. -/
def isNegative (t : Text) : Bool := t.head? == some CodePoint.minus

/-- A digit or an underscore. -/
def isSpacedDigit (c : CodePoint) : Bool := c.isBasicDigit || c == CodePoint.underscore

/-- What follows digits and underscores, if a digit comes first. -/
def afterDigits? (t : Text) : Option Text :=
  match t with
  | c :: rest => if c.isBasicDigit then some (rest.dropWhile isSpacedDigit) else none
  | [] => none

/-- What follows parts to the base of sixty, each of a colon and at most two digits. -/
def afterSixties? : Nat → Text → Option Text
  | 0, _ => none
  | fuel + 1, t =>
    match t with
    | CodePoint.colon :: rest =>
      let digits := rest.takeWhile CodePoint.isBasicDigit
      let after := rest.dropWhile CodePoint.isBasicDigit
      if digits.length == 1 || (digits.length == 2 && digits.headD 0 < 54) then
        if after.head? == some CodePoint.colon then afterSixties? fuel after else some after
      else none
    | _ => none

/-- Nothing, or an exponent with its sign. -/
def isExponent (t : Text) : Bool :=
  match t with
  | [] => true
  | e :: sign :: digits =>
    (e == ('e' : CodePoint) || e == ('E' : CodePoint)) && (sign == CodePoint.plus || sign == CodePoint.minus) &&
      !digits.isEmpty && digits.all CodePoint.isBasicDigit
  | _ => false

/-- The words of a truth value. -/
def boolWords : List String := [
  "yes", "Yes", "YES", "no", "No", "NO", "true", "True", "TRUE", "false", "False", "FALSE",
  "on", "On", "ON", "off", "Off", "OFF"]

/-- Whether the text is one of the words. -/
def isOneOf (words : List String) (t : Text) : Bool := words.any fun w => t == Text.ofString w

/-- Whether a text is written like a whole number. -/
def isInt (t : Text) : Bool :=
  let body := dropSign t
  let allOf (p : CodePoint → Bool) (n : Nat) : Bool := n < body.length && (body.drop n).all p
  match body with
  | [] => false
  | c :: rest =>
    if c = ('0' : CodePoint) then
      rest.isEmpty ||
        (rest.head? == some ('b' : CodePoint) &&
          allOf (fun c => c == 48 || c == 49 || c == CodePoint.underscore) 2) ||
        (rest.head? == some ('x' : CodePoint) &&
          allOf (fun (c : CodePoint) => c.hexValue?.isSome || c == CodePoint.underscore) 2) ||
        allOf (fun c => (48 ≤ c && c ≤ 55) || c == CodePoint.underscore) 1
    else match afterDigits? body with
      | some after => after.isEmpty || afterSixties? after.length after == some []
      | none => false

/-- Whether a text is written like a floating-point number. -/
def isFloat (t : Text) : Bool :=
  let body := dropSign t
  let special : Bool :=
    isOneOf [".inf", ".Inf", ".INF"] body || isOneOf [".nan", ".NaN", ".NAN"] t
  let fraction : Bool :=
    match t with
    | CodePoint.dot :: rest => (afterDigits? rest).any isExponent
    | _ => false
  let decimal : Bool :=
    match afterDigits? body with
    | some (CodePoint.dot :: rest) => isExponent (rest.dropWhile isSpacedDigit)
    | _ => false
  let sixties : Bool :=
    match (afterDigits? body).bind fun after => afterSixties? after.length after with
    | some (CodePoint.dot :: rest) => rest.all isSpacedDigit
    | _ => false
  special || fraction || decimal || sixties

/-! ## Dates -/

/-- A date as it is written, perhaps with a time of day and an offset from universal
    time in minutes. -/
structure WrittenTime where
  year : Nat
  month : Nat
  day : Nat
  /-- Hour, minute, second, the digits of a fraction, and the offset. -/
  clock : Option (Nat × Nat × Nat × Text × Option Int)

/-- At least one digit and at most `n`, and what follows them. -/
def upTo (n : Nat) (t : Text) : Option (Nat × Text) :=
  let digits := (t.take n).takeWhile CodePoint.isBasicDigit
  if digits.isEmpty then none else some (Decimal.digitsToNat digits, t.drop digits.length)

/-- Exactly `n` digits, and what follows them. -/
def exactly (n : Nat) (t : Text) : Option (Nat × Text) :=
  let digits := (t.take n).takeWhile CodePoint.isBasicDigit
  if digits.length == n then some (Decimal.digitsToNat digits, t.drop n) else none

/-- What follows a given sign. -/
def after (c : CodePoint) (t : Text) : Option Text :=
  match t with
  | d :: rest => if c = d then some rest else none
  | [] => none

/-- The offset at the end of a time of day. -/
def readOffset? (t : Text) : Option (Option Int) := do
  if t.isEmpty then return none
  match t.dropWhile fun c => c == 32 || c == 9 with
  | [] => none
  | c :: rest =>
    if c = ('Z' : CodePoint) then (if rest.isEmpty then some (some 0) else none)
    else if c = CodePoint.plus || c = CodePoint.minus then do
      let (hours, rest) ← upTo 2 rest
      let minutes ← if rest.isEmpty then some 0 else do
        let (minutes, rest) ← exactly 2 (← after CodePoint.colon rest)
        if rest.isEmpty then some minutes else none
      let offset : Int := hours * 60 + minutes
      some (some (if c = CodePoint.minus then -offset else offset))
    else none

/-- The time of day after a date. -/
def readClock? (t : Text) : Option (Nat × Nat × Nat × Text × Option Int) := do
  let t ← match t with
    | [] => none
    | c :: rest =>
      if c = ('T' : CodePoint) || c = ('t' : CodePoint) then some rest
      else if c == 32 || c == 9 then some (rest.dropWhile fun c => c == 32 || c == 9)
      else none
  let (hour, t) ← upTo 2 t
  let (minute, t) ← exactly 2 (← after CodePoint.colon t)
  let (second, t) ← exactly 2 (← after CodePoint.colon t)
  let (fraction, t) := match t with
    | CodePoint.dot :: rest => (rest.takeWhile CodePoint.isBasicDigit, rest.dropWhile CodePoint.isBasicDigit)
    | t => ([], t)
  return (hour, minute, second, fraction, ← readOffset? t)

/-- A written date. -/
def readTime? (t : Text) : Option WrittenTime := do
  let (year, t) ← exactly 4 t
  let (month, t) ← upTo 2 (← after CodePoint.minus t)
  let (day, t) ← upTo 2 (← after CodePoint.minus t)
  if t.isEmpty then return { year, month, day, clock := none }
  else return { year, month, day, clock := some (← readClock? t) }

/-- Whether a text is written like a date: without a time of day, month and day have two
    digits. -/
def isTime (t : Text) : Bool :=
  match readTime? t with
  | some w => w.clock.isSome || t.length == 10
  | none => false

/-- The number of days of a month. -/
def daysOf (year month : Nat) : Nat :=
  if month == 2 then
    if year % 4 == 0 && (year % 100 != 0 || year % 400 == 0) then 29 else 28
  else if month == 4 || month == 6 || month == 9 || month == 11 then 30
  else 31

/-- Why there is no such day or time. -/
inductive CalendarError where
  | year (y : Nat)
  | month
  | day
  | hour
  | minute
  | second
  /-- The offset is a day or more. -/
  | offset (minutes : Int)
  deriving DecidableEq

/-- The wording of a day or time that there is not. -/
def CalendarError.message : CalendarError → Text
  | year y => "year " ++ Text.ofNat y ++ " is out of range"
  | month => "month must be in 1..12"
  | day => "day is out of range for month"
  | hour => "hour must be in 0..23"
  | minute => "minute must be in 0..59"
  | second => "second must be in 0..59"
  | offset o =>
    "offset must be a timedelta strictly between -timedelta(hours=24) and timedelta(hours=24), not " ++
      Value.durationNested o

/-- Check that there is such a day. -/
def WrittenTime.checkDay (w : WrittenTime) : Except CalendarError Unit :=
  if w.year == 0 then .error (.year w.year)
  else if w.month == 0 || 12 < w.month then .error .month
  else if w.day == 0 || daysOf w.year w.month < w.day then .error .day
  else .ok ()

/-- The date or point in time that is written. -/
def WrittenTime.value (w : WrittenTime) : Except CalendarError Value :=
  match w.clock with
  | none => do
    w.checkDay
    return .date w.year w.month w.day
  | some (hour, minute, second, fraction, offset) => do
    match offset with
    | some o => if 1440 ≤ o.natAbs then throw (.offset o)
    | none => pure ()
    w.checkDay
    if 23 < hour then throw .hour
    if 59 < minute then throw .minute
    if 59 < second then throw .second
    return .moment
      { year := w.year, month := w.month, day := w.day, hour, minute, second
        microsecond := Decimal.digitsToNat (Text.padRight '0' 6 (fraction.take 6))
        offset }

/-! ## Meaning of an untagged scalar -/

/-- The text without a line feed at its end, which does not count. -/
def dropFinalNewline (t : Text) : Text :=
  if t.length > 1 && t.getLast? == some CodePoint.newline then t.dropLast else t

/-- The meaning of an untagged plain scalar. -/
def Meaning.ofPlain (t : Text) : Meaning :=
  let t := dropFinalNewline t
  if isOneOf boolWords t then .bool
  else if isFloat t then .float
  else if isInt t then .int
  else if t == "<<" then .merge
  else if isOneOf ["~", "null", "Null", "NULL", ""] t then .null
  else if isTime t then .time
  else if t == "=" then .content
  else if isOneOf ["!", "&", "*"] t then .unknown
  else .text

/-! ## Values -/

/-- The whole number with a given base below eleven or of sixteen. -/
def readBase? (base : Nat) (t : Text) : Option Int := do
  let t ← Decimal.plainNumeral? t
  let body := dropSign t
  let mark : Text := if base == 2 then "0b" else if base == 8 then "0o" else "0x"
  let body := (Text.dropLead? mark (body.map CodePoint.toLower)).getD body
  let body ← Decimal.dropUnderscores? body
  if body.isEmpty then none
  let digits ← body.mapM fun (c : CodePoint) => c.hexValue?.filter (· < base)
  let n : Nat := digits.foldl (fun n d => n * base + d) 0
  return if isNegative t then -(n : Int) else n

/-- A scalar that ends too early. -/
def emptyScalar : Failure := .fault .outOfBounds "string index out of range"

/-- A text that is no whole number to a base. -/
def notWhole (base : Nat) (t : Text) : Failure :=
  let digits := (t.filter CodePoint.isBasicDigit).length
  .fault .badValue
    (if base == 10 && Decimal.maxDigits < digits then
      "Exceeds the limit (4300 digits) for integer string conversion: value has " ++ Text.ofNat digits ++
        " digits; use sys.set_int_max_str_digits() to increase the limit"
    else "invalid literal for int() with base " ++ Text.ofNat base ++ ": " ++ t.quoted)

/-- The whole number of a text to a base. -/
def wholeValue (base : Nat) (t : Text) : Except Failure Int :=
  match if base == 10 then Decimal.readInt? t else readBase? base t with
  | some n => .ok n
  | none => .error (notWhole base t)

/-- The whole number of a scalar: binary, octal, decimal, hexadecimal or to the base of
    sixty, with a sign. -/
def intValue (t : Text) : Except Failure Value := do
  let t := t.filter (· != CodePoint.underscore)
  if t.isEmpty then throw emptyScalar
  let body := dropSign t
  let n : Int ←
    if body == "0" then pure 0
    else if body.startsWith "0b" then wholeValue 2 (body.drop 2)
    else if body.startsWith "0x" then wholeValue 16 (body.drop 2)
    else if body.isEmpty then throw emptyScalar
    else if body.head? == some ('0' : CodePoint) then wholeValue 8 body
    else if body.contains CodePoint.colon then
      pure (((← (body.pieces CodePoint.colon).mapM (wholeValue 10))).foldl (fun n d => n * 60 + d) 0)
    else wholeValue 10 body
  return .int (if isNegative t then -n else n)

/-- The floating-point number of a text. -/
def fractionValue (t : Text) : Except Failure Float :=
  match Decimal.readFloat? t with
  | some x => .ok x
  | none => .error (.fault .badValue ("could not convert string to float: " ++ t.quoted))

/-- The floating-point number of a scalar. -/
def floatValue (t : Text) : Except Failure Value := do
  let t := Text.lower (t.filter (· != CodePoint.underscore))
  if t.isEmpty then throw emptyScalar
  let body := dropSign t
  let signed (x : Float) : Value := .float (if isNegative t then -x else x)
  if body == ".inf" then return signed Decimal.infinity
  else if body == ".nan" then return .float Decimal.notANumber
  else if body.contains CodePoint.colon then
    let parts ← (body.pieces CodePoint.colon).mapM fractionValue
    let (sum, _) := parts.reverse.foldl (fun (sum, base) d => (sum + d * base, base * 60)) ((0 : Float), (1 : Float))
    return signed sum
  else return signed (← fractionValue body)

/-- The truth value of a scalar. -/
def boolValue (t : Text) : Except Failure Value :=
  let t := t.lower
  if isOneOf ["yes", "true", "on"] t then .ok (.bool true)
  else if isOneOf ["no", "false", "off"] t then .ok (.bool false)
  else .error (.fault .unknownName t.quoted)

/-- The date or point in time of a scalar. -/
def timeValue (t : Text) : Except Failure Value :=
  match readTime? (dropFinalNewline t) with
  | none => .error (.fault .lacksOperation "'NoneType' object has no attribute 'groupdict'")
  | some w => w.value.mapError fun e => .fault .badValue e.message

/-- The six bits that a sign of the base of sixty-four stands for. -/
def sixBits? (c : CodePoint) : Option Nat :=
  if 65 ≤ c && c ≤ 90 then some (c - 65)
  else if 97 ≤ c && c ≤ 122 then some (c - 71)
  else if 48 ≤ c && c ≤ 57 then some (c + 4)
  else if c = CodePoint.plus then some 62
  else if c = CodePoint.slash then some 63
  else none

/-- The bytes of a text to the base of sixty-four, four signs for three bytes; `place` is
    the number of signs of the group at hand, `left` holds its bits that are not yet in a
    byte, and `pads` counts the equals signs after them.  Other signs are passed over. -/
def decodeSixBits? (place left pads : Nat) : Text → Option (List UInt8)
  | [] => if place == 0 then some [] else none
  | c :: rest =>
    if c = CodePoint.equals then
      if 2 ≤ place then
        if 4 ≤ place + pads + 1 then some [] else decodeSixBits? place left (pads + 1) rest
      else decodeSixBits? place left pads rest
    else match sixBits? c with
      | none => decodeSixBits? place left pads rest
      | some b =>
        match place with
        | 0 => decodeSixBits? 1 b 0 rest
        | 1 => (decodeSixBits? 2 (b % 16) 0 rest).map (UInt8.ofNat (left * 4 + b / 16) :: ·)
        | 2 => (decodeSixBits? 3 (b % 4) 0 rest).map (UInt8.ofNat (left * 16 + b / 4) :: ·)
        | _ => (decodeSixBits? 0 0 0 rest).map (UInt8.ofNat (left * 64 + b) :: ·)

/-- The bytes of a scalar. -/
def bytesValue (t : Text) : Except Failure Value :=
  if t.all (· < 128) then
    match decodeSixBits? 0 0 0 t with
    | some b => .ok (.bytes b)
    | none => .error .malformed
  else .error .malformed

end NoteAccess.Yaml
