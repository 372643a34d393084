/-
  NoteAccess.Text.Utf8

  Text as bytes.  Every scalar value has one encoding of one to four bytes; a
  surrogate has none.  Decoding stops at the first byte that begins no encoding
  and tells where and why.
-/

import NoteAccess.Text

namespace NoteAccess.Utf8

/-- What is wrong with bytes. -/
inductive Problem where
  /-- A byte begins no encoding. -/
  | badStart
  /-- A byte does not continue the encoding before it. -/
  | badContinuation
  /-- The bytes end inside an encoding. -/
  | cutOff
  deriving DecidableEq

/-- The place and the cause of a failure to decode. -/
structure DecodeError where
  /-- The position of the byte that begins the faulty encoding. -/
  position : Nat
  /-- How many bytes belong to the faulty encoding. -/
  size : Nat
  /-- The first of these bytes. -/
  lead : Nat
  problem : Problem
  deriving DecidableEq

/-- The wording of a cause. -/
def Problem.message : Problem → Text
  | badStart => "invalid start byte"
  | badContinuation => "invalid continuation byte"
  | cutOff => "unexpected end of data"

/-- The wording of a failure to decode. -/
def DecodeError.message (e : DecodeError) : Text :=
  let place : Text :=
    if e.size == 1 then "byte 0x" ++ Text.hex 2 e.lead ++ " in position " ++ Text.ofNat e.position
    else "bytes in position " ++ Text.ofNat e.position ++ "-" ++ Text.ofNat (e.position + e.size - 1)
  "'utf-8' codec can't decode " ++ place ++ ": " ++ e.problem.message

/-- A byte that continues an encoding. -/
def isTail (b : Nat) : Bool := 0x80 ≤ b && b < 0xC0

/-- Whether `b` may follow the first byte `a`: overlong forms, surrogates and what is
    above the last code point are excluded. -/
def maySecond (a b : Nat) : Bool :=
  isTail b && !(a == 0xE0 && b < 0xA0) && !(a == 0xED && 0xA0 ≤ b) &&
    !(a == 0xF0 && b < 0x90) && !(a == 0xF4 && 0x90 ≤ b)

/-- The code point at the beginning of bytes, and how many bytes encode it. -/
def first (position a : Nat) (rest : List Nat) : Except DecodeError (CodePoint × Nat) :=
  let fail (size : Nat) (problem : Problem) : Except DecodeError (CodePoint × Nat) :=
    .error ⟨position, size, a, problem⟩
  if a < 0x80 then .ok (a, 1)
  else if a < 0xC2 || 0xF5 ≤ a then fail 1 .badStart
  else if a < 0xE0 then
    match rest with
    | b :: _ => if isTail b then .ok ((a - 0xC0) * 64 + (b - 0x80), 2) else fail 1 .badContinuation
    | [] => fail 1 .cutOff
  else
    match rest with
    | [] => fail 1 .cutOff
    | b :: rest =>
      if !maySecond a b then fail 1 .badContinuation
      else match rest with
        | [] => fail 2 .cutOff
        | c :: rest =>
          if !isTail c then fail 2 .badContinuation
          else if a < 0xF0 then .ok ((a - 0xE0) * 4096 + (b - 0x80) * 64 + (c - 0x80), 3)
          else match rest with
            | [] => fail 3 .cutOff
            | d :: _ =>
              if !isTail d then fail 3 .badContinuation
              else .ok ((a - 0xF0) * 262144 + (b - 0x80) * 4096 + (c - 0x80) * 64 + (d - 0x80), 4)

/-- The text of bytes, from a position on; `seen` is the text before it in reverse, and
    `skip` tells how many bytes belong to the code point last seen. -/
def decodeFrom (position skip : Nat) (seen : Text) : List Nat → Except DecodeError Text
  | [] => .ok seen.reverse
  | a :: rest =>
    match skip with
    | skip + 1 => decodeFrom (position + 1) skip seen rest
    | 0 =>
      match first position a rest with
      | .error e => .error e
      | .ok (c, size) => decodeFrom (position + 1) (size - 1) (c :: seen) rest

/-- The text of bytes. -/
def decode (bytes : List UInt8) : Except DecodeError Text :=
  decodeFrom 0 0 [] (bytes.map UInt8.toNat)

/-- The bytes of a code point. -/
def encodePoint (c : CodePoint) : List Nat :=
  if c < 0x80 then [c]
  else if c < 0x800 then [0xC0 + c / 64, 0x80 + c % 64]
  else if c < 0x10000 then [0xE0 + c / 4096, 0x80 + c / 64 % 64, 0x80 + c % 64]
  else [0xF0 + c / 262144, 0x80 + c / 4096 % 64, 0x80 + c / 64 % 64, 0x80 + c % 64]

/-- The bytes of a text; none if it holds a surrogate. -/
def encode? (t : Text) : Option (List UInt8) :=
  if t.any CodePoint.isSurrogate then none else some (t.flatMap fun c => (encodePoint c).map UInt8.ofNat)

/-- The wording of a text that has no bytes: where its first surrogates are. -/
def unencodableMessage (t : Text) : Text :=
  let before := (t.takeWhile (! CodePoint.isSurrogate ·)).length
  let run := (t.drop before).takeWhile CodePoint.isSurrogate
  "'utf-8' codec can't encode character" ++
    (match run with
      | [c] => " '\\u" ++ Text.hex 4 c ++ "' in position " ++ Text.ofNat before
      | run => "s in position " ++ Text.ofNat before ++ "-" ++ Text.ofNat (before + run.length - 1)) ++
    ": surrogates not allowed"

/-- The number of bytes of a text. -/
def size (t : Text) : Nat := t.foldl (fun n c => n + (encodePoint c).length) 0

end NoteAccess.Utf8
