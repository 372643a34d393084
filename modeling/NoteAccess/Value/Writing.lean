/-
  NoteAccess.Value.Writing

  Values written as text, where this can fail: a number may have too many digits, and
  collections may be nested more deeply than calls can be.

  What is written is looked at layer by layer.  So it need not be a finite tree: a
  collection that is met again inside itself is written as dots between its brackets.
-/

import NoteAccess.Decimal.Numeral
import NoteAccess.Stack
import NoteAccess.Value

namespace NoteAccess

/-- A value with its parts, whatever those are. -/
inductive Layer (ν : Type) where
  | null
  | bool (b : Bool)
  | int (i : Int)
  | float (x : Float)
  | text (t : Text)
  | list (items : List ν)
  | tuple (items : List ν)
  | dict (entries : List (ν × ν))
  | set (items : List ν)
  | date (year month day : Nat)
  | moment (m : Moment)
  | bytes (content : List UInt8)

/-- What can be looked at layer by layer. -/
class Layered (ν : Type) where
  layer : ν → Layer ν
  /-- Whether two collections are one and the same, rather than alike. -/
  same : ν → ν → Bool

/-- The outermost layer of a value. -/
def Value.layer : Value → Layer Value
  | null => .null
  | bool b => .bool b
  | int i => .int i
  | float x => .float x
  | text t => .text t
  | list items => .list items
  | tuple items => .tuple items
  | dict entries => .dict entries
  | set items => .set items
  | date y m d => .date y m d
  | moment m => .moment m
  | bytes content => .bytes content

/-- No collection of a tree is inside itself. -/
instance : Layered Value := ⟨Value.layer, fun _ _ => false⟩

/-- The numeral of a whole number, unless it has too many digits. -/
def Decimal.writeInt (i : Int) : Except Fault Text :=
  if maxDigits < (Text.ofNat i.natAbs).length then .error .badValue else .ok (Text.ofInt i)

namespace Layered

variable {ν : Type} [Layered ν]

/-- Texts between brackets. -/
def bracketed (left right : Text) (parts : List Text) : Text := left ++ Text.join ", " parts ++ right

/-- The text of a value inside a collection; `around` are the collections that it is in. -/
def nested : Nat → List ν → ν → Except Fault Text
  | 0, _, _ => .error .tooDeep
  | room + 1, around, v =>
    let inside := nested room (v :: around)
    let again := around.any (same v)
    match layer v with
    | .null => .ok "None"
    | .bool b => .ok (if b then "True" else "False")
    | .int i => Decimal.writeInt i
    | .float x => .ok (Decimal.writeFloat x)
    | .text t => .ok t.quoted
    | .list items =>
      if again then .ok "[...]" else (items.mapM inside).map (bracketed "[" "]")
    | .tuple items =>
      if again then .ok "(...)"
      else (items.mapM inside).map (bracketed "(" (if items.length = 1 then ",)" else ")"))
    | .dict entries =>
      if again then .ok "\x7b...\x7d"
      else
        (entries.mapM fun (k, v) => do return (← inside k) ++ ": " ++ (← inside v)).map
          (bracketed "\x7b" "\x7d")
    | .set items =>
      if items.isEmpty then .ok "set()" else (items.mapM inside).map (bracketed "\x7b" "\x7d")
    | .date y m d => .ok (Value.date y m d).nested
    | .moment m => .ok (Value.momentNested m)
    | .bytes content => .ok (Text.quotedBytes content)

/-- The text of a value on its own. -/
def written [Stack] (v : ν) : Except Fault Text :=
  match layer v with
  | .text t => .ok t
  | .date y m d => .ok (Value.dateText y m d)
  | .moment m => .ok (Value.momentText m)
  | _ => nested Stack.room [] v

/-- The wording of a value that cannot be written. -/
def complaint (f : Fault) : Text :=
  if f = .tooDeep then Stack.exceeded ++ " while getting the repr of an object"
  else "Exceeds the limit (" ++ Text.ofNat Decimal.maxDigits ++
    " digits) for integer string conversion; use sys.set_int_max_str_digits() to increase the limit"

end Layered

end NoteAccess
