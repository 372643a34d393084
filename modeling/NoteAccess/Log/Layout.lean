/-
  NoteAccess.Log.Layout

  The layout of a log line: a text with fields `%(name)s`, whose conversion may
  have flags, a width and a precision.  A layout with a field that is unknown, or
  that is malformed, shows no line at all.
-/

import NoteAccess.Log.Line
import NoteAccess.Setting
import NoteAccess.Text.Word

namespace NoteAccess

/-- How a field is shown. -/
structure Conversion where
  flags : Text := []
  width : Nat := 0
  precision : Option Nat := none
  /-- The letter that ends the conversion. -/
  letter : CodePoint
  deriving DecidableEq

/-- A part of a layout. -/
inductive LayoutPart where
  | words (t : Text)
  | field (name : Text) (c : Conversion)
  deriving DecidableEq

/-- The parts of a layout; none if it is malformed. -/
structure Layout where
  parts : Option (List LayoutPart)

/-- The value of a field. -/
inductive FieldValue where
  | text (t : Text)
  | number (n : Nat)

namespace Conversion

/-- The flags that a conversion may have. -/
def flagMarks : Text := "#0+ -"

/-- The letters that a conversion may end with, in small letters. -/
def letters : Text := "diouxefgcrsa%"

/-- The number at the beginning of a text, and the rest. -/
def readNumber (t : Text) : Nat × Text :=
  (Decimal.digitsToNat (t.takeWhile CodePoint.isBasicDigit), t.dropWhile CodePoint.isBasicDigit)

/-- The conversion at the beginning of a text, and the rest. -/
def read? (t : Text) : Option (Conversion × Text) :=
  let flags := t.takeWhile flagMarks.contains
  let (width, t) := readNumber (t.dropWhile flagMarks.contains)
  let (precision, t) := match t with
    | CodePoint.dot :: t => let (n, t) := readNumber t; (some n, t)
    | t => (none, t)
  match t with
  | letter :: t => some (⟨flags, width, precision, letter⟩, t)
  | [] => none

/-- A text on its side of the width. -/
def pad (c : Conversion) (t : Text) : Text :=
  if c.flags.contains CodePoint.minus then t.padRight CodePoint.space c.width
  else t.padLeft CodePoint.space c.width

/-- A number with its sign, and zeros if there is a flag for them. -/
def padNumber (c : Conversion) (n : Nat) : Text :=
  let sign : Text := if c.flags.contains CodePoint.plus then [CodePoint.plus]
    else if c.flags.contains CodePoint.space then [CodePoint.space] else []
  let digits := (Text.ofNat n).padLeft '0' (c.precision.getD 0)
  if c.flags.contains '0' && !c.flags.contains CodePoint.minus then
    sign ++ digits.padLeft '0' (c.width - sign.length)
  else c.pad (sign ++ digits)

/-- A text cut to the precision. -/
def cut (c : Conversion) (t : Text) : Text :=
  match c.precision with
  | some n => t.take n
  | none => t

/-- A field as a conversion shows it, if it can. -/
def show? (c : Conversion) (v : FieldValue) : Option Text :=
  match v with
  | .text t =>
    if c.letter = 's' then some (c.pad (c.cut t))
    else if c.letter = 'r' then some (c.pad (c.cut t.quoted))
    else none
  | .number n =>
    if c.letter = 's' || c.letter = 'r' || c.letter = 'a' then some (c.pad (c.cut (Text.ofNat n)))
    else if c.letter = 'd' || c.letter = 'i' || c.letter = 'u' then some (c.padNumber n)
    else none

end Conversion

namespace Layout

/-! ## Reading -/

/-- The parts of a text; two percent signs stand for one.  `fuel` is at least its length. -/
def readParts? : (fuel : Nat) → Text → Option (List LayoutPart)
  | 0, t => if t.isEmpty then some [] else none
  | _ + 1, [] => some []
  | fuel + 1, CodePoint.percent :: CodePoint.percent :: t =>
    (readParts? fuel t).map (.words [CodePoint.percent] :: ·)
  | fuel + 1, CodePoint.percent :: CodePoint.openParen :: t => do
    let (name, t) ← Text.cut? CodePoint.closeParen t
    let (c, t) ← Conversion.read? t
    return .field name c :: (← readParts? fuel t)
  | _ + 1, CodePoint.percent :: _ => none
  | fuel + 1, c :: t => (readParts? fuel t).map (.words [c] :: ·)

/-- The layout of a text. -/
def ofText (t : Text) : Layout := ⟨readParts? t.length t⟩

/-! ## Acceptance -/

/-- A width or a precision dropped: digits, or a star. -/
def dropCount (t : Text) : Text :=
  match t with
  | CodePoint.star :: t => t
  | t => t.dropWhile CodePoint.isDigit

/-- Whether a text begins with a conversion. -/
def beginsWithConversion (t : Text) : Bool :=
  let t := dropCount (t.dropWhile Conversion.flagMarks.contains)
  let t := match t with
    | CodePoint.dot :: t => dropCount t
    | t => t
  match t with
  | c :: _ => Conversion.letters.contains (if 65 ≤ c && c ≤ 90 then c + 32 else c)
  | [] => false

/-- Whether a text begins with a field. -/
def beginsWithField (t : Text) : Bool :=
  match t with
  | CodePoint.percent :: CodePoint.openParen :: t =>
    let name := t.takeWhile CodePoint.isWord
    match t.drop name.length with
    | CodePoint.closeParen :: t => !name.isEmpty && beginsWithConversion t
    | _ => false
  | _ => false

/-- Whether a text is accepted as a layout: it has a field. -/
def isAccepted : Text → Bool
  | [] => false
  | c :: t => beginsWithField (c :: t) || isAccepted t

/-! ## Showing -/

/-- The fields of a log line; `stamp` is the time, and the name is that of the log. -/
def fieldsOf (name stamp message : Text) (l : LogLine) : List (Text × FieldValue) := [
  ("name", .text name),
  ("levelname", .text l.severity.name),
  ("levelno", .number l.severity.number),
  ("message", .text message),
  ("msg", .text message),
  ("asctime", .text stamp),
  ("processName", .text "MainProcess"),
  ("threadName", .text "MainThread")]

/-- A part with the fields in their places. -/
def showPart (fields : List (Text × FieldValue)) : LayoutPart → Option Text
  | .words t => some t
  | .field name c => (fields.lookup name).bind c.show?

/-- The parts with the fields in their places, if all can be shown. -/
def fill? (l : Layout) (fields : List (Text × FieldValue)) : Option Text := do
  return ((← (← l.parts).mapM (showPart fields))).flatten

end Layout

end NoteAccess
