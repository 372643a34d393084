/-
  NoteAccess.Text

  Text as a list of code points.  A text read from an escape may hold a
  surrogate, which `Char` excludes, so a code point is a number here; character
  and string literals coerce.

  The module holds the operations that need no character table: prefixes,
  splitting at a separator, joining, replacing one code point, searching, the
  order by code point, and decimal numerals.
-/

namespace NoteAccess

/-- A position of the coded character set, surrogates included. -/
abbrev CodePoint := Nat

/-- A sequence of code points. -/
abbrev Text := List CodePoint

instance : Coe Char CodePoint := ⟨Char.toNat⟩

instance : Coe String Text := ⟨fun s => s.toList.map Char.toNat⟩

/-! ## Named code points, for use in patterns -/

namespace CodePoint

/-- The horizontal tab. -/
@[match_pattern] abbrev tab : CodePoint := 9
/-- The line feed. -/
@[match_pattern] abbrev newline : CodePoint := 10
/-- The carriage return. -/
@[match_pattern] abbrev carriageReturn : CodePoint := 13
/-- The space. -/
@[match_pattern] abbrev space : CodePoint := 32
/-- The exclamation mark. -/
@[match_pattern] abbrev bang : CodePoint := 33
/-- The double quotation mark. -/
@[match_pattern] abbrev quote : CodePoint := 34
/-- The number sign. -/
@[match_pattern] abbrev hash : CodePoint := 35
/-- The dollar sign. -/
@[match_pattern] abbrev dollar : CodePoint := 36
/-- The percent sign. -/
@[match_pattern] abbrev percent : CodePoint := 37
/-- The ampersand. -/
@[match_pattern] abbrev ampersand : CodePoint := 38
/-- The apostrophe. -/
@[match_pattern] abbrev apostrophe : CodePoint := 39
/-- The opening parenthesis. -/
@[match_pattern] abbrev openParen : CodePoint := 40
/-- The closing parenthesis. -/
@[match_pattern] abbrev closeParen : CodePoint := 41
/-- The asterisk. -/
@[match_pattern] abbrev star : CodePoint := 42
/-- The plus sign. -/
@[match_pattern] abbrev plus : CodePoint := 43
/-- The comma. -/
@[match_pattern] abbrev comma : CodePoint := 44
/-- The hyphen or minus sign. -/
@[match_pattern] abbrev minus : CodePoint := 45
/-- The full stop. -/
@[match_pattern] abbrev dot : CodePoint := 46
/-- The slash. -/
@[match_pattern] abbrev slash : CodePoint := 47
/-- The colon. -/
@[match_pattern] abbrev colon : CodePoint := 58
/-- The less-than sign. -/
@[match_pattern] abbrev less : CodePoint := 60
/-- The equals sign. -/
@[match_pattern] abbrev equals : CodePoint := 61
/-- The greater-than sign. -/
@[match_pattern] abbrev greater : CodePoint := 62
/-- The question mark. -/
@[match_pattern] abbrev query : CodePoint := 63
/-- The commercial at. -/
@[match_pattern] abbrev atSign : CodePoint := 64
/-- The opening bracket. -/
@[match_pattern] abbrev openBracket : CodePoint := 91
/-- The backslash. -/
@[match_pattern] abbrev backslash : CodePoint := 92
/-- The closing bracket. -/
@[match_pattern] abbrev closeBracket : CodePoint := 93
/-- The circumflex. -/
@[match_pattern] abbrev caret : CodePoint := 94
/-- The underscore. -/
@[match_pattern] abbrev underscore : CodePoint := 95
/-- The backtick. -/
@[match_pattern] abbrev backtick : CodePoint := 96
/-- The opening brace. -/
@[match_pattern] abbrev openBrace : CodePoint := 123
/-- The vertical bar. -/
@[match_pattern] abbrev bar : CodePoint := 124
/-- The closing brace. -/
@[match_pattern] abbrev closeBrace : CodePoint := 125
/-- The tilde. -/
@[match_pattern] abbrev tilde : CodePoint := 126

end CodePoint

namespace Text

/-- The text of a string literal. -/
def ofString (s : String) : Text := s.toList.map Char.toNat

/-- A text for display; a surrogate shows as the replacement character. -/
def display (t : Text) : String :=
  String.ofList (t.map fun c => if c.isValidChar then Char.ofNat c else Char.ofNat 0xFFFD)

/-- Texts are compared code point by code point, a proper beginning first. -/
def compare : Text → Text → Ordering
  | [], [] => .eq
  | [], _ :: _ => .lt
  | _ :: _, [] => .gt
  | a :: s, b :: t => (Ord.compare a b).then (compare s t)

/-- The order in which texts are listed. -/
def le (s t : Text) : Bool := compare s t != .gt

/-! ## Beginnings and ends -/

/-- What follows `lead` in `t`, when `t` begins with it. -/
def dropLead? : Text → Text → Option Text
  | [], t => some t
  | _ :: _, [] => none
  | a :: s, b :: t => if a = b then dropLead? s t else none

/-- Whether `t` begins with `lead`. -/
def startsWith (t lead : Text) : Bool := (dropLead? lead t).isSome

/-- Whether `t` ends with `tail`. -/
def endsWith (t tail : Text) : Bool := startsWith t.reverse tail.reverse

/-- `t` without the code points at its end that satisfy `p`. -/
def dropRightWhile (p : CodePoint → Bool) (t : Text) : Text :=
  (t.reverse.dropWhile p).reverse

/-! ## Pieces -/

/-- A code point put in front of pieces: a separator begins a new piece. -/
def putPiece (sep c : CodePoint) (rest : List Text) : List Text :=
  if c = sep then [] :: rest
  else match rest with
    | [] => [[c]]
    | piece :: rest => (c :: piece) :: rest

/-- The pieces of a text between the occurrences of `sep`; never empty. -/
def pieces (sep : CodePoint) (t : Text) : List Text := t.foldr (putPiece sep) [[]]

@[simp] theorem pieces_nil (sep : CodePoint) : pieces sep [] = [[]] := rfl

@[simp] theorem pieces_cons (sep c : CodePoint) (t : Text) :
    pieces sep (c :: t) = putPiece sep c (pieces sep t) := rfl

/-- The pieces joined with `sep` between them. -/
def join (sep : Text) (pieces : List Text) : Text := sep.intercalate pieces

/-- The pieces of a text between the occurrences of a separator of several code points. -/
def splitOnText (sep : Text) (t : Text) : List Text :=
  go t.length [] t
where
  go : Nat → Text → Text → List Text
    | 0, seen, t => [seen.reverse ++ t]
    | _ + 1, seen, [] => [seen.reverse]
    | fuel + 1, seen, c :: t =>
      match dropLead? sep (c :: t) with
      | some rest => seen.reverse :: go fuel [] rest
      | none => go fuel (c :: seen) t

/-- Each occurrence of the code point `old` becomes the text `new`. -/
def replace (t : Text) (old : CodePoint) (new : Text) : Text :=
  t.flatMap fun c => if c = old then new else [c]

/-- The text before the first `sep` and the text after it, if it occurs. -/
def cut? (sep : CodePoint) : Text → Option (Text × Text)
  | [] => none
  | c :: t => if c = sep then some ([], t) else (cut? sep t).map fun (a, b) => (c :: a, b)

/-- Whether `part` occurs in `t` as contiguous text. -/
def hasPart (part : Text) : Text → Bool
  | [] => part.isEmpty
  | c :: t => startsWith (c :: t) part || hasPart part t

/-- `t` repeated `n` times. -/
def times (n : Nat) (t : Text) : Text := (List.replicate n t).flatten

/-- `t` with `fill` on its right up to `width` code points. -/
def padRight (fill : CodePoint) (width : Nat) (t : Text) : Text :=
  t ++ List.replicate (width - t.length) fill

/-- `t` with `fill` on its left up to `width` code points. -/
def padLeft (fill : CodePoint) (width : Nat) (t : Text) : Text :=
  List.replicate (width - t.length) fill ++ t

/-! ## Numerals -/

/-- The decimal numeral of a natural number. -/
def ofNat (n : Nat) : Text := (Nat.toDigits 10 n).map Char.toNat

/-- The decimal numeral of an integer, with a minus sign if it is negative. -/
def ofInt (i : Int) : Text := if i < 0 then ('-' : CodePoint) :: ofNat i.natAbs else ofNat i.natAbs

/-- The lower-case hexadecimal numeral, with zeros on its left up to `width` digits. -/
def hex (width n : Nat) : Text :=
  padLeft '0' width ((Nat.toDigits 16 n).map Char.toNat)

end Text

namespace CodePoint

/-- The digits 0 to 9 of the basic alphabet. -/
def isBasicDigit (c : CodePoint) : Bool := 48 ≤ c && c ≤ 57

/-- The letters A to Z and a to z. -/
def isBasicLetter (c : CodePoint) : Bool := (65 ≤ c && c ≤ 90) || (97 ≤ c && c ≤ 122)

/-- The value of a hexadecimal digit. -/
def hexValue? (c : CodePoint) : Option Nat :=
  if 48 ≤ c && c ≤ 57 then some (c - 48)
  else if 97 ≤ c && c ≤ 102 then some (c - 87)
  else if 65 ≤ c && c ≤ 70 then some (c - 55)
  else none

/-- Whether the code point is one half of a surrogate pair. -/
def isSurrogate (c : CodePoint) : Bool := 0xD800 ≤ c && c ≤ 0xDFFF

end CodePoint

end NoteAccess
