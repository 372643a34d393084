/-
  NoteAccess.Text.SharedCapital

  Small letters that have the same capital letter, such as the two small sigmas.
-/

import NoteAccess.Text.Letters

namespace NoteAccess

/-- Groups of small letters with one capital letter. -/
def sharedCapitals : List (List CodePoint) := [
  [105, 305], [115, 383], [181, 956], [837, 953, 8126], [912, 8147], [944, 8163], [946, 976],
  [949, 1013], [952, 977], [954, 1008], [960, 982], [961, 1009], [962, 963], [966, 981],
  [1074, 7296], [1076, 7297], [1086, 7298], [1089, 7299], [1090, 7300, 7301], [1098, 7302],
  [1123, 7303], [7304, 42571], [7777, 7835], [64261, 64262]]

/-- The other small letters that have the same capital letter. -/
def CodePoint.alikeLetters (c : CodePoint) : List CodePoint :=
  match sharedCapitals.find? (·.contains c) with
  | some group => group.filter (· != c)
  | none => []

end NoteAccess
