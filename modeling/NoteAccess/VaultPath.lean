/-
  NoteAccess.VaultPath

  Paths of notes inside a vault.  Segments are separated by `/`; the normal form
  has no leading or doubled separator, no backslash and no `.` segment, and
  keeps one trailing separator, which marks a folder.
-/

import NoteAccess.Text

namespace NoteAccess.VaultPath

/-- The separators of a path in one spelling. -/
def slashed (path : Text) : Text := path.replace CodePoint.backslash [CodePoint.slash]

/-- The path with `/` for a backslash and without leading separators. -/
def relative (path : Text) : Text := (slashed path).dropWhile (· == CodePoint.slash)

/-- The path with each run of separators reduced to one. -/
def mergeSlashes : Text → Text
  | [] => []
  | c :: rest =>
    if c = CodePoint.slash && rest.head? == some CodePoint.slash then mergeSlashes rest
    else c :: mergeSlashes rest

/-- The segments without `.`, except that a last `.` leaves the trailing separator. -/
def dropDots : List Text → List Text
  | [] => []
  | [last] => if last = "." then [[]] else [last]
  | segment :: rest => if segment = "." then dropDots rest else segment :: dropDots rest

/-- The normal form of a vault path. -/
def normalize (path : Text) : Text :=
  let merged := (mergeSlashes (slashed path)).dropWhile (· == CodePoint.slash)
  Text.join [CodePoint.slash] (dropDots (Text.pieces CodePoint.slash merged))

/-- The longest path that is evaluated. -/
def maxLength : Nat := 4096

/-- Why a path is not evaluated. -/
inductive Refusal where
  | tooLong
  | hasNul
  | leavesVault
  deriving DecidableEq, Repr

/-- The wording of a refused path. -/
def Refusal.message : Refusal → Text
  | tooLong => "Path exceeds maximum length (" ++ Text.ofNat maxLength ++ ")"
  | hasNul => "Path contains null bytes"
  | leavesVault => "Path traversal not allowed"

/-- Whether a path may be evaluated. -/
def check (path : Text) : Except Refusal Unit :=
  if maxLength < path.length then .error .tooLong
  else if path.contains 0 then .error .hasNul
  else if (Text.pieces CodePoint.slash path).contains ".." then .error .leavesVault
  else .ok ()

/-- The part of a path after its last separator. -/
def basename (path : Text) : Text :=
  (path.reverse.takeWhile (· != CodePoint.slash)).reverse

end NoteAccess.VaultPath
