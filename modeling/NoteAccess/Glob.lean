/-
  NoteAccess.Glob

  Globs: patterns for vault paths.  A `**` segment stands for any number of
  segments, `*` for any run inside a segment, `?` for one code point, `[…]` for
  one of a class, and braces for alternatives.

  A pattern without braces becomes a list of parts (`fragments`); a pattern with
  braces matches what one of its expansions matches.
-/

import NoteAccess.Glob.Braces
import NoteAccess.Glob.Fragment
import NoteAccess.VaultPath

namespace NoteAccess.Glob

/-- What follows a class that opens at the head of `t`: its body and the rest of the
    segment.  A closing bracket right after the opening one belongs to the body, and
    one right after the mark of negation does not close a class either. -/
def classBody? (t : Text) : Option (Text × Text) :=
  match t with
  | [] => none
  | c :: rest =>
    if c = CodePoint.bang || c = CodePoint.caret || c = CodePoint.closeBracket then
      (Text.cut? CodePoint.closeBracket rest).map fun (body, rest) => (c :: body, rest)
    else Text.cut? CodePoint.closeBracket t

/-- The class with the given body, which a leading `!` or `^` negates. -/
def classOf : Text → Fragment
  | CodePoint.bang :: body | CodePoint.caret :: body => .noneOf body
  | body => .oneOf body

/-- What follows the body of a class is shorter than the body and the rest together. -/
theorem length_of_cut? {sep : CodePoint} {t a b : Text} (h : Text.cut? sep t = some (a, b)) :
    b.length < t.length := by
  induction t generalizing a with
  | nil => simp [Text.cut?] at h
  | cons c t ih =>
    unfold Text.cut? at h
    split at h
    · cases h; simp
    · simp only [Option.map_eq_some_iff] at h
      obtain ⟨⟨a', b'⟩, h', he⟩ := h
      cases he
      exact Nat.lt_succ_of_lt (ih h')

/-- What follows the body of a class is shorter than what follows its opening bracket. -/
theorem length_of_classBody? {t body rest : Text} (h : classBody? t = some (body, rest)) :
    rest.length < t.length := by
  unfold classBody? at h
  split at h
  · simp at h
  · split at h
    · simp only [Option.map_eq_some_iff] at h
      obtain ⟨⟨a, b⟩, h', he⟩ := h
      cases he
      exact Nat.lt_succ_of_lt (length_of_cut? h')
    · exact length_of_cut? h

/-- The parts of one segment; `starred` says that the part before is a run of stars. -/
def segmentFragments (starred : Bool) (t : Text) : List Fragment :=
  match t with
  | [] => []
  | c :: rest =>
    if c = CodePoint.star then
      if starred then segmentFragments true rest else .run :: segmentFragments true rest
    else if c = CodePoint.query then .one :: segmentFragments false rest
    else if c = CodePoint.openBracket then
      match _h : classBody? rest with
      | some (body, after) => classOf body :: segmentFragments false after
      | none => .literal c :: segmentFragments false rest
    else .literal c :: segmentFragments false rest
termination_by t.length
decreasing_by
  all_goals first
    | exact Nat.lt_succ_of_lt (length_of_classBody? _h)
    | simp_wf

/-- The segment that stands for any number of segments. -/
def anySegments : Text := "**"

/-- The parts of the segments after `previous`. -/
def laterFragments (previous : Text) : List Text → List Fragment
  | [] => []
  | segment :: rest =>
    if segment = anySegments then
      if rest.isEmpty then [.below] else .separator :: .folders :: laterFragments segment rest
    else
      (if previous = anySegments then [] else [.separator]) ++
        segmentFragments false segment ++ laterFragments segment rest

/-- The parts of a list of segments. -/
def segmentsFragments : List Text → List Fragment
  | [] => []
  | segment :: rest =>
    if segment = anySegments then
      if rest.isEmpty then [.anything] else .folders :: laterFragments segment rest
    else segmentFragments false segment ++ laterFragments segment rest

/-- The parts of a glob without braces. -/
def fragments (pattern : Text) : List Fragment :=
  segmentsFragments (Text.pieces CodePoint.slash (VaultPath.relative pattern))

/-- A glob without braces as a regular expression. -/
def source (pattern : Text) : Text := (fragments pattern).flatMap Fragment.source

/-- A glob as a regular expression with an alternative for each of its expansions. -/
def wholeSource (pattern : Text) : Text :=
  "(?:" ++ Text.join "|" ((expandBraces pattern).map source) ++ ")"

/-- A glob ready for matching: the parts of each of its expansions. -/
structure Program where
  alternatives : List (List Fragment)

/-- The program of the patterns that a glob is expanded to, if all classes in them are in order. -/
def ofExpansions? (patterns : List Text) : Option Program :=
  let alternatives := patterns.map fragments
  if alternatives.all (·.all Fragment.isValid) then some ⟨alternatives⟩ else none

/-- The program of a glob, if all classes in it are in order. -/
def compile? (pattern : Text) : Option Program := ofExpansions? (expandBraces pattern)

/-- The program of a glob, if there is room for its expansion. -/
def compileWithin (room : Nat) (pattern : Text) : Except Fault (Option Program) :=
  (expandWithin room pattern).map ofExpansions?

/-- Whether the program matches the whole text. -/
def Program.matches (p : Program) (t : Text) : Bool := p.alternatives.any (matchAll · t)

end NoteAccess.Glob
