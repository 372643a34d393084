/-
  NoteAccess.Text.Ranges

  Sets of code points as ascending boundaries: `#[a, b, c, d]` holds the code
  points from `a` below `b` and from `c` below `d`.  A code point is in the set
  when the number of boundaries not above it is odd, which a binary search finds.
-/

import NoteAccess.Text

namespace NoteAccess

/-- Ascending boundaries at which membership changes, beginning outside the set. -/
structure CodePointSet where
  /-- Where membership changes. -/
  bounds : Array CodePoint

namespace CodePointSet

/-- The number of boundaries not above `c` among those from `lo` below `hi`, plus `lo`. -/
def countUpTo (bounds : Array CodePoint) (c : CodePoint) (lo hi : Nat) : Nat :=
  if lo < hi then
    let mid := (lo + hi) / 2
    if bounds.getD mid 0 ≤ c then countUpTo bounds c (mid + 1) hi
    else countUpTo bounds c lo mid
  else lo
termination_by hi - lo

/-- Membership of a code point. -/
def contains (s : CodePointSet) (c : CodePoint) : Bool :=
  countUpTo s.bounds c 0 s.bounds.size % 2 == 1

end CodePointSet

end NoteAccess
