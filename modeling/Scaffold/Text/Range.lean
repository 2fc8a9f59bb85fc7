/-!
# Sets of characters given by ranges

The tables of character properties are lists of ranges of code points. This module says when a
character lies in one, and is all that the rest of the library knows about the shape of a table.
-/

namespace Scaffold.Text

/-- `c` lies in one of the ranges of `table`; both ends of a range belong to it. -/
def inRanges (table : List (Nat × Nat)) (c : Char) : Bool :=
  table.any fun range => range.1 ≤ c.toNat && c.toNat ≤ range.2

/-- `n` is one of the members `first`, `first + stride`, … of a run that ends at `last`. -/
def onRun (first last stride n : Nat) : Bool :=
  first ≤ n && n ≤ last && (n - first) % stride == 0

end Scaffold.Text
