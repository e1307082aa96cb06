/-!
# Sets of characters as ranges

A property of characters is stored as the ranges of code points that have it, in ascending order.
-/

namespace GraphScan

namespace Text

/-- The code points from the first to the last, both included. -/
abbrev CharacterRange := Nat × Nat

def inRanges (ranges : Array CharacterRange) (c : Char) : Bool :=
  ranges.any fun r => r.1 ≤ c.toNat && c.toNat ≤ r.2

end Text

end GraphScan
