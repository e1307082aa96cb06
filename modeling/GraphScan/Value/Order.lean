import GraphScan.Value.Basic

/-!
# The order of values

`Value.compare?` orders two values of one kind, and an integer against a number by the numeric
reading of the integer.  Anything else has no order: a null, a NaN, or two kinds that do not mix.

`false` comes before `true`, and texts compare character by character.
-/

namespace GraphScan

namespace Value

/-- `false` before `true`. -/
def compareBool (a b : Bool) : Ordering :=
  compare a.toNat b.toNat

/-- Lexicographic, by code point. -/
def compareText (a b : String) : Ordering :=
  if a < b then .lt else if a = b then .eq else .gt

/-- **The order of two values**, where they have one. -/
def compare? : Value → Value → Option Ordering
  | .bool a, .bool b => some (compareBool a b)
  | .int a, .int b => some (compare a.toInt b.toInt)
  | .float x, .float y => x.compare? y
  | .int a, .float y => (Binary64.ofInt a.toInt).compare? y
  | .float x, .int b => x.compare? (Binary64.ofInt b.toInt)
  | .text a, .text b => some (compareText a b)
  | _, _ => none

end Value

end GraphScan
