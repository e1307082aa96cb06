import GraphScan.Binary64.Basic

/-!
# The shortest decimal of a number

A binary64 number stands for every real that rounds to it.  Of the decimals in that interval the
one with the fewest digits is chosen, and of those the one nearest to the number.

* `Decimal.interval` — the reals that round to a number, with the ends included exactly when its
  last fraction bit is clear.
* `Decimal.neighbours` — the two decimals of a given digit count on either side of the number.
* `Decimal.shortest` — the first digit count that has a neighbour in the interval wins.

All comparisons are exact: interval ends are counted in quarters of the unit of
`Binary64.units`, so that the midpoints between numbers are whole.
-/

namespace GraphScan

/-- **A decimal**: `coefficient * 10 ^ exponent`. -/
structure Decimal where
  coefficient : Nat
  exponent : Int
deriving DecidableEq, Repr

namespace Decimal

/-- One is this many quarter units. -/
def quartersPerOne : Nat :=
  1 <<< 1076

/-- Compares a decimal with a number of quarter units. -/
def compareQuarters (d : Decimal) (quarters : Nat) : Ordering :=
  compare (d.coefficient * Nat.pow 10 d.exponent.toNat * quartersPerOne)
    (quarters * Nat.pow 10 (-d.exponent).toNat)

/-! ## The reals that round to a number -/

/-- An interval of reals in quarter units, with or without its ends. -/
structure Interval where
  low : Nat
  high : Nat
  closed : Bool

/-- Whether a decimal lies in an interval. -/
def Interval.admits (i : Interval) (d : Decimal) : Bool :=
  match d.compareQuarters i.low, d.compareQuarters i.high with
  | .gt, .lt => true
  | .eq, _ | _, .eq => i.closed
  | _, _ => false

def gapAbove (x : Binary64) : Nat :=
  1 <<< (x.exponentField - 1)

/-- The distance to the next smaller one, in half units: halved where the exponent changes. -/
def halfGapBelow (x : Binary64) : Nat :=
  if x.fraction = 0 ∧ 1 < x.exponentField then gapAbove x else 2 * gapAbove x

/-- **The reals nearer to a number than to its neighbours.** -/
def interval (x : Binary64) : Interval where
  low := 4 * x.units - halfGapBelow x
  high := 4 * x.units + 2 * gapAbove x
  closed := x.fraction % 2 == 0

/-! ## Candidates -/

def digitCount (n : Nat) : Nat :=
  (Nat.toDigits 10 n).length

/-- The `e` with `10 ^ (e - 1) ≤ |x| < 10 ^ e`.  Scaling by `10 ^ 400` turns every number into one
with a whole part, and moves the exponent by 400. -/
def magnitudeExponent (x : Binary64) : Int :=
  (digitCount (4 * x.units * Nat.pow 10 400 / quartersPerOne) : Int) - 400

/-- The decimals just below and just above a number on the grid of `digits` digits. -/
def neighbours (x : Binary64) (digits : Nat) : Decimal × Decimal :=
  let exponent := magnitudeExponent x - digits
  let below :=
    4 * x.units * Nat.pow 10 (-exponent).toNat / (quartersPerOne * Nat.pow 10 exponent.toNat)
  (⟨below, exponent⟩, ⟨below + 1, exponent⟩)

/-- Whether the number is nearer to the upper of two neighbours, or equally near to both. -/
def nearerAbove (x : Binary64) (below above : Decimal) : Bool :=
  compareQuarters ⟨below.coefficient + above.coefficient, below.exponent⟩ (8 * x.units) != .gt

/-- The neighbour with `digits` digits that reads back as the number, if there is one; of two the
nearer, and of two equally near the larger. -/
def select? (x : Binary64) (digits : Nat) : Option Decimal :=
  let (below, above) := neighbours x digits
  match (interval x).admits below, (interval x).admits above with
  | true, true => some (if nearerAbove x below above then above else below)
  | true, false => some below
  | false, true => some above
  | false, false => none

/-- Seventeen digits tell all numbers apart. -/
def maxDigits : Nat := 17

/-- **The shortest decimal** that reads back as a finite nonzero number, without its sign. -/
def shortest (x : Binary64) : Decimal :=
  ((List.range' 1 maxDigits).findSome? (select? x)).getD (neighbours x maxDigits).1

end Decimal

end GraphScan
