import GraphScan.Binary64.Basic

/-!
# Binary64 arithmetic

Each operation is carried out exactly on integers and rounded once, to the nearest number and to
the even one of two equally near numbers.

* `Binary64.nearestMagnitude` — the rounding: the magnitude nearest to `num / den` units.
* `Binary64.ofInt` — the number nearest to an integer.  It is not injective: beyond `2 ^ 53` the
  integers are denser than the numbers.
* `Binary64.add`, `Binary64.sub`, `Binary64.mul`, `Binary64.div` — the four operations, infinities
  and NaN included.
-/

namespace GraphScan

namespace Binary64

/-! ## Rounding -/

/-- The whole number nearest to `num / den`, and the even one of two equally near. -/
def roundHalfEven (num den : Nat) : Nat :=
  let whole := num / den
  let twice := 2 * (num % den)
  if den < twice || (twice == den && whole % 2 == 1) then whole + 1 else whole

/-- **The magnitude nearest to `num / den` units.**  A value of more than 53 bits loses `shift` low
bits; each lost bit moves the exponent field up by one.  A carry out of the fraction runs into the
exponent field, as it should, and what is too large becomes infinite. -/
def nearestMagnitude (num den : Nat) : Nat :=
  let shift := Nat.log2 (num / den) - 52
  min infinityMagnitude ((shift <<< 52) + roundHalfEven num (den <<< shift))

/-- One unit is `1 / unitsPerOne`. -/
def unitsPerOne : Nat :=
  1 <<< 1074

/-- The number nearest to `num / den` units, with the given sign. -/
def ofUnits (negative : Bool) (num den : Nat) : Binary64 :=
  ofParts negative (nearestMagnitude num den)

def ofInt (i : Int) : Binary64 :=
  ofUnits (decide (i < 0)) (i.natAbs * unitsPerOne) 1

def ofNat (n : Nat) : Binary64 :=
  ofInt n

/-! ## Operations -/

/-- The result of an operation that has no numeric value: the first operand that is not a number
hands its payload on, and where both are numbers the operation was invalid. -/
def noNumber (x y : Binary64) : Binary64 :=
  if x.isNaN then x.quiet else if y.isNaN then y.quiet else invalid

/-- **Sum.**  An exact zero is positive unless both sides are negative. -/
def add (x y : Binary64) : Binary64 :=
  if x.isNaN || y.isNaN then noNumber x y
  else if x.isInfinite then
    if y.isInfinite && x.negative != y.negative then invalid else x
  else if y.isInfinite then y
  else
    let total := x.signedUnits + y.signedUnits
    if total = 0 then signedZero (x.negative && y.negative)
    else ofUnits (decide (total < 0)) total.natAbs 1

/-- **Difference**: the sum with the other sign on the right. -/
def sub (x y : Binary64) : Binary64 :=
  if x.isNaN || y.isNaN then noNumber x y else x.add y.neg

def mul (x y : Binary64) : Binary64 :=
  let negative := x.negative != y.negative
  if x.isNaN || y.isNaN then noNumber x y
  else if x.isInfinite || y.isInfinite then
    if x.isZero || y.isZero then invalid else infinity negative
  else ofUnits negative (x.units * y.units) unitsPerOne

/-- **Quotient.**  A nonzero number divided by zero is infinite. -/
def div (x y : Binary64) : Binary64 :=
  let negative := x.negative != y.negative
  if x.isNaN || y.isNaN then noNumber x y
  else if x.isInfinite then
    if y.isInfinite then invalid else infinity negative
  else if y.isInfinite then signedZero negative
  else if y.isZero then
    if x.isZero then invalid else infinity negative
  else ofUnits negative (x.units * unitsPerOne) y.units

end Binary64

end GraphScan
