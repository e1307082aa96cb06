/-!
# Binary64 numbers

A floating-point cell is kept as its 64 bits.  Equality of cells is then equality of bits, which is
what grouping needs, and every other notion is read off the bits by exact integer arithmetic:

* `Binary64.magnitude` — the bits below the sign; it grows with the absolute value, so `rank`,
  the signed magnitude, orders the numbers and puts both zeros at `0`.
* `Binary64.units` — the absolute value of a finite number, counted in units of `2 ^ (-1074)`.
  Every finite number is a whole number of such units.
* `Binary64.compare?` — the numeric order, undefined exactly when a side is not a number.
-/

namespace GraphScan

/-- **A binary64 number**, given by its bits: one sign bit, eleven exponent bits, fifty-two
fraction bits. -/
structure Binary64 where
  bits : UInt64
deriving DecidableEq, Hashable, Inhabited, Repr

namespace Binary64

/-! ## Fields -/

def negative (x : Binary64) : Bool :=
  decide (1 <<< 63 ≤ x.bits.toNat)

def magnitude (x : Binary64) : Nat :=
  x.bits.toNat % (1 <<< 63)

/-- The exponent bits, as a number below `2048`. -/
def exponentField (x : Binary64) : Nat :=
  x.magnitude >>> 52

/-- The fraction bits, as a number below `2 ^ 52`. -/
def fraction (x : Binary64) : Nat :=
  x.magnitude % (1 <<< 52)

def ofParts (negative : Bool) (magnitude : Nat) : Binary64 :=
  ⟨UInt64.ofNat ((if negative then 1 <<< 63 else 0) + magnitude)⟩

/-! ## Classes of numbers -/

/-- The magnitude of the infinities: all exponent bits set and no fraction. -/
def infinityMagnitude : Nat :=
  2047 <<< 52

/-- Above the infinities lie the bit patterns that stand for no number. -/
def isNaN (x : Binary64) : Bool :=
  decide (infinityMagnitude < x.magnitude)

def isInfinite (x : Binary64) : Bool :=
  decide (x.magnitude = infinityMagnitude)

def isFinite (x : Binary64) : Bool :=
  decide (x.magnitude < infinityMagnitude)

def isZero (x : Binary64) : Bool :=
  decide (x.magnitude = 0)

def zero : Binary64 := ⟨0⟩

def infinity (negative : Bool) : Binary64 :=
  ofParts negative infinityMagnitude

def signedZero (negative : Bool) : Binary64 :=
  ofParts negative 0

/-- The NaN that an invalid operation on numbers produces: quiet, with the sign bit set and an
empty payload. -/
def invalid : Binary64 :=
  ofParts true (infinityMagnitude + (1 <<< 51))

/-- The same NaN with its quiet bit set. -/
def quiet (x : Binary64) : Binary64 :=
  ⟨x.bits ||| 0x0008000000000000⟩

/-! ## Value and order -/

/-- **The absolute value in units of `2 ^ (-1074)`.**  A zero exponent field marks the numbers
without the implicit leading bit; they share the exponent of field `1`. -/
def units (x : Binary64) : Nat :=
  if x.exponentField = 0 then x.fraction
  else ((1 <<< 52) + x.fraction) <<< (x.exponentField - 1)

/-- The signed value in units of `2 ^ (-1074)`; meaningful for finite numbers. -/
def signedUnits (x : Binary64) : Int :=
  if x.negative then -(x.units : Int) else x.units

/-- **The place of a number in the order**: its magnitude, negated under a minus sign.  Both zeros
have rank `0`. -/
def rank (x : Binary64) : Int :=
  if x.negative then -(x.magnitude : Int) else x.magnitude

/-- **Numeric comparison**, undefined exactly when a side is not a number. -/
def compare? (x y : Binary64) : Option Ordering :=
  if x.isNaN || y.isNaN then none else some (compare x.rank y.rank)

/-- Numeric equality: the zeros are equal, and a NaN differs from everything. -/
def numericEq (x y : Binary64) : Bool :=
  x.compare? y == some .eq

def neg (x : Binary64) : Binary64 :=
  ofParts (!x.negative) x.magnitude

end Binary64

end GraphScan
