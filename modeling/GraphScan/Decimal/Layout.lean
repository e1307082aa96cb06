import GraphScan.Decimal.Shortest

/-!
# Writing numbers

The digits of a number are fixed by `Decimal.shortest`; how they are laid out is a `Layout`.  Two
layouts are in use:

* `Layout.plain` — positional whatever the exponent, and a whole number without a point.  Cells are
  shown this way.
* `Layout.tagged` — always recognisable as floating point: a whole number keeps `.0`, and very
  large and very small numbers get an exponent.  Diagnostics that show a cell's type use it.

The sign of zero is always shown.
-/

namespace GraphScan

namespace Decimal

/-- **How digits are laid out.** -/
structure Layout where
  /-- The exponents of the leading digit that are written positionally, from the first to just
  below the second; all of them if there are no bounds. -/
  positionalRange : Option (Int × Int)
  /-- Whether a positional whole number ends in `.0`. -/
  keepsPoint : Bool

/-- Positional always, whole numbers without a point. -/
def Layout.plain : Layout := ⟨none, false⟩

/-- Positional from `1e-4` to below `1e16`, whole numbers with a point. -/
def Layout.tagged : Layout := ⟨some (-4, 16), true⟩

/-! ## Digits -/

/-- The digits without trailing zeros, and the exponent of the last one. -/
def significant (d : Decimal) : List Char × Int :=
  let digits := (Nat.toDigits 10 d.coefficient).reverse
  let kept := digits.dropWhile (· == '0')
  (kept.reverse, d.exponent + (digits.length - kept.length))

/-- Digits in positional form, the last one at `exponent`. -/
def writePositional (keepsPoint : Bool) (digits : List Char) (exponent : Int) : List Char :=
  if 0 ≤ exponent then
    digits ++ List.replicate exponent.toNat '0' ++ (if keepsPoint then ['.', '0'] else [])
  else
    let fractional := (-exponent).toNat
    if fractional < digits.length then
      let whole := digits.length - fractional
      digits.take whole ++ '.' :: digits.drop whole
    else '0' :: '.' :: List.replicate (fractional - digits.length) '0' ++ digits

/-- Digits in exponent form: the leading digit before the point, the exponent without padding. -/
def writeScientific (digits : List Char) (leading : Int) : List Char :=
  let mantissa := match digits with
    | [] => []
    | [d] => [d]
    | d :: rest => d :: '.' :: rest
  mantissa ++ 'e' :: (toString leading).toList

/-- Writes a decimal in the form that the layout gives to its leading exponent. -/
def Layout.write (layout : Layout) (d : Decimal) : List Char :=
  let (digits, exponent) := significant d
  let leading := exponent + digits.length - 1
  match layout.positionalRange with
  | none => writePositional layout.keepsPoint digits exponent
  | some (first, last) =>
    if first ≤ leading ∧ leading < last then writePositional layout.keepsPoint digits exponent
    else writeScientific digits leading

end Decimal

/-! ## Numbers -/

/-- **The text of a number.** -/
def Binary64.render (layout : Decimal.Layout) (x : Binary64) : String :=
  if x.isNaN then "NaN"
  else
    let sign := if x.negative then ['-'] else []
    let absolute :=
      if x.isInfinite then ['i', 'n', 'f']
      else if x.isZero then Decimal.writePositional layout.keepsPoint ['0'] 0
      else layout.write (Decimal.shortest x)
    String.ofList (sign ++ absolute)

end GraphScan
