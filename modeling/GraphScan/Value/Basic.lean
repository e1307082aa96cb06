import GraphScan.Binary64.Arithmetic

/-!
# Cell values

A cell holds a truth value, a binary64 number, a 64-bit integer, a text, or nothing (`null`).

* `Value.kind` — which of the five it is.
* `Value.toNumber?` — the numeric reading of an integer or a number.
* `Value.add?` — the sum that stays an integer where both sides are, and never wraps.
* `Integer.fit?` — the 64-bit integer equal to an exact one, if there is one; checked arithmetic is
  exact arithmetic followed by `fit?`.
-/

namespace GraphScan

/-! ## Bounded integers -/

namespace Integer

/-- **The 64-bit integer equal to `i`**, if `i` is in range. -/
def fit? (i : Int) : Option Int64 :=
  if Int64.minValue.toInt ≤ i ∧ i ≤ Int64.maxValue.toInt then some (Int64.ofInt i) else none

/-- An integer fits exactly if it is the value of a 64-bit integer. -/
theorem fit?_eq_some_iff {i : Int} {n : Int64} : fit? i = some n ↔ n.toInt = i := by
  have hlow := n.le_toInt
  have hhigh := n.toInt_le
  have hmin : Int64.minValue.toInt = -2 ^ 63 := rfl
  have hmax : Int64.maxValue.toInt = 2 ^ 63 - 1 := rfl
  rw [fit?, hmin, hmax]
  split
  · next hrange =>
    rw [Option.some.injEq]
    constructor
    · rintro rfl
      exact Int64.toInt_ofInt_of_le hrange.1 (by omega)
    · rintro rfl
      exact Int64.ofInt_toInt n
  · next hrange =>
    constructor
    · intro h
      cases h
    · rintro rfl
      exact absurd ⟨hlow, by omega⟩ hrange

/-- Whether an integer is in the range of the 64-bit integers. -/
def InRange (i : Int) : Prop :=
  Int64.minValue.toInt ≤ i ∧ i ≤ Int64.maxValue.toInt

theorem inRange_toInt (n : Int64) : InRange n.toInt :=
  ⟨n.minValue_le_toInt, n.toInt_le⟩

/-- An integer in range fits, and no other one does. -/
theorem exists_fit?_iff {i : Int} : (∃ n, fit? i = some n) ↔ InRange i := by
  rw [fit?, InRange]
  split
  · next hrange => exact iff_of_true ⟨_, rfl⟩ hrange
  · next hrange => exact iff_of_false (fun ⟨_, h⟩ => nomatch h) hrange

theorem fit?_eq_none_iff {i : Int} : fit? i = none ↔ ¬ InRange i := by
  rw [← exists_fit?_iff, ← Option.isSome_iff_exists, Option.not_isSome_iff_eq_none]

/-- The 64-bit integer of a count, which stays at the greatest once it gets there. -/
def ofCount (n : Nat) : Int64 :=
  Int64.ofInt (min n Int64.maxValue.toInt)

theorem toInt_ofCount (n : Nat) : (ofCount n).toInt = min (n : Int) Int64.maxValue.toInt := by
  have hmax : Int64.maxValue.toInt = 2 ^ 63 - 1 := rfl
  have hcount : 0 ≤ (n : Int) := Int.natCast_nonneg n
  rw [ofCount]
  exact Int64.toInt_ofInt_of_le (by omega) (by omega)

end Integer

/-! ## Kinds and values -/

/-- The five kinds of cell. -/
inductive Kind where
  | bool
  | float
  | int
  | null
  | text
deriving DecidableEq, Repr

namespace Kind

/-- The number that stands for a kind in stored data. -/
def code : Kind → Nat
  | .bool => 1
  | .float => 2
  | .int => 3
  | .null => 4
  | .text => 5

def label : Kind → String
  | .bool => "Bool"
  | .float => "Float64"
  | .int => "Int"
  | .null => "Null"
  | .text => "Text"

end Kind

/-- **A cell value.**  Equality of values is equality of what is stored, numbers bit for bit. -/
inductive Value where
  | bool (b : Bool)
  | float (x : Binary64)
  | int (n : Int64)
  | null
  | text (s : String)
deriving DecidableEq, Inhabited, Repr

namespace Value

def kind : Value → Kind
  | .bool _ => .bool
  | .float _ => .float
  | .int _ => .int
  | .null => .null
  | .text _ => .text

def isNull : Value → Bool
  | .null => true
  | _ => false

def isNumeric : Value → Bool
  | .int _ | .float _ => true
  | _ => false

/-- **Acceptance by a filter**: only the truth value `true` passes. -/
def isTrue : Value → Bool
  | .bool b => b
  | _ => false

def toInt? : Value → Option Int64
  | .int n => some n
  | _ => none

/-- The numeric reading; integers beyond `2 ^ 53` are rounded. -/
def toNumber? : Value → Option Binary64
  | .int n => some (.ofInt n.toInt)
  | .float x => some x
  | _ => none

/-- **Sum.**  Two integers give an integer or, out of range, nothing; any other two numeric values
give a number. -/
def add? : Value → Value → Option Value
  | .int a, .int b => (Integer.fit? (a.toInt + b.toInt)).map .int
  | a, b =>
    match a.toNumber?, b.toNumber? with
    | some x, some y => some (.float (x.add y))
    | _, _ => none

/-- Equality of what values mean: numbers compare numerically, so that the zeros are equal and a
NaN differs from itself; values of different kinds are never equal. -/
def means (a b : Value) : Bool :=
  match a, b with
  | .float x, .float y => x.numericEq y
  | a, b => a == b

end Value

end GraphScan
