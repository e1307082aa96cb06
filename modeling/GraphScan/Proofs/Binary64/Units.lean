import GraphScan.Binary64.Basic
import Mathlib

/-!
# The values of numbers in order

The order of numbers is read off their magnitudes.  This file says that it is the order of their
exact values, counted in units of `2 ^ (-1074)`.

* `Binary64.unitsOf` — the units as a function of the magnitude.  From one magnitude to the next they
  grow by a power of two (`unitsOf_succ`), so that they are strictly monotone.
* `Binary64.unitsAt` — the signed units as a function of the rank, strictly monotone as well.
* `Binary64.compare_signedUnits` — **finite numbers compare by their exact values**.
* `Binary64.exists_rank_eq` — every rank below the infinities is that of a finite number.
-/

namespace GraphScan

namespace Binary64

variable {x y : Binary64}

/-! ## Magnitudes and units -/

/-- **The units of a magnitude.** -/
def unitsOf (magnitude : Nat) : Nat :=
  if magnitude / 2 ^ 52 = 0 then magnitude % 2 ^ 52
  else (2 ^ 52 + magnitude % 2 ^ 52) * 2 ^ (magnitude / 2 ^ 52 - 1)

theorem units_eq (x : Binary64) : x.units = unitsOf x.magnitude := by
  simp only [units, unitsOf, exponentField, fraction, Nat.shiftRight_eq_div_pow, Nat.shiftLeft_eq,
    Nat.one_mul]

/-- Without the implicit bit the units are the magnitude; the numbers of the next exponent carry on
from there. -/
theorem unitsOf_of_lt {m : Nat} (h : m < 2 ^ 53) : unitsOf m = m := by
  rw [unitsOf]
  split_ifs with hfield
  · omega
  · have hone : m / 2 ^ 52 = 1 := by omega
    rw [hone]
    omega

/-- The units where the implicit bit is set. -/
theorem unitsOf_of_field (e : Nat) {f : Nat} (h : f < 2 ^ 52) :
    unitsOf ((e + 1) * 2 ^ 52 + f) = (2 ^ 52 + f) * 2 ^ e := by
  have hfield : ((e + 1) * 2 ^ 52 + f) / 2 ^ 52 = e + 1 := by omega
  have hfraction : ((e + 1) * 2 ^ 52 + f) % 2 ^ 52 = f := by omega
  rw [unitsOf, hfield, hfraction, if_neg (Nat.succ_ne_zero e), Nat.add_sub_cancel]

theorem unitsOf_succ (m : Nat) : unitsOf (m + 1) = unitsOf m + 2 ^ (m / 2 ^ 52 - 1) := by
  rcases Nat.lt_or_ge m (2 ^ 52) with hlow | hhigh
  · have hzero : m / 2 ^ 52 - 1 = 0 := by omega
    rw [unitsOf_of_lt (by omega), unitsOf_of_lt (by omega), hzero, Nat.pow_zero]
  · obtain ⟨e, f, hf, rfl⟩ : ∃ e f, f < 2 ^ 52 ∧ m = (e + 1) * 2 ^ 52 + f :=
      ⟨m / 2 ^ 52 - 1, m % 2 ^ 52, by omega, by omega⟩
    have hfield : ((e + 1) * 2 ^ 52 + f) / 2 ^ 52 - 1 = e := by omega
    rw [unitsOf_of_field e hf, hfield]
    rcases Nat.lt_or_ge (f + 1) (2 ^ 52) with hlt | hge
    · rw [Nat.add_assoc, unitsOf_of_field e hlt]
      ring
    · have hcarry : (e + 1) * 2 ^ 52 + f + 1 = (e + 1 + 1) * 2 ^ 52 + 0 := by omega
      have hf' : f = 2 ^ 52 - 1 := by omega
      rw [hcarry, unitsOf_of_field (e + 1) (by omega), hf']
      norm_num
      ring

theorem unitsOf_strictMono : StrictMono unitsOf := by
  refine strictMono_nat_of_lt_succ fun m => ?_
  rw [unitsOf_succ]
  exact Nat.lt_add_of_pos_right (Nat.two_pow_pos _)

theorem unitsOf_zero : unitsOf 0 = 0 := unitsOf_of_lt (by decide)

/-! ## Fields of a number -/

theorem toNat_bits_ofParts (sign : Bool) {m : Nat} (h : m < 2 ^ 63) :
    (ofParts sign m).bits.toNat = (if sign then 2 ^ 63 else 0) + m := by
  have hsize : (if sign then 1 <<< 63 else 0) + m < 2 ^ 64 := by
    cases sign <;> simp <;> omega
  rw [ofParts, UInt64.toNat_ofNat_of_lt' hsize]
  rfl

@[simp] theorem magnitude_ofParts (sign : Bool) {m : Nat} (h : m < 2 ^ 63) :
    (ofParts sign m).magnitude = m := by
  rw [magnitude, toNat_bits_ofParts sign h, Nat.one_shiftLeft]
  cases sign
  · simpa using h
  · simpa using h

@[simp] theorem negative_ofParts (sign : Bool) {m : Nat} (h : m < 2 ^ 63) :
    (ofParts sign m).negative = sign := by
  rw [negative, toNat_bits_ofParts sign h, Nat.one_shiftLeft]
  cases sign
  · simpa using h
  · simp

/-! ## Ranks -/

/-- **The signed units of a rank.** -/
def unitsAt (rank : Int) : Int :=
  rank.sign * unitsOf rank.natAbs

theorem natAbs_rank (x : Binary64) : x.rank.natAbs = x.magnitude := by
  rw [rank]
  split_ifs <;> simp

theorem signedUnits_eq (x : Binary64) : x.signedUnits = unitsAt x.rank := by
  rw [signedUnits, unitsAt, natAbs_rank, units_eq, rank]
  rcases Nat.eq_zero_or_pos x.magnitude with hzero | hpos
  · simp [hzero, unitsOf_zero]
  · split_ifs
    · rw [Int.sign_neg, Int.sign_natCast_of_ne_zero hpos.ne', neg_one_mul]
    · rw [Int.sign_natCast_of_ne_zero hpos.ne', one_mul]

theorem unitsAt_neg (rank : Int) : unitsAt (-rank) = -unitsAt rank := by
  rw [unitsAt, unitsAt, Int.sign_neg, Int.natAbs_neg, neg_mul]

theorem unitsAt_natCast (m : Nat) : unitsAt m = unitsOf m := by
  rcases Nat.eq_zero_or_pos m with rfl | hpos
  · rfl
  · rw [unitsAt, Int.natAbs_natCast, Int.sign_natCast_of_ne_zero hpos.ne', one_mul]

theorem unitsAt_strictMono : StrictMono unitsAt := by
  refine strictMono_of_odd_strictMonoOn_nonneg unitsAt_neg ?_
  intro r hr s hs hlt
  lift r to Nat using hr
  lift s to Nat using hs
  rw [unitsAt_natCast, unitsAt_natCast, Nat.cast_lt]
  exact unitsOf_strictMono (Nat.cast_lt.mp hlt)

theorem natAbs_unitsAt (rank : Int) : (unitsAt rank).natAbs = unitsOf rank.natAbs := by
  obtain ⟨m, rfl | rfl⟩ := rank.eq_nat_or_neg
  · rw [unitsAt_natCast, Int.natAbs_natCast, Int.natAbs_natCast]
  · rw [unitsAt_neg, unitsAt_natCast, Int.natAbs_neg, Int.natAbs_neg, Int.natAbs_natCast,
      Int.natAbs_natCast]

theorem natAbs_signedUnits (x : Binary64) : x.signedUnits.natAbs = unitsOf x.magnitude := by
  rw [signedUnits_eq, natAbs_unitsAt, natAbs_rank]

/-- Every rank of less than infinite magnitude is that of a finite number. -/
theorem exists_rank_eq {rank : Int} (h : rank.natAbs < infinityMagnitude) :
    ∃ x : Binary64, x.isFinite = true ∧ x.rank = rank := by
  have hlt : rank.natAbs < 2 ^ 63 := lt_trans h (by decide)
  refine ⟨ofParts (decide (rank < 0)) rank.natAbs, ?_, ?_⟩
  · rw [isFinite, magnitude_ofParts _ hlt]
    exact decide_eq_true h
  · rw [Binary64.rank, magnitude_ofParts _ hlt, negative_ofParts _ hlt]
    by_cases hneg : rank < 0
    · rw [decide_eq_true hneg, if_pos rfl, Int.ofNat_natAbs_of_nonpos hneg.le, neg_neg]
    · rw [decide_eq_false hneg, if_neg (by simp), Int.natAbs_of_nonneg (not_lt.mp hneg)]

/-! ## Comparison -/

theorem isNaN_of_isFinite (h : x.isFinite = true) : x.isNaN = false := by
  have hlt : x.magnitude < infinityMagnitude := of_decide_eq_true h
  exact decide_eq_false (not_lt.mpr hlt.le)

/-- **Numbers compare by rank**, and what is not a number does not compare. -/
theorem compare?_eq_none_iff : x.compare? y = none ↔ x.isNaN = true ∨ y.isNaN = true := by
  rw [compare?]
  cases x.isNaN <;> cases y.isNaN <;> simp

theorem compare?_of_not_isNaN (hx : x.isNaN = false) (hy : y.isNaN = false) :
    x.compare? y = some (compare x.rank y.rank) := by
  rw [compare?, hx, hy]
  rfl

theorem compare?_swap (x y : Binary64) : y.compare? x = (x.compare? y).map Ordering.swap := by
  rw [compare?, compare?, Bool.or_comm]
  split_ifs
  · rfl
  · rw [Option.map_some, Std.OrientedOrd.eq_swap]

/-- **Finite numbers compare by their values.** -/
theorem compare_signedUnits (x y : Binary64) :
    compare x.signedUnits y.signedUnits = compare x.rank y.rank := by
  rw [signedUnits_eq, signedUnits_eq]
  simpa only [cmp_eq_compare] using unitsAt_strictMono.cmp_map_eq x.rank y.rank

end Binary64

end GraphScan
