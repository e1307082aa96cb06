import GraphScan.Binary64.Arithmetic
import GraphScan.Proofs.Binary64.Units

/-!
# The number nearest to an integer

Integers are denser than numbers beyond `2 ^ 53`, so that the numeric reading of an integer is a
rounding.  This file says which one, and what it does to the order.

* `Binary64.IsNearest` — **the number nearest to an integer**: no finite number has a smaller error,
  and between two with the same error the one whose last bit is zero is taken.
* `Binary64.distance_roundedMagnitude` — the rounding, on magnitudes: the units of an integer lie in a
  gap between two magnitudes, and the rounding takes one end of it.
* `Binary64.ofInt_isNearest`, `Binary64.isNearest_iff` — **the reading is the nearest number**, and the
  only one up to the sign of zero.
* `Binary64.rank_ofInt_mono` — the reading keeps the order.
* `Binary64.compare_rank_ofInt` — it does not move an integer past a number.
-/

namespace GraphScan

namespace Binary64

variable {x y : Binary64} {i : Int}

/-! ## The gap around a number of units -/

/-- How many low bits of so many units are lost. -/
def lostBits (num : Nat) : Nat :=
  Nat.log2 num - 52

/-- What is left of so many units without the bits that are lost. -/
def kept (num : Nat) : Nat :=
  num / 2 ^ lostBits num

/-- The greatest magnitude of at most so many units. -/
def floorMagnitude (num : Nat) : Nat :=
  lostBits num * 2 ^ 52 + kept num

theorem kept_lt (num : Nat) : kept num < 2 ^ 53 := by
  rw [kept, Nat.div_lt_iff_lt_mul (Nat.two_pow_pos _), ← Nat.pow_add]
  have hle : Nat.log2 num + 1 ≤ 53 + lostBits num := by
    rw [lostBits]
    omega
  exact lt_of_lt_of_le Nat.lt_log2_self (Nat.pow_le_pow_right Nat.two_pos hle)

theorem le_kept {num : Nat} (h : lostBits num ≠ 0) : 2 ^ 52 ≤ kept num := by
  have hlog : 52 + lostBits num = Nat.log2 num := by
    rw [lostBits] at h ⊢
    omega
  have hnum : num ≠ 0 := by
    rintro rfl
    simp [lostBits] at h
  rw [kept, Nat.le_div_iff_mul_le (Nat.two_pow_pos _), ← Nat.pow_add, hlog]
  exact Nat.log2_self_le hnum

/-- The magnitudes around `num` units are `2 ^ lostBits num` units apart. -/
theorem unitsOf_floorMagnitude (num : Nat) :
    unitsOf (floorMagnitude num) = kept num * 2 ^ lostBits num ∧
      unitsOf (floorMagnitude num + 1) = kept num * 2 ^ lostBits num + 2 ^ lostBits num := by
  have hlt := kept_lt num
  rw [unitsOf_succ]
  rcases Nat.eq_zero_or_pos (lostBits num) with hzero | hpos
  · have hfloor : floorMagnitude num = kept num := by
      rw [floorMagnitude, hzero, Nat.zero_mul, Nat.zero_add]
    have hgap : kept num / 2 ^ 52 - 1 = 0 := by omega
    rw [hfloor, unitsOf_of_lt hlt, hgap, hzero, Nat.pow_zero, Nat.mul_one]
    exact ⟨rfl, rfl⟩
  · have hle := le_kept hpos.ne'
    have hfloor : floorMagnitude num = (lostBits num + 1) * 2 ^ 52 + (kept num - 2 ^ 52) := by
      rw [floorMagnitude]
      omega
    have hgap : ((lostBits num + 1) * 2 ^ 52 + (kept num - 2 ^ 52)) / 2 ^ 52 - 1 = lostBits num := by
      omega
    rw [hfloor, hgap, unitsOf_of_field _ (by omega), Nat.add_sub_cancel' hle]
    exact ⟨rfl, rfl⟩

/-- The magnitude nearest to so many units, before it is cut off at the infinities. -/
def roundedMagnitude (num : Nat) : Nat :=
  lostBits num * 2 ^ 52 + roundHalfEven num (2 ^ lostBits num)

theorem nearestMagnitude_eq (num : Nat) :
    nearestMagnitude num 1 = min infinityMagnitude (roundedMagnitude num) := by
  simp only [nearestMagnitude, roundedMagnitude, lostBits, Nat.div_one, Nat.shiftLeft_eq,
    Nat.one_mul]

/-- How far a magnitude is from so many units. -/
def distance (num m : Nat) : Nat :=
  ((unitsOf m : Int) - num).natAbs

/-- Rounding goes up past the half, and at the half from an odd magnitude. -/
theorem roundedMagnitude_cases (num : Nat) :
    roundedMagnitude num = floorMagnitude num ∧ 2 * (num % 2 ^ lostBits num) ≤ 2 ^ lostBits num ∧
        (2 * (num % 2 ^ lostBits num) = 2 ^ lostBits num → kept num % 2 = 0) ∨
      roundedMagnitude num = floorMagnitude num + 1 ∧
        2 ^ lostBits num ≤ 2 * (num % 2 ^ lostBits num) ∧
        (2 * (num % 2 ^ lostBits num) = 2 ^ lostBits num → kept num % 2 = 1) := by
  rw [roundedMagnitude, floorMagnitude, roundHalfEven, kept]
  simp only [Bool.or_eq_true, Bool.and_eq_true, decide_eq_true_eq, beq_iff_eq]
  split_ifs with h
  · exact .inr ⟨(Nat.add_assoc _ _ _).symm, by omega, by omega⟩
  · exact .inl ⟨rfl, by omega, by omega⟩

/-- **No magnitude is nearer than the rounded one**, and if another is as near then the rounded one is
even. -/
theorem distance_roundedMagnitude (num m : Nat) :
    distance num (roundedMagnitude num) ≤ distance num m ∧
      (distance num m = distance num (roundedMagnitude num) → m ≠ roundedMagnitude num →
        roundedMagnitude num % 2 = 0) := by
  obtain ⟨hlow, hhigh⟩ := unitsOf_floorMagnitude num
  have hnum : kept num * 2 ^ lostBits num + num % 2 ^ lostBits num = num := Nat.div_add_mod' num _
  have hrest : num % 2 ^ lostBits num < 2 ^ lostBits num := Nat.mod_lt _ (Nat.two_pow_pos _)
  have hparity : floorMagnitude num % 2 = kept num % 2 := by
    rw [floorMagnitude]
    omega
  -- The units of `m` lie on one side of the gap around `num`, or are one of its ends.
  have hside : m = floorMagnitude num ∨ m = floorMagnitude num + 1 ∨
      unitsOf m < unitsOf (floorMagnitude num) ∨ unitsOf (floorMagnitude num + 1) < unitsOf m := by
    rcases Nat.lt_trichotomy m (floorMagnitude num) with hlt | heq | hgt
    · exact .inr (.inr (.inl (unitsOf_strictMono hlt)))
    · exact .inl heq
    · rcases Nat.lt_or_eq_of_le (Nat.succ_le_of_lt hgt) with hlt | heq
      · exact .inr (.inr (.inr (unitsOf_strictMono hlt)))
      · exact .inr (.inl heq.symm)
  have hcases := roundedMagnitude_cases num
  generalize num % 2 ^ lostBits num = rest at *
  generalize kept num * 2 ^ lostBits num = low at *
  generalize 2 ^ lostBits num = gap at *
  rcases hcases with ⟨hrounded, hhalf, htie⟩ | ⟨hrounded, hhalf, htie⟩
  · rw [hrounded, distance, distance]
    rcases hside with rfl | rfl | hlt | hgt <;> omega
  · rw [hrounded, distance, distance]
    rcases hside with rfl | rfl | hlt | hgt <;> omega

/-! ## The value of an integer -/

/-- **The value of an integer**, in units of `2 ^ (-1074)`. -/
def exactUnits (i : Int) : Int :=
  i * unitsPerOne

theorem exists_unitsPerOne_eq : ∃ bits, bits ≤ 1074 ∧ unitsPerOne = 2 ^ bits := by
  have hall (bits : Nat) (h : bits ≤ 1074) : ∃ b, b ≤ 1074 ∧ 1 <<< bits = 2 ^ b :=
    ⟨bits, h, Nat.one_shiftLeft bits⟩
  exact hall 1074 (Nat.le_refl _)

theorem unitsPerOne_pos : 0 < unitsPerOne := by
  obtain ⟨bits, -, hunits⟩ := exists_unitsPerOne_eq
  rw [hunits]
  exact Nat.two_pow_pos bits

theorem exactUnits_strictMono : StrictMono exactUnits :=
  fun _ _ h => Int.mul_lt_mul_of_pos_right h (Int.natCast_pos.mpr unitsPerOne_pos)

theorem exactUnits_neg_iff : exactUnits i < 0 ↔ i < 0 := by
  have hzero : exactUnits 0 = 0 := Int.zero_mul _
  have hlt : exactUnits i < exactUnits 0 ↔ i < 0 := exactUnits_strictMono.lt_iff_lt
  rwa [hzero] at hlt

/-! ## Nearest numbers -/

/-- How far a number is from an integer, in units. -/
def error (x : Binary64) (i : Int) : Nat :=
  (x.signedUnits - exactUnits i).natAbs

/-- **A number is nearest to an integer** if it is finite, no finite number is nearer, and if another
is as near then its last bit is zero. -/
structure IsNearest (x : Binary64) (i : Int) : Prop where
  finite : x.isFinite = true
  nearest : ∀ y : Binary64, y.isFinite = true → x.error i ≤ y.error i
  tie : ∀ y : Binary64, y.isFinite = true → y.error i = x.error i →
    y.signedUnits ≠ x.signedUnits → x.fraction % 2 = 0

theorem fraction_mod_two (x : Binary64) : x.fraction % 2 = x.magnitude % 2 := by
  rw [fraction, Nat.one_shiftLeft]
  omega

/-- Without the signs the error is not greater. -/
theorem distance_le_error (x : Binary64) (i : Int) :
    distance (exactUnits i).natAbs x.magnitude ≤ x.error i := by
  have hunits := x.natAbs_signedUnits
  rw [error, distance]
  omega

/-! ### The numeric reading of an integer -/

/-- Far below the infinities nothing is cut off. -/
theorem roundedMagnitude_lt (h : i.natAbs < 2 ^ 64) :
    roundedMagnitude (exactUnits i).natAbs < infinityMagnitude := by
  obtain ⟨bits, hbits, hunits⟩ := exists_unitsPerOne_eq
  have hlog : Nat.log2 (exactUnits i).natAbs < 64 + bits := by
    rcases Nat.eq_zero_or_pos (exactUnits i).natAbs with hzero | hpos
    · rw [hzero, Nat.log2_zero]
      omega
    · rw [Nat.log2_lt hpos.ne', exactUnits, Int.natAbs_mul, Int.natAbs_natCast, hunits, Nat.pow_add]
      exact Nat.mul_lt_mul_of_pos_right h (Nat.two_pow_pos bits)
  have hlost : lostBits (exactUnits i).natAbs ≤ 1085 := by
    rw [lostBits]
    omega
  have hkept := kept_lt (exactUnits i).natAbs
  have hrounded : roundedMagnitude (exactUnits i).natAbs ≤
      floorMagnitude (exactUnits i).natAbs + 1 := by
    rcases roundedMagnitude_cases (exactUnits i).natAbs with ⟨heq, -⟩ | ⟨heq, -⟩ <;> omega
  rw [floorMagnitude] at hrounded
  have hinfinity : infinityMagnitude = 2047 * 2 ^ 52 := rfl
  omega

theorem ofInt_eq (h : i.natAbs < 2 ^ 64) :
    ofInt i = ofParts (decide (i < 0)) (roundedMagnitude (exactUnits i).natAbs) := by
  have habs : (exactUnits i).natAbs = i.natAbs * unitsPerOne := by
    rw [exactUnits, Int.natAbs_mul, Int.natAbs_natCast]
  rw [ofInt, ofUnits, ← habs, nearestMagnitude_eq, Nat.min_eq_right (roundedMagnitude_lt h).le]

theorem magnitude_ofInt (h : i.natAbs < 2 ^ 64) :
    (ofInt i).magnitude = roundedMagnitude (exactUnits i).natAbs := by
  have hlt : infinityMagnitude < 2 ^ 63 := by decide
  rw [ofInt_eq h, magnitude_ofParts _ ((roundedMagnitude_lt h).trans hlt)]

theorem isFinite_ofInt (h : i.natAbs < 2 ^ 64) : (ofInt i).isFinite = true := by
  rw [isFinite, magnitude_ofInt h]
  exact decide_eq_true (roundedMagnitude_lt h)

/-- The reading has the sign of the integer. -/
theorem signedUnits_ofInt (h : i.natAbs < 2 ^ 64) :
    (ofInt i).signedUnits = if exactUnits i < 0 then -(unitsOf (ofInt i).magnitude : Int)
      else unitsOf (ofInt i).magnitude := by
  have hlt : infinityMagnitude < 2 ^ 63 := by decide
  have hnegative : (ofInt i).negative = decide (i < 0) := by
    rw [ofInt_eq h, negative_ofParts _ ((roundedMagnitude_lt h).trans hlt)]
  rw [signedUnits, hnegative, units_eq]
  simp only [decide_eq_true_eq, exactUnits_neg_iff]

theorem error_ofInt (h : i.natAbs < 2 ^ 64) :
    (ofInt i).error i = distance (exactUnits i).natAbs (ofInt i).magnitude := by
  rw [error, signedUnits_ofInt h, distance]
  split_ifs <;> omega

/-- **The numeric reading of an integer is the number nearest to it.** -/
theorem ofInt_isNearest (h : i.natAbs < 2 ^ 64) : (ofInt i).IsNearest i := by
  have hown := error_ofInt h
  have hrounded := distance_roundedMagnitude (exactUnits i).natAbs
  rw [← magnitude_ofInt h] at hrounded
  refine ⟨isFinite_ofInt h, ?_, ?_⟩
  · intro y _
    rw [hown]
    exact (hrounded y.magnitude).1.trans (y.distance_le_error i)
  · intro y _ herror hne
    have hdistance : distance (exactUnits i).natAbs y.magnitude =
        distance (exactUnits i).natAbs (ofInt i).magnitude := by
      refine le_antisymm ?_ (hrounded y.magnitude).1
      rw [← hown, ← herror]
      exact y.distance_le_error i
    by_cases hmagnitude : y.magnitude = (ofInt i).magnitude
    · -- The same magnitude with the other sign is farther away, unless it is zero.
      exfalso
      have hunits := signedUnits_ofInt h
      have habs := y.natAbs_signedUnits
      have hzero := (hrounded 0).1
      rw [hown, error, distance, ← hmagnitude] at herror
      rw [distance, distance, unitsOf_zero, ← hmagnitude] at hzero
      rw [← hmagnitude] at hunits
      generalize (ofInt i).signedUnits = a at *
      split_ifs at hunits <;> omega
    · rw [fraction_mod_two]
      exact (hrounded y.magnitude).2 hdistance hmagnitude

/-! ### There is one nearest number -/

/-- Numbers of one rank are equally near. -/
theorem IsNearest.of_rank_eq (hx : x.IsNearest i) (h : y.rank = x.rank) : y.IsNearest i := by
  have hmagnitude : y.magnitude = x.magnitude := by
    rw [← natAbs_rank, ← natAbs_rank, h]
  have hunits : y.signedUnits = x.signedUnits := by
    rw [signedUnits_eq, signedUnits_eq, h]
  have herror : y.error i = x.error i := by
    rw [error, error, hunits]
  refine ⟨?_, ?_, ?_⟩
  · rw [isFinite, hmagnitude]
    exact hx.finite
  · rw [herror]
    exact hx.nearest
  · rw [herror, hunits, fraction_mod_two, hmagnitude, ← fraction_mod_two]
    exact hx.tie

/-- Of two nearest numbers none is below the other: there would be another one between them. -/
theorem IsNearest.rank_le (hx : x.IsNearest i) (hy : y.IsNearest i) : y.rank ≤ x.rank := by
  by_contra hgt
  have hlt : x.rank < y.rank := not_le.mp hgt
  have hunits : x.signedUnits < y.signedUnits := by
    rw [signedUnits_eq, signedUnits_eq]
    exact unitsAt_strictMono hlt
  have herror : y.error i = x.error i :=
    le_antisymm (hy.nearest x hx.finite) (hx.nearest y hy.finite)
  -- Both are even, so that they are not neighbours.
  have hxeven := hx.tie y hy.finite herror hunits.ne'
  have hyeven := hy.tie x hx.finite herror.symm hunits.ne
  rw [fraction_mod_two, ← natAbs_rank] at hxeven hyeven
  have hxfinite : x.rank.natAbs < infinityMagnitude := by
    rw [natAbs_rank]
    exact of_decide_eq_true hx.finite
  have hyfinite : y.rank.natAbs < infinityMagnitude := by
    rw [natAbs_rank]
    exact of_decide_eq_true hy.finite
  obtain ⟨z, hz, hrank⟩ : ∃ z : Binary64, z.isFinite = true ∧ z.rank = x.rank + 1 :=
    exists_rank_eq (by omega)
  have hxz : x.signedUnits < z.signedUnits := by
    rw [signedUnits_eq, signedUnits_eq]
    exact unitsAt_strictMono (by omega)
  have hzy : z.signedUnits < y.signedUnits := by
    rw [signedUnits_eq, signedUnits_eq]
    exact unitsAt_strictMono (by omega)
  have hnearest := hx.nearest z hz
  rw [error, error] at hnearest herror
  omega

theorem IsNearest.rank_eq (hx : x.IsNearest i) (hy : y.IsNearest i) : x.rank = y.rank :=
  le_antisymm (hy.rank_le hx) (hx.rank_le hy)

/-- **A number is nearest to an integer exactly if it has the rank of its reading.** -/
theorem isNearest_iff (h : i.natAbs < 2 ^ 64) : x.IsNearest i ↔ x.rank = (ofInt i).rank :=
  ⟨fun hx => hx.rank_eq (ofInt_isNearest h), (ofInt_isNearest h).of_rank_eq⟩

/-- **Rounding keeps the order.** -/
theorem rank_ofInt_mono {j : Int} (hi : i.natAbs < 2 ^ 64) (hj : j.natAbs < 2 ^ 64) (hle : i ≤ j) :
    (ofInt i).rank ≤ (ofInt j).rank := by
  by_contra hgt
  have hunits : (ofInt j).signedUnits < (ofInt i).signedUnits := by
    rw [signedUnits_eq, signedUnits_eq]
    exact unitsAt_strictMono (not_le.mp hgt)
  have hlt : exactUnits i < exactUnits j := by
    refine exactUnits_strictMono (lt_of_le_of_ne hle ?_)
    rintro rfl
    exact lt_irrefl _ hunits
  have hnearI := (ofInt_isNearest hi).nearest _ (isFinite_ofInt hj)
  have hnearJ := (ofInt_isNearest hj).nearest _ (isFinite_ofInt hi)
  rw [error, error] at hnearI hnearJ
  generalize (ofInt i).signedUnits = a at *
  generalize (ofInt j).signedUnits = b at *
  omega

/-- **Rounding an integer does not move it past a number**: the reading compares with a finite number
as the integer does, unless the number is nearest to it. -/
theorem compare_rank_ofInt (h : i.natAbs < 2 ^ 64) (hx : x.isFinite = true)
    (hnot : ¬ x.IsNearest i) :
    compare (ofInt i).rank x.rank = compare (exactUnits i) x.signedUnits := by
  have hnear := (ofInt_isNearest h).nearest x hx
  rw [isNearest_iff h] at hnot
  rw [← compare_signedUnits]
  have hne : (ofInt i).signedUnits ≠ x.signedUnits := by
    rw [signedUnits_eq, signedUnits_eq]
    exact unitsAt_strictMono.injective.ne (Ne.symm hnot)
  rw [error, error] at hnear
  generalize (ofInt i).signedUnits = a at *
  rcases lt_or_gt_of_ne hne with hlt | hgt
  · have hexact : exactUnits i < x.signedUnits := by omega
    rw [Int.compare_eq_lt.mpr hlt, Int.compare_eq_lt.mpr hexact]
  · have hexact : x.signedUnits < exactUnits i := by omega
    rw [Int.compare_eq_gt.mpr hgt, Int.compare_eq_gt.mpr hexact]

end Binary64

end GraphScan
