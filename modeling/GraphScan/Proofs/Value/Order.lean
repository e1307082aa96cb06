import GraphScan.Value.Order
import GraphScan.Proofs.Binary64.Nearest
import Mathlib.Data.String.Basic

/-!
# How far the order of values is an order

Values of one kind are ordered as they should be.  An integer is compared with a number by its
numeric reading, which is the number nearest to it; so different integers can be equal to one number,
and then they are not equal to each other.  Nothing else goes wrong.

* `Value.compare?_swap` — the other way round a comparison is reversed.
* `Value.compare?_eq_none_iff` — which values have no order.
* `Value.Composes` — **what transitivity promises**, and `Value.Blurred` — where it is not kept: at two
  integers with the same nearest number, and this number.
* `Value.compare?_composes` — it is kept everywhere else.
* `Value.compare?_int_float` — an integer compares with a number as their exact values do, unless the
  number is the nearest one.
-/

namespace GraphScan

namespace Value

variable {a b c : Value} {n m : Int64} {x y z : Binary64}

/-! ## Integers as numbers -/

theorem natAbs_toInt_lt (n : Int64) : n.toInt.natAbs < 2 ^ 64 := by
  have hlow := n.le_toInt
  have hhigh := n.toInt_lt
  omega

theorem isNaN_ofInt (n : Int64) : (Binary64.ofInt n.toInt).isNaN = false :=
  Binary64.isNaN_of_isFinite (Binary64.isFinite_ofInt (natAbs_toInt_lt n))

theorem rank_ofInt_mono (h : n.toInt ≤ m.toInt) :
    (Binary64.ofInt n.toInt).rank ≤ (Binary64.ofInt m.toInt).rank :=
  Binary64.rank_ofInt_mono (natAbs_toInt_lt n) (natAbs_toInt_lt m) h

theorem isNearest_iff : x.IsNearest n.toInt ↔ x.rank = (Binary64.ofInt n.toInt).rank :=
  Binary64.isNearest_iff (natAbs_toInt_lt n)

/-! ## Reversal and definedness -/

/-- **The other way round a comparison is reversed.** -/
theorem compare?_swap (a b : Value) : b.compare? a = (a.compare? b).map Ordering.swap := by
  cases a with
  | bool p =>
      cases b with
      | bool q => exact congrArg some Std.OrientedOrd.eq_swap
      | _ => rfl
  | float x =>
      cases b with
      | float y => exact Binary64.compare?_swap x y
      | int m => exact Binary64.compare?_swap x (.ofInt m.toInt)
      | _ => rfl
  | int n =>
      cases b with
      | float y => exact Binary64.compare?_swap (.ofInt n.toInt) y
      | int m => exact congrArg some Std.OrientedOrd.eq_swap
      | _ => rfl
  | null => cases b <;> rfl
  | text s =>
      cases b with
      | text t =>
          have hswap : compare t s = (compare s t).swap := Std.OrientedOrd.eq_swap
          exact congrArg some hswap
      | _ => rfl

/-- **Whether a value is not a number** although it is of that kind. -/
def isNaN : Value → Bool
  | .float x => x.isNaN
  | _ => false

/-- **Two values have no order** exactly if one is null or not a number, or if they are of different
kinds and not both numeric. -/
theorem compare?_eq_none_iff :
    a.compare? b = none ↔ a.isNull = true ∨ b.isNull = true ∨ a.isNaN = true ∨ b.isNaN = true ∨
      a.kind ≠ b.kind ∧ ¬ (a.isNumeric = true ∧ b.isNumeric = true) := by
  cases a <;> cases b <;>
    simp [compare?, isNull, isNaN, kind, isNumeric, Binary64.compare?_eq_none_iff, isNaN_ofInt]

/-! ## Transitivity -/

/-- **What transitivity promises** of the outer two of three values, where neither the first two nor
the last two descend: they do not descend either, and are equal exactly if both pairs are. -/
def Composes (first second whole : Ordering) : Prop :=
  whole ≠ .gt ∧ (whole = .eq ↔ first = .eq ∧ second = .eq)

theorem composes_compare {α : Type} [LinearOrder α] {p q r : α} (hpq : compare p q ≠ .gt)
    (hqr : compare q r ≠ .gt) : Composes (compare p q) (compare q r) (compare p r) := by
  rw [compare_le_iff_le] at hpq hqr
  refine ⟨compare_le_iff_le.mpr (hpq.trans hqr), ?_⟩
  simp only [compare_eq_iff_eq]
  constructor
  · rintro rfl
    exact ⟨le_antisymm hpq hqr, le_antisymm hqr hpq⟩
  · rintro ⟨rfl, rfl⟩
    rfl

/-- Different integers that a number is nearest to. -/
def Merges (x : Binary64) (n m : Int64) : Prop :=
  n ≠ m ∧ x.IsNearest n.toInt ∧ x.IsNearest m.toInt

/-- **Where transitivity is not kept**: at two different integers and the one number that is nearest to
both, in any of the three places. -/
def Blurred : Value → Value → Value → Prop
  | .float x, .int n, .int m | .int n, .float x, .int m | .int n, .int m, .float x => Merges x n m
  | _, _, _ => False

theorem merges_iff : Merges x n m ↔ n.toInt ≠ m.toInt ∧
    x.rank = (Binary64.ofInt n.toInt).rank ∧ x.rank = (Binary64.ofInt m.toInt).rank := by
  rw [Merges, isNearest_iff, isNearest_iff, Ne, Ne, Int64.toInt_inj]

theorem eq_of_compare?_float {order : Ordering} (h : x.compare? y = some order) :
    x.isNaN = false ∧ y.isNaN = false ∧ order = compare x.rank y.rank := by
  have hsome : x.compare? y ≠ none := by simp [h]
  rw [Ne, Binary64.compare?_eq_none_iff, not_or, Bool.not_eq_true, Bool.not_eq_true] at hsome
  rw [Binary64.compare?_of_not_isNaN hsome.1 hsome.2] at h
  exact ⟨hsome.1, hsome.2, (Option.some.inj h).symm⟩

/-- Three numbers are ordered by their ranks. -/
theorem compare?_composes_float {first second : Ordering} (hxy : x.compare? y = some first)
    (hyz : y.compare? z = some second) (hfirst : first ≠ .gt) (hsecond : second ≠ .gt) :
    ∃ whole, x.compare? z = some whole ∧ Composes first second whole := by
  obtain ⟨hx, -, rfl⟩ := eq_of_compare?_float hxy
  obtain ⟨-, hz, rfl⟩ := eq_of_compare?_float hyz
  exact ⟨_, Binary64.compare?_of_not_isNaN hx hz, composes_compare hfirst hsecond⟩

/-- **Rounding blurs a comparison only where it makes two integers one number.**  `p` and `q` are the
integers and `r` their rounding; `s` is the rank of the number. -/
theorem composes_rounded {r : Int → Int} {p q s : Int} (hmono : p ≤ q → r p ≤ r q)
    (hmono' : q ≤ p → r q ≤ r p) :
    (compare s (r p) ≠ .gt → compare p q ≠ .gt →
      (Composes (compare s (r p)) (compare p q) (compare s (r q)) ↔
        ¬ (p ≠ q ∧ s = r p ∧ s = r q))) ∧
    (compare (r p) s ≠ .gt → compare s (r q) ≠ .gt →
      (Composes (compare (r p) s) (compare s (r q)) (compare p q) ↔
        ¬ (p ≠ q ∧ s = r p ∧ s = r q))) ∧
    (compare p q ≠ .gt → compare (r q) s ≠ .gt →
      (Composes (compare p q) (compare (r q) s) (compare (r p) s) ↔
        ¬ (p ≠ q ∧ s = r p ∧ s = r q))) := by
  have heq : p = q → r p = r q := congrArg r
  simp only [Composes, compare_le_iff_le, compare_eq_iff_eq]
  generalize r p = a at *
  generalize r q = b at *
  refine ⟨?_, ?_, ?_⟩
  · intro hsp hpq
    omega
  · intro hps hsq
    omega
  · intro hpq hqs
    omega

/-- **The comparison of values is transitive exactly where nothing is blurred.**  Values of one kind
are of a linear order; and as soon as at most one of three numeric values is an integer, all of them
compare by their ranks. -/
theorem compare?_composes {first second : Ordering} (hab : a.compare? b = some first)
    (hbc : b.compare? c = some second) (hfirst : first ≠ .gt) (hsecond : second ≠ .gt) :
    ∃ whole, a.compare? c = some whole ∧ (Composes first second whole ↔ ¬ Blurred a b c) := by
  have hlinear {α : Type} [LinearOrder α] {p q r : α} (hpq : some (compare p q) = some first)
      (hqr : some (compare q r) = some second) : Composes first second (compare p r) := by
    obtain rfl := Option.some.inj hpq
    obtain rfl := Option.some.inj hqr
    exact composes_compare hfirst hsecond
  have hfloat {x y z : Binary64} (hxy : x.compare? y = some first) (hyz : y.compare? z = some second)
      (hsharp : ¬ Blurred a b c) :
      ∃ whole, x.compare? z = some whole ∧ (Composes first second whole ↔ ¬ Blurred a b c) := by
    obtain ⟨whole, hwhole, hcomposes⟩ := compare?_composes_float hxy hyz hfirst hsecond
    exact ⟨whole, hwhole, iff_of_true hcomposes hsharp⟩
  have hrounded (n m : Int64) (x : Binary64) :=
    composes_rounded (s := x.rank) (r := fun i => (Binary64.ofInt i).rank)
      (rank_ofInt_mono (n := n) (m := m)) rank_ofInt_mono
  cases a with
  | null => cases hab
  | bool p =>
      cases b with
      | null | int _ | float _ | text _ => cases hab
      | bool q =>
          cases c with
          | null | int _ | float _ | text _ => cases hbc
          | bool r => exact ⟨_, rfl, iff_of_true (hlinear hab hbc) not_false⟩
  | text s =>
      cases b with
      | null | int _ | float _ | bool _ => cases hab
      | text t =>
          cases c with
          | null | int _ | float _ | bool _ => cases hbc
          | text u => exact ⟨_, rfl, iff_of_true (hlinear (p := s) (q := t) (r := u) hab hbc) not_false⟩
  | float x =>
      cases b with
      | null | bool _ | text _ => cases hab
      | float y =>
          cases c with
          | null | bool _ | text _ => cases hbc
          | float z => exact hfloat hab hbc not_false
          | int m => exact hfloat hab hbc not_false
      | int n =>
          cases c with
          | null | bool _ | text _ => cases hbc
          | float z => exact hfloat hab hbc not_false
          | int m =>
              obtain ⟨hx, -, rfl⟩ := eq_of_compare?_float hab
              obtain rfl := Option.some.inj hbc
              refine ⟨_, Binary64.compare?_of_not_isNaN hx (isNaN_ofInt m), ?_⟩
              exact ((hrounded n m x).1 hfirst hsecond).trans (not_congr merges_iff.symm)
  | int n =>
      cases b with
      | null | bool _ | text _ => cases hab
      | float y =>
          cases c with
          | null | bool _ | text _ => cases hbc
          | float z => exact hfloat hab hbc not_false
          | int m =>
              obtain ⟨-, -, rfl⟩ := eq_of_compare?_float hab
              obtain ⟨-, -, rfl⟩ := eq_of_compare?_float hbc
              refine ⟨_, rfl, ?_⟩
              exact ((hrounded n m y).2.1 hfirst hsecond).trans (not_congr merges_iff.symm)
      | int m =>
          cases c with
          | null | bool _ | text _ => cases hbc
          | int k => exact ⟨_, rfl, iff_of_true (hlinear hab hbc) not_false⟩
          | float z =>
              obtain rfl := Option.some.inj hab
              obtain ⟨-, hz, rfl⟩ := eq_of_compare?_float hbc
              refine ⟨_, Binary64.compare?_of_not_isNaN (isNaN_ofInt n) hz, ?_⟩
              exact ((hrounded n m z).2.2 hfirst hsecond).trans (not_congr merges_iff.symm)

/-! ## Integers and numbers -/

theorem compare?_int_of_nearest (h : x.IsNearest n.toInt) :
    (Value.int n).compare? (.float x) = some .eq := by
  have hx := Binary64.isNaN_of_isFinite h.finite
  rw [compare?, Binary64.compare?_of_not_isNaN (isNaN_ofInt n) hx, isNearest_iff.mp h,
    compare_eq_iff_eq.mpr rfl]

/-- **An integer compares with a number as their exact values do**, unless the number is the nearest
one. -/
theorem compare?_int_float (hx : x.isFinite = true) (h : ¬ x.IsNearest n.toInt) :
    (Value.int n).compare? (.float x) =
      some (compare (Binary64.exactUnits n.toInt) x.signedUnits) := by
  have hnumber := Binary64.isNaN_of_isFinite hx
  rw [compare?, Binary64.compare?_of_not_isNaN (isNaN_ofInt n) hnumber,
    Binary64.compare_rank_ofInt (natAbs_toInt_lt n) hx h]

theorem compare?_nearest_int (h : x.IsNearest n.toInt) :
    (Value.float x).compare? (.int n) = some .eq := by
  rw [compare?_swap (.int n), compare?_int_of_nearest h]
  rfl

/-! ## What rounding cannot do -/

/-- A value that has an order with any value is equal to itself. -/
theorem compare?_self {order : Ordering} (h : a.compare? b = some order) : a.compare? a = some .eq := by
  have hordered : ¬ a.compare? b = none := by simp [h]
  have hself : ¬ a.compare? a = none := by
    rw [compare?_eq_none_iff] at hordered ⊢
    simp only [not_or] at hordered
    simp [hordered.1, hordered.2.2.1]
  obtain ⟨same, hsame⟩ := Option.ne_none_iff_exists'.mp hself
  have hswap := compare?_swap a a
  rw [hsame, Option.map_some, Option.some.injEq] at hswap
  rw [hsame]
  cases same <;> first | rfl | cases hswap

/-- Values that are equal in the order are the same, unless one is a number. -/
theorem eq_of_compare?_eq (h : a.compare? b = some .eq) (ha : a.kind ≠ .float)
    (hb : b.kind ≠ .float) : a = b := by
  cases a with
  | null => cases b <;> cases h
  | float x => exact absurd rfl ha
  | bool p =>
      cases b with
      | bool q =>
          have hnat : p.toNat = q.toNat := compare_eq_iff_eq.mp (Option.some.inj h)
          cases p <;> cases q <;> first | rfl | cases hnat
      | _ => cases h
  | int n =>
      cases b with
      | int m =>
          have hint : n.toInt = m.toInt := compare_eq_iff_eq.mp (Option.some.inj h)
          rw [Int64.toInt_inj.mp hint]
      | float y => exact absurd rfl hb
      | _ => cases h
  | text s =>
      cases b with
      | text t =>
          have htext : s = t := compare_eq_iff_eq.mp (Option.some.inj h)
          rw [htext]
      | _ => cases h

/-- **Rounding may hide a difference, but never turns it round**: as soon as one of two pairs ascends,
and the other does not descend, the outer two values do not descend. -/
theorem compare?_of_lt {first second : Ordering} (hab : a.compare? b = some first)
    (hbc : b.compare? c = some second) (hfirst : first ≠ .gt) (hsecond : second ≠ .gt)
    (hlt : first = .lt ∨ second = .lt) : ∃ whole, a.compare? c = some whole ∧ whole ≠ .gt := by
  obtain ⟨whole, hwhole, hcomposes⟩ := compare?_composes hab hbc hfirst hsecond
  by_cases hblurred : Blurred a b c
  · -- The number is equal to both integers, so it cannot stand in the middle of an ascent.
    match a, b, c, hblurred with
    | .float x, .int n, .int m, hmerges =>
        exact ⟨.eq, compare?_nearest_int hmerges.2.2, by decide⟩
    | .int n, .float x, .int m, hmerges =>
        rw [compare?_int_of_nearest hmerges.2.1, Option.some.injEq] at hab
        rw [compare?_nearest_int hmerges.2.2, Option.some.injEq] at hbc
        subst hab hbc
        simp at hlt
    | .int n, .int m, .float x, hmerges =>
        exact ⟨.eq, compare?_int_of_nearest hmerges.2.1, by decide⟩
  · exact ⟨whole, hwhole, (hcomposes.mpr hblurred).1⟩

/-! ## The order up to rounding -/

/-- **The order of values, up to the rounding of integers.**  The other way round a comparison is
reversed; it is undefined exactly for nulls, what is not a number, and kinds that do not mix; it is
transitive exactly where no number is nearest to two of the integers; and an integer is equal to the
number nearest to it, and to any other as the exact values are. -/
theorem compare?_up_to_rounding (a b c : Value) :
    b.compare? a = (a.compare? b).map Ordering.swap ∧
    (a.compare? b = none ↔ a.isNull = true ∨ b.isNull = true ∨ a.isNaN = true ∨ b.isNaN = true ∨
      a.kind ≠ b.kind ∧ ¬ (a.isNumeric = true ∧ b.isNumeric = true)) ∧
    (∀ first second, a.compare? b = some first → b.compare? c = some second →
      first ≠ .gt → second ≠ .gt →
        ∃ whole, a.compare? c = some whole ∧
          ((whole ≠ .gt ∧ (whole = .eq ↔ first = .eq ∧ second = .eq)) ↔ ¬ Blurred a b c)) ∧
    (∀ (n : Int64) (x : Binary64), x.isFinite = true →
      (x.IsNearest n.toInt → (Value.int n).compare? (.float x) = some .eq) ∧
      (¬ x.IsNearest n.toInt → (Value.int n).compare? (.float x) =
        some (compare (Binary64.exactUnits n.toInt) x.signedUnits))) :=
  ⟨compare?_swap a b, compare?_eq_none_iff, fun _ _ hab hbc => compare?_composes hab hbc,
    fun _ _ hx => ⟨compare?_int_of_nearest, compare?_int_float hx⟩⟩

/-- Three values beyond `2 ^ 53`, where only every second integer is a number: the number in the middle
is nearest to neither of its neighbours. -/
theorem compare?_up_to_rounding_neighbours :
    let low := Value.int 9007199254740993
    let middle : Binary64 := ⟨0x4340000000000001⟩
    let high := Value.int 9007199254740995
    (low.compare? (.float middle) = some .lt ∧ (Value.float middle).compare? high = some .lt ∧
      ¬ Blurred low (.float middle) high ∧ middle.isFinite = true ∧
      ¬ middle.IsNearest (9007199254740993 : Int64).toInt) ∧
    (∃ whole, low.compare? high = some whole ∧ whole ≠ .gt ∧
      (whole = .eq ↔ Ordering.lt = .eq ∧ Ordering.lt = .eq)) ∧
    low.compare? (.float middle) =
      some (compare (Binary64.exactUnits (9007199254740993 : Int64).toInt) middle.signedUnits) := by
  intro low middle high
  have hlow : low.compare? (.float middle) = some .lt := by decide +kernel
  have hhigh : (Value.float middle).compare? high = some .lt := by decide +kernel
  have hfinite : middle.isFinite = true := by decide +kernel
  have hnot : ¬ middle.IsNearest (9007199254740993 : Int64).toInt := by
    rw [isNearest_iff]
    decide +kernel
  have hsharp : ¬ Blurred low (.float middle) high := fun h => hnot h.2.1
  obtain ⟨-, -, htrans, hexact⟩ := compare?_up_to_rounding low (.float middle) high
  obtain ⟨whole, hwhole, hcomposes⟩ := htrans .lt .lt hlow hhigh (by decide) (by decide)
  exact ⟨⟨hlow, hhigh, hsharp, hfinite, hnot⟩, ⟨whole, hwhole, hcomposes.mpr hsharp⟩,
    (hexact 9007199254740993 middle hfinite).2 hnot⟩

/-- **Different integers can be equal to one number**, so that the order is not transitive, and equality
is not that of the exact values. -/
theorem compare?_merges_integers :
    let above := Value.int 9007199254740993
    let number : Binary64 := ⟨0x4340000000000000⟩
    let below := Value.int 9007199254740992
    above.compare? (.float number) = some .eq ∧ (Value.float number).compare? below = some .eq ∧
      above.compare? below = some .gt ∧
      compare (Binary64.exactUnits 9007199254740993) number.signedUnits = .gt := by
  decide +kernel

end Value

end GraphScan
