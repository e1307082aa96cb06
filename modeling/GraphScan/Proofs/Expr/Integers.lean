import GraphScan.Expr.Eval

/-!
# Arithmetic of integers

An expression over integers is evaluated in the integers, and no result ever wraps: it is the exact one
or there is none.  Every intermediate result has to be in range, even where the last one would be again.

* `Expr.OverIntegers` — arithmetic over integer constants and columns that hold integers.
* `Expr.exact` — **the exact value** of such an expression, and `Expr.Bounded` — what it takes for all
  of its parts to have one in range.
* `Expr.Computes` — what an expression over integers comes to, and `Expr.eval_computes` — that it does,
  by induction on the expression.
* `Expr.eval_never_wraps` — **it has a value exactly if it is bounded**, and this is the exact one.
-/

namespace GraphScan

namespace Expr

variable {row : Row} {expr left right : Expr} {op : ArithOp}

/-- **An expression over integers**: arithmetic over integer constants and over columns that hold an
integer. -/
inductive OverIntegers (row : Row) : Expr → Prop where
  | column {index : Nat} {n : Int64} (h : row[index]? = some (.int n)) :
      OverIntegers row (.column index)
  | constant (n : Int64) : OverIntegers row (.constant (.int n))
  | arith (op : ArithOp) {left right : Expr} (hleft : OverIntegers row left)
      (hright : OverIntegers row right) : OverIntegers row (.arith op left right)

/-! ## Exact values -/

/-- **The exact value of an expression over integers.**  Division drops the fraction; anything that is not
an integer is taken for zero. -/
def exact (row : Row) : Expr → Int
  | .column index => ((row[index]?).bind Value.toInt?).elim 0 Int64.toInt
  | .constant value => value.toInt?.elim 0 Int64.toInt
  | .arith .add left right => left.exact row + right.exact row
  | .arith .sub left right => left.exact row - right.exact row
  | .arith .mul left right => left.exact row * right.exact row
  | .arith .div left right => (left.exact row).tdiv (right.exact row)
  | .compare _ _ _ | .all _ | .any _ | .not _ | .isNull _ => 0

/-- The expressions that an arithmetic expression is made of, itself included. -/
def operands : Expr → List Expr
  | .arith op left right => .arith op left right :: (left.operands ++ right.operands)
  | expr => [expr]

/-- **Whether all operands have an exact value in range**: no divisor is zero, and no value out of
range. -/
structure Bounded (row : Row) (expr : Expr) : Prop where
  divisor_ne_zero : ∀ left right, .arith .div left right ∈ expr.operands → right.exact row ≠ 0
  inRange : ∀ part ∈ expr.operands, Integer.InRange (part.exact row)

theorem exact_arith : (arith op left right).exact row =
    Value.exactArith op (left.exact row) (right.exact row) := by
  cases op <;> rfl

theorem mem_operands_self (expr : Expr) : expr ∈ expr.operands := by
  cases expr <;> simp [operands]

/-- Arithmetic is bounded if both sides are, and its own value exists and is in range. -/
theorem bounded_arith_iff : (arith op left right).Bounded row ↔
    left.Bounded row ∧ right.Bounded row ∧ (op = .div → right.exact row ≠ 0) ∧
      Integer.InRange ((arith op left right).exact row) := by
  constructor
  · rintro ⟨hdivisor, hrange⟩
    have hleft : ∀ part ∈ left.operands, part ∈ (arith op left right).operands :=
      fun part hpart => by simp [operands, hpart]
    have hright : ∀ part ∈ right.operands, part ∈ (arith op left right).operands :=
      fun part hpart => by simp [operands, hpart]
    refine ⟨⟨fun _ _ h => hdivisor _ _ (hleft _ h), fun part h => hrange part (hleft part h)⟩,
      ⟨fun _ _ h => hdivisor _ _ (hright _ h), fun part h => hrange part (hright part h)⟩, ?_,
      hrange _ (mem_operands_self _)⟩
    rintro rfl
    exact hdivisor left right (mem_operands_self _)
  · rintro ⟨hleft, hright, hdivisor, hrange⟩
    constructor
    · intro dividend divisor hmem
      rw [operands, List.mem_cons, List.mem_append, arith.injEq] at hmem
      rcases hmem with ⟨hop, rfl, rfl⟩ | hmem | hmem
      · exact hdivisor hop.symm
      · exact hleft.divisor_ne_zero dividend divisor hmem
      · exact hright.divisor_ne_zero dividend divisor hmem
    · intro part hmem
      rw [operands, List.mem_cons, List.mem_append] at hmem
      rcases hmem with rfl | hmem | hmem
      · exact hrange
      · exact hleft.inRange part hmem
      · exact hright.inRange part hmem

/-! ## Evaluation -/

/-- **What an expression over integers comes to**: its exact value if it is bounded, and else an error of
arithmetic. -/
inductive Computes (row : Row) (expr : Expr) : Except EngineError Value → Prop where
  | exact {n : Int64} (hn : n.toInt = expr.exact row) (hbounded : expr.Bounded row) :
      Computes row expr (.ok (.int n))
  | divisionByZero (hbounded : ¬ expr.Bounded row) : Computes row expr (.error .divisionByZero)
  | overflow (a b : Int64) (op : ArithOp) (hbounded : ¬ expr.Bounded row) :
      Computes row expr (.error (.integerOverflow a op b))

/-- Arithmetic on integers that are exact. -/
theorem computes_intArith {a b : Int64} (ha : a.toInt = left.exact row)
    (hb : b.toInt = right.exact row) (hleft : left.Bounded row) (hright : right.Bounded row) :
    Computes row (.arith op left right) (Value.intArith op a b) := by
  rw [Value.intArith]
  split
  · next hzero =>
    refine .divisionByZero fun hbounded => ?_
    refine (bounded_arith_iff.mp hbounded).2.2.1 hzero.1 ?_
    rw [← hb, hzero.2]
    rfl
  · next hnonzero =>
    have hvalue : (arith op left right).exact row = Value.exactArith op a.toInt b.toInt := by
      rw [exact_arith, ha, hb]
    cases hfit : Integer.fit? (Value.exactArith op a.toInt b.toInt) with
    | none =>
        refine .overflow a b op fun hbounded => Integer.fit?_eq_none_iff.mp hfit ?_
        rw [← hvalue]
        exact (bounded_arith_iff.mp hbounded).2.2.2
    | some n =>
        have hn : n.toInt = (arith op left right).exact row :=
          (Integer.fit?_eq_some_iff.mp hfit).trans hvalue.symm
        refine .exact hn (bounded_arith_iff.mpr ⟨hleft, hright, fun hop hdivisor => ?_, ?_⟩)
        · rw [← hb] at hdivisor
          exact hnonzero ⟨hop, Int64.toInt_inj.mp hdivisor⟩
        · rw [← hn]
          exact Integer.inRange_toInt n

/-- **An expression over integers computes its exact value** or fails. -/
theorem eval_computes (h : expr.OverIntegers row) : Computes row expr (expr.eval row) := by
  -- A single operand is its own value, which is in range.
  have leaf {expr : Expr} {n : Int64} (hoperands : expr.operands = [expr])
      (hn : n.toInt = expr.exact row) (hdivision : ∀ left right, expr ≠ .arith .div left right) :
      Computes row expr (.ok (.int n)) := by
    refine .exact hn ⟨fun left right hmem => ?_, fun part hmem => ?_⟩
    · rw [hoperands, List.mem_singleton] at hmem
      exact absurd hmem.symm (hdivision left right)
    · rw [hoperands, List.mem_singleton] at hmem
      rw [hmem, ← hn]
      exact Integer.inRange_toInt n
  induction h with
  | @column index n h =>
      have hn : n.toInt = (column index).exact row := by
        rw [exact, h]
        rfl
      rw [eval, h]
      exact leaf rfl hn nofun
  | constant n => exact leaf rfl rfl nofun
  | @arith op left right _ _ ihleft ihright =>
      rw [eval]
      generalize left.eval row = first at ihleft
      generalize right.eval row = second at ihright
      cases ihleft with
      | divisionByZero h => exact .divisionByZero fun hwhole => h (bounded_arith_iff.mp hwhole).1
      | overflow a b op' h => exact .overflow a b op' fun hwhole => h (bounded_arith_iff.mp hwhole).1
      | exact ha hleft =>
          cases ihright with
          | divisionByZero h =>
              exact .divisionByZero fun hwhole => h (bounded_arith_iff.mp hwhole).2.1
          | overflow a b op' h =>
              exact .overflow a b op' fun hwhole => h (bounded_arith_iff.mp hwhole).2.1
          | exact hb hright => exact computes_intArith ha hb hleft hright

/-- **Integer expressions never wrap.**  An expression over integers has a value exactly if no divisor in
it is zero and the exact value of each part of it is in range, and then its value is the exact one.
Otherwise it fails with a division by zero or an overflow, which is an error of the expression and says
that a parameter is invalid. -/
theorem eval_never_wraps (h : expr.OverIntegers row) :
    ((∃ value, expr.eval row = .ok value) ↔
      (∀ left right, .arith .div left right ∈ expr.operands → right.exact row ≠ 0) ∧
        ∀ part ∈ expr.operands, Integer.InRange (part.exact row)) ∧
    (∀ value, expr.eval row = .ok value → ∃ n, value = .int n ∧ n.toInt = expr.exact row) ∧
    ∀ e, expr.eval row = .error e →
      (e = .divisionByZero ∨ ∃ a op b, e = .integerOverflow a op b) ∧
        e.report.origin = .expression ∧ e.report.kind = .invalidParameter := by
  have hcomputes := eval_computes h
  have hbounded : ((∀ left right, .arith .div left right ∈ expr.operands → right.exact row ≠ 0) ∧
      ∀ part ∈ expr.operands, Integer.InRange (part.exact row)) ↔ expr.Bounded row :=
    ⟨fun h => ⟨h.1, h.2⟩, fun h => ⟨h.1, h.2⟩⟩
  rw [hbounded]
  generalize expr.eval row = outcome at hcomputes ⊢
  cases hcomputes with
  | @exact n hn hbounded =>
      refine ⟨iff_of_true ⟨_, rfl⟩ hbounded, ?_, nofun⟩
      rintro value ⟨⟩
      exact ⟨n, rfl, hn⟩
  | divisionByZero hbounded =>
      refine ⟨iff_of_false nofun hbounded, nofun, ?_⟩
      rintro e ⟨⟩
      exact ⟨.inl rfl, rfl, rfl⟩
  | overflow a b op hbounded =>
      refine ⟨iff_of_false nofun hbounded, nofun, ?_⟩
      rintro e ⟨⟩
      exact ⟨.inr ⟨a, op, b, rfl⟩, rfl, rfl⟩

/-- At the least integer: the quotient by minus one exists once one has been added, and not before.  A sum
that comes back into the range after a step outside it does not exist either. -/
theorem eval_never_wraps_leastInteger :
    let row : Row := [.int (-9223372036854775808), .int (-1)]
    let one : Expr := .constant (.int 1)
    let quotient : Expr := .arith .div (.arith .add (.column 0) one) (.column 1)
    let overflow : Expr := .arith .div (.column 0) (.column 1)
    let detour : Expr := .arith .add (.arith .sub (.column 0) one) one
    quotient.OverIntegers row ∧
      (∃ n, quotient.eval row = .ok (.int n) ∧ n.toInt = quotient.exact row) ∧
      quotient.exact row = 9223372036854775807 ∧
      overflow.OverIntegers row ∧ (¬ ∃ value, overflow.eval row = .ok value) ∧
      overflow.exact row = 9223372036854775808 ∧
      detour.OverIntegers row ∧ detour.exact row = -9223372036854775808 ∧
      ∃ e, detour.eval row = .error e ∧ e.report.kind = .invalidParameter := by
  intro row one quotient overflow detour
  have hquotient : quotient.OverIntegers row :=
    .arith .div (.arith .add (.column rfl) (.constant 1)) (.column rfl)
  have hoverflow : overflow.OverIntegers row := .arith .div (.column rfl) (.column rfl)
  have hdetour : detour.OverIntegers row :=
    .arith .add (.arith .sub (.column rfl) (.constant 1)) (.constant 1)
  obtain ⟨-, hexact, -⟩ := eval_never_wraps hquotient
  obtain ⟨hdefined, -, -⟩ := eval_never_wraps hoverflow
  obtain ⟨-, -, hclass⟩ := eval_never_wraps hdetour
  have hvalue : quotient.eval row = .ok (.int 9223372036854775807) := by decide
  have herror : detour.eval row = .error (.integerOverflow (-9223372036854775808) .sub 1) := by decide
  obtain ⟨n, hn, hnexact⟩ := hexact _ hvalue
  refine ⟨hquotient, ⟨n, hvalue.trans (congrArg _ hn), hnexact⟩, by decide, hoverflow, ?_, by decide,
    hdetour, by decide, _, herror, (hclass _ herror).2.2⟩
  rw [hdefined]
  rintro ⟨-, hrange⟩
  have hout : ¬ Integer.InRange (overflow.exact row) := by
    rw [Integer.InRange]
    decide
  exact hout (hrange overflow (mem_operands_self overflow))

end Expr

end GraphScan
