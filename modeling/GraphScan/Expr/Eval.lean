import GraphScan.Error
import GraphScan.Table.Row
import GraphScan.Value.Order

/-!
# Evaluation of expressions

An expression evaluates to a value or fails.  Null stands for an unknown value: it makes
comparisons and arithmetic null, and the connectives are three-valued.

* `Expr.eval` — the evaluator.
* `Value.compareBy`, `Value.arith` — what the operators do to two values.
* `Expr.evalAll`, `Expr.evalAny` — the connectives, which look at their operands from left to right
  and stop at the first one that decides.
-/

namespace GraphScan

/-! ## Operators on values -/

namespace Value

/-- **A comparison.**  It is null if a side is, and fails on values that have no order. -/
def compareBy (op : CompareOp) (left right : Value) : Except EngineError Value :=
  if left.isNull || right.isNull then .ok .null
  else match left.compare? right with
    | some order => .ok (.bool (op.holds order))
    | none => .error (.incomparable left.kind right.kind)

/-- The exact result of an operation on integers; division drops the fraction. -/
def exactArith : ArithOp → Int → Int → Int
  | .add, a, b => a + b
  | .sub, a, b => a - b
  | .mul, a, b => a * b
  | .div, a, b => a.tdiv b

/-- An operation on two integers: the exact result, if there is one in range. -/
def intArith (op : ArithOp) (a b : Int64) : Except EngineError Value :=
  if op = .div ∧ b = 0 then .error .divisionByZero
  else match Integer.fit? (exactArith op a.toInt b.toInt) with
    | some n => .ok (.int n)
    | none => .error (.integerOverflow a op b)

def numberArith : ArithOp → Binary64 → Binary64 → Binary64
  | .add => Binary64.add
  | .sub => Binary64.sub
  | .mul => Binary64.mul
  | .div => Binary64.div

/-- **Arithmetic.**  It is null if a side is, stays within the integers if both sides do, and is
carried out on numbers otherwise. -/
def arith (op : ArithOp) (left right : Value) : Except EngineError Value :=
  if left.isNull || right.isNull then .ok .null
  else match left, right with
    | .int a, .int b => intArith op a b
    | left, right =>
      match left.toNumber?, right.toNumber? with
      | some x, some y => .ok (.float (numberArith op x y))
      | _, _ => .error (.arithmeticUndefined op left.kind right.kind)

def negate : Value → Except EngineError Value
  | .bool b => .ok (.bool !b)
  | .null => .ok .null
  | other => .error (.notBoolean .negation other.kind)

end Value

/-! ## Expressions -/

namespace Expr

mutual

/-- **The value of an expression** on a row. -/
def eval (row : Row) : Expr → Except EngineError Value
  | .column index =>
    match row[index]? with
    | some value => .ok value
    | none => .error (.columnOutOfRange index row.length)
  | .constant value => .ok value
  | .compare op left right => do
    let a ← left.eval row
    let b ← right.eval row
    Value.compareBy op a b
  | .arith op left right => do
    let a ← left.eval row
    let b ← right.eval row
    Value.arith op a b
  | .all parts => evalAll row false parts
  | .any parts => evalAny row false parts
  | .not part => do
    let a ← part.eval row
    a.negate
  | .isNull part => do
    let a ← part.eval row
    .ok (.bool a.isNull)

/-- **Conjunction**: false at the first false operand, else null if one was null, else true. -/
def evalAll (row : Row) (sawNull : Bool) : List Expr → Except EngineError Value
  | [] => .ok (if sawNull then .null else .bool true)
  | part :: rest => do
    match ← part.eval row with
    | .bool false => .ok (.bool false)
    | .bool true => evalAll row sawNull rest
    | .null => evalAll row true rest
    | other => .error (.notBoolean .conjunction other.kind)

/-- **Disjunction**: true at the first true operand, else null if one was null, else false. -/
def evalAny (row : Row) (sawNull : Bool) : List Expr → Except EngineError Value
  | [] => .ok (if sawNull then .null else .bool false)
  | part :: rest => do
    match ← part.eval row with
    | .bool true => .ok (.bool true)
    | .bool false => evalAny row sawNull rest
    | .null => evalAny row true rest
    | other => .error (.notBoolean .disjunction other.kind)

end

/-- Evaluates expressions from left to right, up to the first that fails. -/
def evalEach (row : Row) : List Expr → Except EngineError (List Value)
  | [] => .ok []
  | expr :: rest => do
    let value ← expr.eval row
    let values ← evalEach row rest
    .ok (value :: values)

theorem length_of_evalEach_eq_ok {row : Row} {exprs : List Expr} {values : List Value}
    (h : evalEach row exprs = .ok values) : values.length = exprs.length := by
  induction exprs generalizing values with
  | nil => simp_all [evalEach]
  | cons expr rest ih =>
    simp only [evalEach, bind, Except.bind] at h
    cases hexpr : expr.eval row with
    | error e => simp [hexpr] at h
    | ok value =>
      cases hrest : evalEach row rest with
      | error e => simp [hexpr, hrest] at h
      | ok others =>
        simp only [hexpr, hrest, Except.ok.injEq] at h
        simp [← h, ih hrest]

end Expr

end GraphScan
