import GraphScan.Value.Basic

/-!
# Expressions

Predicates, projections, group keys and aggregate inputs are expressions over one row.  A column is
named by its position.
-/

namespace GraphScan

/-! ## Operators -/

inductive CompareOp where
  | eq
  | ne
  | lt
  | lte
  | gt
  | gte
deriving DecidableEq, Repr

/-- Whether a comparison holds of two values in the given order. -/
def CompareOp.holds : CompareOp → Ordering → Bool
  | .eq, o => o == .eq
  | .ne, o => o != .eq
  | .lt, o => o == .lt
  | .lte, o => o != .gt
  | .gt, o => o == .gt
  | .gte, o => o != .lt

inductive ArithOp where
  | add
  | sub
  | mul
  | div
deriving DecidableEq, Repr

def ArithOp.label : ArithOp → String
  | .add => "Add"
  | .sub => "Sub"
  | .mul => "Mul"
  | .div => "Div"

/-- The three connectives, for messages about their operands. -/
inductive Connective where
  | conjunction
  | disjunction
  | negation
deriving DecidableEq, Repr

def Connective.label : Connective → String
  | .conjunction => "AND"
  | .disjunction => "OR"
  | .negation => "NOT"

/-! ## Expressions -/

/-- **An expression over one row.** -/
inductive Expr where
  /-- The value at a position of the row. -/
  | column (index : Nat)
  | constant (value : Value)
  | compare (op : CompareOp) (left right : Expr)
  | arith (op : ArithOp) (left right : Expr)
  /-- The conjunction of any number of expressions. -/
  | all (parts : List Expr)
  /-- The disjunction of any number of expressions. -/
  | any (parts : List Expr)
  | not (part : Expr)
  | isNull (part : Expr)
deriving Inhabited, Repr

/-- **Induction over the parts of an expression**, of which a connective may have any number. -/
@[elab_as_elim]
theorem Expr.induct {motive : Expr → Prop}
    (column : ∀ index, motive (.column index))
    (constant : ∀ value, motive (.constant value))
    (compare : ∀ op left right, motive left → motive right → motive (.compare op left right))
    (arith : ∀ op left right, motive left → motive right → motive (.arith op left right))
    (all : ∀ parts, (∀ part ∈ parts, motive part) → motive (.all parts))
    (any : ∀ parts, (∀ part ∈ parts, motive part) → motive (.any parts))
    (not : ∀ part, motive part → motive (.not part))
    (isNull : ∀ part, motive part → motive (.isNull part)) (expr : Expr) : motive expr :=
  @Expr.rec motive (fun parts => ∀ part ∈ parts, motive part) column constant compare arith all any
    not isNull (List.forall_mem_nil motive)
    (fun _ _ hpart hparts => List.forall_mem_cons.mpr ⟨hpart, hparts⟩) expr

end GraphScan
