import GraphScan.Expr.Basic
import GraphScan.Table.Schema

/-!
# Stages of a plan

What a scan can do with its rows besides filtering them: cut out a window, project, aggregate.
These are the parameters of the stages; the stages themselves are defined where they run.
-/

namespace GraphScan

/-! ## Windows -/

/-- A bound of a window: a fixed count, or the parameter at a position. -/
inductive Bound where
  | literal (count : Nat)
  | parameter (index : Nat)
deriving DecidableEq, Repr

/-- Which end of a window a bound belongs to. -/
inductive BoundRole where
  | limit
  | offset
deriving DecidableEq, Repr

def BoundRole.label : BoundRole → String
  | .limit => "LIMIT"
  | .offset => "OFFSET"

/-- **A window over rows** as a plan states it.  Without a limit it is unbounded, without an offset
it starts at the first row. -/
structure WindowSpec where
  limit : Option Bound
  offset : Option Bound
deriving DecidableEq, Repr, Inhabited

/-! ## Projections -/

/-- **A projection.**  The expressions give the leading columns; the two trailing columns of the
schema hold the degrees of the row's vertex. -/
structure Projection where
  exprs : List Expr
  schema : Schema
deriving Inhabited

/-- The number of degree columns at the end of every projected row. -/
def Projection.degreeColumns : Nat := 2

/-- The number of columns that the schema of a projection declares. -/
def Projection.width (projection : Projection) : Nat :=
  projection.schema.width

/-! ## Aggregations -/

inductive AggregateKind where
  | avg
  | count
  | countStar
  | max
  | min
  | sum
deriving DecidableEq, Repr, Inhabited

def AggregateKind.label : AggregateKind → String
  | .avg => "Avg"
  | .count => "Count"
  | .countStar => "CountStar"
  | .max => "Max"
  | .min => "Min"
  | .sum => "Sum"

/-- The name of an aggregate function in messages about its inputs. -/
def AggregateKind.keyword : AggregateKind → String
  | .avg => "AVG"
  | .count => "COUNT"
  | .countStar => "COUNT(*)"
  | .max => "MAX"
  | .min => "MIN"
  | .sum => "SUM"

/-- An aggregate column: a function, and the input it is applied to.  Counting rows needs none. -/
structure AggregateExpr where
  kind : AggregateKind
  input : Option Expr
deriving Inhabited

/-- **What is promised about the order of the rows**, and so when a group can be closed. -/
inductive Strategy where
  /-- Rows with equal keys stand together: a group closes when the key changes. -/
  | serial
  /-- Rows equal in the first `sorted` keys stand together: groups close when those change. -/
  | partialOrder (sorted : Nat)
  /-- Nothing is promised: groups close at the end. -/
  | hash
deriving DecidableEq, Repr, Inhabited

/-- **An aggregation.**  An output row is the group key followed by one value per aggregate;
`having` filters those rows and `window` cuts them. -/
structure AggregateNode where
  strategy : Strategy
  groupBy : List Expr
  aggregates : List AggregateExpr
  having : Option Expr
  window : Option WindowSpec
  schema : Schema
deriving Inhabited

end GraphScan
