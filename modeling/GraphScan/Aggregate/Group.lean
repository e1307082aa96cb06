import GraphScan.Aggregate.Accumulator
import GraphScan.Expr.Eval

/-!
# Groups

Rows with the same key form a group.  A key is the list of values of the grouping expressions, and
keys are the same when their values are stored alike: nulls agree with each other, numbers agree bit
for bit, and an integer never agrees with a number.
-/

namespace GraphScan

/-- **The key of a group.** -/
abbrev GroupKey := List Value

/-- **A group**: its key, and an accumulator for each aggregate. -/
structure Group where
  key : GroupKey
  accumulators : List Accumulator
deriving DecidableEq, Repr

namespace Group

def new (key : GroupKey) (aggregates : List AggregateExpr) : Group :=
  ⟨key, aggregates.map fun aggregate => .new aggregate.kind⟩

def input (aggregate : AggregateExpr) (row : Row) : Except EngineError (Option Value) :=
  match aggregate.kind, aggregate.input with
  | .countStar, _ => .ok none
  | _, some expr => (expr.eval row).map some
  | kind, none => .error (.aggregateInputMissing kind)

/-- Folds a row into accumulators from left to right.  The first that fails ends it, and those
before it keep what they took. -/
def foldRow (row : Row) :
    List AggregateExpr → List Accumulator → Except EngineError Unit × List Accumulator
  | aggregate :: aggregates, acc :: accs =>
    match input aggregate row with
    | .error e => (.error e, acc :: accs)
    | .ok value =>
      match acc.update value with
      | .error e => (.error e, acc :: accs)
      | .ok acc =>
        let (outcome, accs) := foldRow row aggregates accs
        (outcome, acc :: accs)
  | _, accs => (.ok (), accs)

/-- **Folds a row into a group.** -/
def update (group : Group) (aggregates : List AggregateExpr) (row : Row) :
    Except EngineError Unit × Group :=
  let (outcome, accumulators) := foldRow row aggregates group.accumulators
  (outcome, { group with accumulators })

/-- **The output row of a group**: its key, then the aggregates. -/
def row (group : Group) : Row :=
  group.key ++ group.accumulators.map Accumulator.result

end Group

end GraphScan
