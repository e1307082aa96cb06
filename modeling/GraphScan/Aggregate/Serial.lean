import GraphScan.Aggregate.Outlet

/-!
# Serial aggregation

Rows with equal keys are promised to stand together, so at most one group is open.  It is emitted
as soon as a row with another key arrives, or at the end.
-/

namespace GraphScan

/-- **A serial aggregation.** -/
structure Serial where
  node : AggregateNode
  phase : Phase
  /-- The gate of the current run; none before the first. -/
  gate : Option Gate
  /-- The open group. -/
  current : Option Group

namespace Serial

def new (node : AggregateNode) : Serial :=
  ⟨node, .created, none, none⟩

/-- **Starts a run**, and gives the all-null row of the input's width.  What an earlier run left is
dropped even if the window cannot be resolved; its gate and phase are then kept. -/
def init (s : Serial) (params : List Value) (width : Nat) : Except EngineError Row × Serial :=
  let s := { s with current := none }
  match s.node.gate params with
  | .ok gate => (.ok (Row.nulls width), { s with gate := some gate, phase := .running })
  | .error e => (.error e, s)

def emit (s : Serial) (group : Group) (outlet : Outlet) :
    Except EngineError Demand × Serial × Outlet :=
  match s.gate with
  | some gate =>
    let (outcome, gate, outlet) := gate.emit group outlet
    (outcome, { s with gate := some gate }, outlet)
  | none => (.error (.aggregateUnbound "serial"), s, outlet)

/-- Closes the open group if it has another key. -/
def closeOther (s : Serial) (key : GroupKey) (outlet : Outlet) :
    Except EngineError Demand × Serial × Outlet :=
  match s.current with
  | some group =>
    if group.key = key then (.ok .more, s, outlet)
    else emit { s with current := none } group outlet
  | none => (.ok .more, s, outlet)

/-- Folds a row into the open group, which is opened for the row's key if there is none. -/
def collect (s : Serial) (key : GroupKey) (row : Row) : Except EngineError Demand × Serial :=
  let group := s.current.getD (.new key s.node.aggregates)
  let (outcome, group) := group.update s.node.aggregates row
  (outcome.map fun _ => .more, { s with current := some group })

def feed (s : Serial) (row : Row) (outlet : Outlet) : Except EngineError Demand × Serial × Outlet :=
  match s.phase.check .feed with
  | .error e => (.error e, s, outlet)
  | .ok () =>
    match Expr.evalEach row s.node.groupBy with
    | .error e => (.error e, s, outlet)
    | .ok key =>
      match s.closeOther key outlet with
      | (.ok .more, s, outlet) =>
        let (outcome, s) := s.collect key row
        (outcome, s, outlet)
      | stopped => stopped

/-- The group to be emitted at the end: the open one or, without grouping, an empty one. -/
def pending (s : Serial) : Option Group :=
  match s.current with
  | some group => some group
  | none => if s.node.groupBy.isEmpty then some (.new [] s.node.aggregates) else none

def finish (s : Serial) (outlet : Outlet) : Except EngineError Unit × Serial × Outlet :=
  match s.phase.check .finish with
  | .error e => (.error e, s, outlet)
  | .ok () =>
    let closed := { s with phase := .finished, current := none }
    match s.pending, s.gate with
    | some group, _ =>
      let (outcome, s, outlet) := closed.emit group outlet
      (outcome.map fun _ => (), s, outlet)
    | none, some _ => (.ok (), closed, outlet)
    | none, none => (.error (.aggregateUnbound "serial"), closed, outlet)

end Serial

end GraphScan
