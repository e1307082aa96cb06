import GraphScan.Aggregate.Group
import GraphScan.Gate
import GraphScan.Meter
import GraphScan.Table.Shared

/-!
# Where finished groups go

A finished group becomes an output row.  The row is offered to the gate of the aggregation, which
applies `having` and the aggregation's own window; if it passes it is inserted into the output
table and counts as a unit of work.

* `Outlet` — the output table and the meter.
* `Gate.emit` — offers one group.
* `Gate.emitAll` — offers groups in order until no more are wanted.
-/

namespace GraphScan

/-- **Whether more is wanted.** -/
inductive Demand where
  | more
  | enough
deriving DecidableEq, Repr

/-- **Where rows go**: the table they are inserted into, and the meter that counts them. -/
structure Outlet where
  shared : SharedTable
  meter : Meter
deriving DecidableEq, Inhabited

/-- **Inserts a row**, which counts if it is taken. -/
def Outlet.deliver (outlet : Outlet) (row : Row) : Except EngineError Unit × Outlet :=
  match outlet.shared.insert row with
  | (.ok (), shared) => (.ok (), ⟨shared, outlet.meter.tick⟩)
  | (.error e, shared) => (.error e, { outlet with shared })

namespace Gate

/-- An open gate wants more. -/
def demand (gate : Gate) : Demand :=
  if gate.isOpen then .more else .enough

/-- **Offers one group.**  A row that passes the gate has used up its place even if the table
refuses it. -/
def emit (gate : Gate) (group : Group) (outlet : Outlet) :
    Except EngineError Demand × Gate × Outlet :=
  if gate.isOpen then
    let row := group.row
    match gate.offer row with
    | .error e => (.error e, gate, outlet)
    | .ok (false, gate) => (.ok gate.demand, gate, outlet)
    | .ok (true, gate) =>
      match outlet.deliver row with
      | (.error e, outlet) => (.error e, gate, outlet)
      | (.ok (), outlet) => (.ok gate.demand, gate, outlet)
  else (.ok .enough, gate, outlet)

/-- **Offers groups in order**, up to the first that fails or leaves nothing wanted. -/
def emitAll (gate : Gate) (outlet : Outlet) :
    List Group → Except EngineError Demand × Gate × Outlet
  | [] => (.ok .more, gate, outlet)
  | group :: groups =>
    match gate.emit group outlet with
    | (.ok .more, gate, outlet) => emitAll gate outlet groups
    | stopped => stopped

end Gate

/-! ## Phases -/

inductive Phase where
  | created
  | running
  | finished
deriving DecidableEq, Repr

/-- Rows can be fed, and the end announced, only between a start and the end. -/
def Phase.check (phase : Phase) (call : AggregateCall) : Except EngineError Unit :=
  match phase with
  | .running => .ok ()
  | .created => .error (.aggregateNotStarted call)
  | .finished => .error (.aggregateFinished call)

def AggregateNode.gate (node : AggregateNode) (params : List Value) : Except EngineError Gate := do
  let window ← WindowSpec.resolveOptional node.window params
  .ok (.new node.having window)

end GraphScan
