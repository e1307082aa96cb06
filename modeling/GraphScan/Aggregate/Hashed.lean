import GraphScan.Aggregate.Outlet

/-!
# Hashed aggregation

Groups are kept in the order in which their first rows arrived, with an index from keys to groups.

* With `runWidth = 0` nothing is promised about the order of the rows, and all groups are emitted
  at the end.
* With a positive `runWidth` the rows that agree in that many leading key values stand together.
  The groups of such a run are emitted as soon as the next run begins.
-/

namespace GraphScan

/-- **A hashed aggregation.** -/
structure Hashed where
  node : AggregateNode
  /-- The number of leading key values that delimit a run. -/
  runWidth : Nat
  phase : Phase
  /-- The gate of the current execution; none before the first. -/
  gate : Option Gate
  /-- The leading key values of the current run. -/
  run : Option GroupKey
  /-- The slot of each key. -/
  index : List (GroupKey × Nat)
  /-- The groups, in the order of their first rows. -/
  groups : Array Group

namespace Hashed

/-- An aggregation whose rows come in runs of the given number of keys, as far as there are that
many. -/
def withRuns (node : AggregateNode) (sorted : Nat) : Hashed :=
  ⟨node, min sorted node.groupBy.length, .created, none, none, [], #[]⟩

def new (node : AggregateNode) : Hashed :=
  withRuns node 0

/-- **Starts a run**, and gives the all-null row of the input's width.  What an earlier run left is
dropped even if the window cannot be resolved; its gate and phase are then kept. -/
def init (h : Hashed) (params : List Value) (width : Nat) : Except EngineError Row × Hashed :=
  let h := { h with run := none, index := [], groups := #[] }
  match h.node.gate params with
  | .ok gate => (.ok (Row.nulls width), { h with gate := some gate, phase := .running })
  | .error e => (.error e, h)

/-- **Emits all groups in order.**  They are gone afterwards, even those that were not reached. -/
def flush (h : Hashed) (outlet : Outlet) : Except EngineError Demand × Hashed × Outlet :=
  match h.gate with
  | some gate =>
    let (outcome, gate, outlet) := gate.emitAll outlet h.groups.toList
    (outcome, { h with gate := some gate, index := [], groups := #[] }, outlet)
  | none => (.error (.aggregateUnbound "hash"), h, outlet)

def startsRun (h : Hashed) (run : GroupKey) : Bool :=
  match h.run with
  | some current => decide (current ≠ run)
  | none => false

/-- Enters the run of the given leading key values, and emits the groups of the run before it. -/
def enterRun (h : Hashed) (run : GroupKey) (outlet : Outlet) :
    Except EngineError Demand × Hashed × Outlet :=
  if h.runWidth = 0 then (.ok .more, h, outlet)
  else if h.startsRun run then
    match h.flush outlet with
    | (.ok .more, h, outlet) => (.ok .more, { h with run := some run }, outlet)
    | stopped => stopped
  else (.ok .more, { h with run := some run }, outlet)

def slotOf (h : Hashed) (key : GroupKey) : Nat × Hashed :=
  match h.index.lookup key with
  | some slot => (slot, h)
  | none =>
    let slot := h.groups.size
    (slot, { h with
      index := (key, slot) :: h.index
      groups := h.groups.push (.new key h.node.aggregates) })

def collect (h : Hashed) (key : GroupKey) (row : Row) : Except EngineError Demand × Hashed :=
  let (slot, h) := h.slotOf key
  match h.groups[slot]? with
  | some group =>
    let (outcome, group) := group.update h.node.aggregates row
    (outcome.map fun _ => .more, { h with groups := h.groups.setIfInBounds slot group })
  | none => (.error (.groupSlotLost slot), h)

def feed (h : Hashed) (row : Row) (outlet : Outlet) : Except EngineError Demand × Hashed × Outlet :=
  match h.phase.check .feed with
  | .error e => (.error e, h, outlet)
  | .ok () =>
    match Expr.evalEach row h.node.groupBy with
    | .error e => (.error e, h, outlet)
    | .ok key =>
      match h.enterRun (key.take h.runWidth) outlet with
      | (.ok .more, h, outlet) =>
        let (outcome, h) := h.collect key row
        (outcome, h, outlet)
      | stopped => stopped

/-- Without grouping there is one group, even of no rows. -/
def ensureGroup (h : Hashed) : Hashed :=
  if h.groups.isEmpty && h.node.groupBy.isEmpty then
    { h with groups := h.groups.push (.new [] h.node.aggregates) }
  else h

def finish (h : Hashed) (outlet : Outlet) : Except EngineError Unit × Hashed × Outlet :=
  match h.phase.check .finish with
  | .error e => (.error e, h, outlet)
  | .ok () =>
    let (outcome, h, outlet) := (ensureGroup { h with phase := .finished }).flush outlet
    (outcome.map fun _ => (), h, outlet)

end Hashed

end GraphScan
