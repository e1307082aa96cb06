import GraphScan.Scan.Plan
import GraphScan.Scan.Projection

/-!
# The row loop

A scan with stages takes rows from the front of its source for as long as its gate is open.  A row
that passes the gate is projected and delivered: to the aggregation if there is one, else into the
output table.

* `Run.step` — what happens to one row.
* `Run.loop` — all rows; the rows not taken are given back.
* `Scan.run` — resolves the stages, runs the loop, ends the aggregation.
* `RunResult.logged` — the look at the output table for the log, after the run.

A row counts as scanned once it has been taken, whatever becomes of it, and as emitted once it has
passed the gate.
-/

namespace GraphScan

/-- How many rows a scan has taken, and how many of them have passed its gate. -/
structure RowCounts where
  scanned : Nat
  emitted : Nat
deriving DecidableEq, Repr, Inhabited

/-! ## Routes -/

/-- A projection ready to run: the graph that the degrees come from, and the scratch row that images
are written into. -/
structure Projector where
  projection : Projection
  graph : Graph
  scratch : Row

/-- What happens to a row between the gate and its delivery. -/
abbrev Route := Option Projector

def Route.image (route : Route) (row : Row) : Except EngineError Row :=
  match route with
  | some projector => projector.projection.apply projector.graph projector.scratch row
  | none => .ok row

/-- The route with an image left in its scratch row, where the next one is written over it. -/
def Route.reuse (route : Route) (image : Row) : Route :=
  route.map fun projector => { projector with scratch := image }

/-! ## One row -/

/-- **The state of a run.** -/
structure Run where
  gate : Gate
  machine : Option Machine
  outlet : Outlet
  /-- The rows taken so far. -/
  scanned : Nat
  /-- The counts as they stood when the last row was taken. -/
  noted : RowCounts

namespace Run

def tick (run : Run) : Run :=
  { run with outlet := { run.outlet with meter := run.outlet.meter.tick } }

def take (run : Run) : Run :=
  let scanned := run.scanned + 1
  tick { run with scanned, noted := ⟨scanned, run.gate.passed⟩ }

/-- Delivers an image, and tells whether more are wanted. -/
def deliver (run : Run) (image : Row) : Except EngineError Demand × Run :=
  match run.machine with
  | some machine =>
    let (outcome, machine, outlet) := machine.feed image run.outlet
    (outcome, { run with machine := some machine, outlet })
  | none =>
    let (outcome, shared) := run.outlet.shared.insert image
    (outcome.map fun _ => .more, { run with outlet := { run.outlet with shared } })

/-- Closes the gate if nothing more is wanted. -/
def heed (run : Run) : Demand → Run
  | .more => run
  | .enough => { run with gate := run.gate.close }

/-- What happens to a row that has passed the gate.  Its image stays behind in the scratch row. -/
def pass (run : Run) (route : Route) (row : Row) : Except EngineError Route × Run :=
  match route.image row with
  | .error e => (.error e, run)
  | .ok image =>
    match run.deliver image with
    | (.error e, run) => (.error e, run)
    | (.ok demand, run) => (.ok (route.reuse image), (run.heed demand).tick)

/-- **One row.**  It gives the route for the next one. -/
def step (run : Run) (route : Route) (row : Row) : Except EngineError Route × Run :=
  let run := run.take
  match run.gate.offer row with
  | .error e => (.error e, run)
  | .ok (false, gate) => (.ok route, { run with gate })
  | .ok (true, gate) => pass { run with gate } route row

/-! ## All rows -/

/-- **The loop.**  It ends when the gate closes, the rows run out or a row fails; the row that fails
has been taken. -/
def loop (route : Route) : List Row → Run → Except EngineError Unit × List Row × Run
  | [], run => (.ok (), [], run)
  | row :: rest, run =>
    if run.gate.isOpen then
      match run.step route row with
      | (.ok route, run) => loop route rest run
      | (.error e, run) => (.error e, rest, run)
    else (.ok (), row :: rest, run)

def finish (run : Run) : Except EngineError Unit × Run :=
  match run.machine with
  | some machine =>
    let (outcome, machine, outlet) := machine.finish run.outlet
    (outcome, { run with machine := some machine, outlet })
  | none => (.ok (), run)

end Run

/-! ## A whole run -/

/-- **What a run leaves behind.** -/
structure RunResult where
  outcome : Except EngineError RowCounts
  /-- The counts that the closing event carries. -/
  noted : RowCounts
  machine : Option Machine
  source : SharedTable
  outlet : Outlet

/-- **The result of a run as an execution reports it.**  Where the log takes traces, a run that has
succeeded is followed by a look at its output table, which fails if somebody is writing to it. -/
def RunResult.logged (result : RunResult) (traced : Bool) : RunResult :=
  { result with outcome := do
      let counts ← result.outcome
      if traced then
        let _ ← result.outlet.shared.read
      .ok counts }

namespace Scan

/-- Starts the aggregation, and gives the scratch row that the projection may write into: one of the
aggregation's input, or without an aggregation one of the output table. -/
def start (scan : Scan) (params : List Value) (source output : SharedTable) :
    Except EngineError Row × Option Machine :=
  match scan.machine with
  | some machine =>
    let width : Except EngineError Nat := match scan.node.projection with
      | some projection => .ok projection.width
      | none => source.read.map fun table => table.schema.width
    match width with
    | .error e => (.error e, some machine)
    | .ok width =>
      let (outcome, machine) := machine.init params width
      (outcome, some machine)
  | none => (output.read.map Table.scratch, none)

/-- The route of the rows.  A projection has to fill the scratch row exactly, and needs a graph for
the degrees. -/
def route (scan : Scan) (scratch : Row) : Except EngineError Route :=
  match scan.node.projection with
  | none => .ok none
  | some projection =>
    if scratch.length ≠ projection.width then
      .error (.scratchWidth scan.label scratch.length projection.width)
    else
      match scan.node.graph with
      | some graph => .ok (some ⟨projection, graph, scratch⟩)
      | none => .error (.plan scan.label .missingDegreeSource)

/-- Everything that has to be settled before the first row is taken. -/
def prepare (scan : Scan) (params : List Value) (source : SharedTable) (outlet : Outlet) :
    Except EngineError (Window × Route × Table) × Option Machine :=
  let window := do
    let window ← WindowSpec.resolveOptional scan.node.window params
    let _ ← scan.output.writable
    .ok window
  match window with
  | .error e => (.error e, scan.machine)
  | .ok window =>
    match scan.start params source outlet.shared with
    | (.error e, machine) => (.error e, machine)
    | (.ok scratch, machine) =>
      let settled := do
        let route ← scan.route scratch
        let table ← source.write
        .ok (window, route, table)
      (settled, machine)

/-- Runs the loop over the rows of the source and ends the aggregation. -/
def drain (source : SharedTable) (table : Table) (route : Route) (run : Run) : RunResult :=
  let (outcome, rest, run) := run.loop route table.rows.toList
  let source := { source with table := table.withRows rest }
  match outcome with
  | .error e => ⟨.error e, run.noted, run.machine, source, run.outlet⟩
  | .ok () =>
    let (outcome, run) := run.finish
    match outcome with
    | .error e => ⟨.error e, run.noted, run.machine, source, run.outlet⟩
    | .ok () =>
      let counts := ⟨run.scanned, run.gate.passed⟩
      ⟨.ok counts, counts, run.machine, source, run.outlet⟩

/-- **A run of a scan with stages.** -/
def run (scan : Scan) (params : List Value) (source : SharedTable) (outlet : Outlet) : RunResult :=
  match scan.prepare params source outlet with
  | (.error e, machine) => ⟨.error e, ⟨0, 0⟩, machine, source, outlet⟩
  | (.ok (window, route, table), machine) =>
    drain source table route ⟨.new scan.node.predicate window, machine, outlet, 0, ⟨0, 0⟩⟩

end Scan

end GraphScan
