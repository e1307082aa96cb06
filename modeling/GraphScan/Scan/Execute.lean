import GraphScan.Graph.Fetch
import GraphScan.Metrics
import GraphScan.Scan.Run

/-!
# Executions

An execution runs a scan once.  It gives the outcome together with everything that it did: the new
state of the scan and of the store, the events it recorded, the progress it reported and the
attributes it fetched.

* A scan that the planner has proved empty touches nothing.
* Otherwise the execution is bracketed by a start and a finish event.  Between them come the probe,
  if the context asks for one, and the run; a scan without stages has nothing to run.

`Scan.execute` is the execution; `Context` is what it may use.  It is the whole of it provided that the
ids of its probe can be laid out; `Scan.breakdown` says where they cannot.
-/

namespace GraphScan

/-- **What an execution may use.** -/
structure Context where
  site : Nat
  config : Config
  fetcher : Option Fetcher
  /-- Whether anyone receives progress reports.  A receiver is called while the scan holds its source
  for writing, and only listens: it neither borrows tables nor answers. -/
  heard : Bool
  /-- Whether the log of the process takes traces.  A scan then looks at its output table once
  more before it reports. -/
  traced : Bool

namespace Context

/-- The fetcher to probe with: only the coordinating site probes, if it is told to and can. -/
def prober (context : Context) : Option Fetcher :=
  let probe := context.config.remoteProbe
  if probe.enabled && context.site == probe.coordinatorSite then context.fetcher else none

/-- The requests of the probe before a scan of a graph, with their outcomes. -/
def probe (context : Context) (graph : Option Graph) (store : Store) : Option (List FetchCall) :=
  match graph, context.prober with
  | some graph, some fetcher =>
    some (Probe.run context.config.remoteProbe fetcher (Snapshot.take graph store))
  | _, _ => none

/-- Whether the context asks for a probe whose ids cannot be laid out. -/
def overflows (context : Context) : Bool :=
  context.prober.isSome && Probe.overflows context.config.remoteProbe

def meter (context : Context) (operator : Nat) : Meter :=
  .new operator context.config.progress.reportInterval context.heard

end Context

/-! ## Outcomes -/

/-- What kind of work an execution did. -/
inductive ScanOutcome where
  /-- None: the plan had proved that there are no rows. -/
  | empty
  /-- None on rows: the output is the source. -/
  | passThrough
  /-- Rows were taken from the source. -/
  | scanned
deriving DecidableEq, Repr

/-- **The report of an execution.** -/
structure ScanReport where
  outcome : ScanOutcome
  counts : RowCounts
deriving DecidableEq, Repr

/-- **An execution**: its outcome, and what it did. -/
structure Execution where
  outcome : Except EngineError ScanReport
  scan : Scan
  store : Store
  events : List Event
  progress : Array ProgressReport
  fetches : List FetchCall

namespace Scan

/-- The name under which a scan reports: its graph, or else its source table. -/
def sourceName (scan : Scan) (store : Store) : Except EngineError String :=
  match scan.node.graph with
  | some graph => .ok graph.name
  | none => (store.get scan.source).read.map Table.name

/-- **The graph over whose probe an execution breaks off**, if it does: one that is to be scanned, in a
context that asks for too many ids. -/
def breakdown (scan : Scan) (context : Context) : Option Graph :=
  if scan.node.emptyScan || !context.overflows then none else scan.node.graph

/-- The event of a probe: it succeeds if every request was answered. -/
def probeEvents : Option (List FetchCall) → List Event
  | some calls => [.remoteProbe (calls.all FetchCall.answered)]
  | none => []

def writeBack (scan : Scan) (store : Store) (result : RunResult) : Store :=
  (store.set scan.source result.source).set scan.output.table result.outlet.shared

/-- **An execution of a scan.** -/
def execute (scan : Scan) (context : Context) (params : List Value) (store : Store) : Execution :=
  match scan.sourceName store with
  | .error e => ⟨.error e, scan, store, [], #[], []⟩
  | .ok source =>
    if scan.node.emptyScan then
      ⟨.ok ⟨.empty, ⟨0, 0⟩⟩, scan, store, [.shortCircuit source .emptyScan], #[], []⟩
    else
      let probe := context.probe scan.node.graph store
      let opening := .scanStart source :: probeEvents probe
      let fetches := probe.getD []
      if scan.node.isPassThrough then
        ⟨.ok ⟨.passThrough, ⟨0, 0⟩⟩, scan, store,
          opening ++ [.shortCircuit source .passThrough, .scanFinish source 0 0], #[], fetches⟩
      else
        let outlet := ⟨store.get scan.output.table, context.meter scan.node.id⟩
        let result := (scan.run params (store.get scan.source) outlet).logged context.traced
        ⟨result.outcome.map fun counts => ⟨.scanned, counts⟩,
          { scan with machine := result.machine },
          scan.writeBack store result,
          opening ++ [.scanFinish source result.noted.scanned result.noted.emitted],
          result.outlet.meter.reports, fetches⟩

end Scan

end GraphScan
