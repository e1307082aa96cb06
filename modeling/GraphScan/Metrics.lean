import GraphScan.Meter

/-!
# Metrics

Scans record events.  An event goes to the innermost recording scope, or, outside of any, to the
counters.

* `Counters.record` — how an event adds to the counters.
* `Metrics.record` — the routing of an event to its one receiver.
-/

namespace GraphScan

/-- Why a scan did no work on rows. -/
inductive ShortCircuit where
  | emptyScan
  | passThrough
deriving DecidableEq, Repr

/-- **What a scan reports about itself.** -/
inductive Event where
  | scanStart (source : String)
  | scanFinish (source : String) (scanned emitted : Nat)
  | shortCircuit (source : String) (reason : ShortCircuit)
  | remoteProbe (succeeded : Bool)
deriving DecidableEq, Repr

/-! ## Counters -/

structure Totals where
  scanCalls : Nat := 0
  emptyScans : Nat := 0
  passThroughScans : Nat := 0
  scanned : Nat := 0
  emitted : Nat := 0
  remoteProbes : Nat := 0
  remoteProbeFailures : Nat := 0
deriving DecidableEq, Repr, Inhabited

structure SourceCounters where
  scanCalls : Nat := 0
  scanned : Nat := 0
  emitted : Nat := 0
deriving DecidableEq, Repr, Inhabited

/-- **All counters**: the totals, and those of each source that was scanned. -/
structure Counters where
  totals : Totals := {}
  sources : List (String × SourceCounters) := []
deriving DecidableEq, Repr, Inhabited

namespace Counters

/-- Adds to a counter, which stays at its greatest value once it gets there. -/
def bump (counter amount : Nat) : Nat :=
  saturatingAdd maxCount counter amount

/-- Changes the counters of a source, which start at zero. -/
def updateSource (source : String) (change : SourceCounters → SourceCounters) :
    List (String × SourceCounters) → List (String × SourceCounters)
  | [] => [(source, change {})]
  | (name, counters) :: rest =>
    if name = source then (name, change counters) :: rest
    else (name, counters) :: updateSource source change rest

/-- The totals after an event. -/
def recordTotals (totals : Totals) : Event → Totals
  | .scanStart _ => { totals with scanCalls := bump totals.scanCalls 1 }
  | .scanFinish _ scanned emitted =>
    { totals with scanned := bump totals.scanned scanned, emitted := bump totals.emitted emitted }
  | .shortCircuit _ .emptyScan => { totals with emptyScans := bump totals.emptyScans 1 }
  | .shortCircuit _ .passThrough =>
    { totals with passThroughScans := bump totals.passThroughScans 1 }
  | .remoteProbe succeeded =>
    { totals with
      remoteProbes := bump totals.remoteProbes 1
      remoteProbeFailures :=
        if succeeded then totals.remoteProbeFailures else bump totals.remoteProbeFailures 1 }

/-- The counters of the sources after an event.  Only a start and a finish count there. -/
def recordSources (sources : List (String × SourceCounters)) :
    Event → List (String × SourceCounters)
  | .scanStart source =>
    updateSource source (fun c => { c with scanCalls := bump c.scanCalls 1 }) sources
  | .scanFinish source scanned emitted =>
    updateSource source
      (fun c => { c with scanned := bump c.scanned scanned, emitted := bump c.emitted emitted })
      sources
  | .shortCircuit _ _ | .remoteProbe _ => sources

/-- **The counters after an event.** -/
def record (counters : Counters) (event : Event) : Counters :=
  ⟨recordTotals counters.totals event, recordSources counters.sources event⟩

end Counters

/-! ## Routing -/

/-- **The receivers of events**: the counters, and the recording scopes, the innermost first. -/
structure Metrics where
  counters : Counters := {}
  scopes : List (Array Event) := []
deriving DecidableEq, Repr, Inhabited

namespace Metrics

/-- **Hands an event to its receiver.** -/
def record (metrics : Metrics) (event : Event) : Metrics :=
  match metrics.scopes with
  | [] => { metrics with counters := metrics.counters.record event }
  | scope :: outer => { metrics with scopes := scope.push event :: outer }

def recordAll (metrics : Metrics) (events : List Event) : Metrics :=
  events.foldl record metrics

def reset (metrics : Metrics) : Metrics :=
  { metrics with counters := {} }

def enter (metrics : Metrics) : Metrics :=
  { metrics with scopes := #[] :: metrics.scopes }

/-- Closes the innermost scope and gives what it recorded. -/
def leave (metrics : Metrics) : Array Event × Metrics :=
  match metrics.scopes with
  | [] => (#[], metrics)
  | scope :: outer => (scope, { metrics with scopes := outer })

end Metrics

end GraphScan
