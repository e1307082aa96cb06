import GraphScan.Proofs.Scan.Pace
import GraphScan.World
import Mathlib.Algebra.Ring.Nat

/-!
# Contexts do not show

The context of an execution says at which site it runs, whether to probe and with which fetcher, and
who hears of its progress.  None of this has any part in what the execution does to the tables, to
its scan or to its outcome.  But there has to be an execution: a probe that asks for more ids than can
be laid out breaks the process off.

* `Event.withoutProbes`, `Metrics.unprobed` — events and metrics without any trace of probes.
* `Metrics.unprobed_recordAll` — events of probes leave no other trace.
* `Execution.Alike` — executions that only differ in what they show of their contexts.
* `Scan.execute_alike` — **one execution in two contexts**.
* `Context.overflows_iff` — the contexts whose probes cannot be laid out.
* `World.Request`, `World.serve` — attempts one after the other, each in its own context.
* `World.context_shows_only_breakdown` — **the same attempts in other contexts** leave worlds that are
  alike, exactly if the process breaks off in both contexts or in neither.
-/

namespace GraphScan

/-! ## Traces of probes -/

def Event.isProbe : Event → Bool
  | .remoteProbe _ => true
  | _ => false

/-- The events that are not of a probe. -/
def Event.withoutProbes (events : List Event) : List Event :=
  events.filter fun event => !event.isProbe

/-- Counters that have counted no probe. -/
def Counters.unprobed (counters : Counters) : Counters :=
  { counters with totals := { counters.totals with remoteProbes := 0, remoteProbeFailures := 0 } }

namespace Metrics

/-- **Metrics without any trace of probes**, in the counters and in the scopes. -/
def unprobed (metrics : Metrics) : Metrics where
  counters := metrics.counters.unprobed
  scopes := metrics.scopes.map fun scope => scope.filter fun event => !event.isProbe

/-- The event of a probe leaves no other trace. -/
theorem unprobed_record_of_isProbe (metrics : Metrics) {event : Event}
    (h : event.isProbe = true) : (metrics.record event).unprobed = metrics.unprobed := by
  cases event with
  | remoteProbe succeeded =>
      cases hscopes : metrics.scopes with
      | nil =>
          simp only [record, unprobed, hscopes]
          rfl
      | cons scope outer => simp [record, unprobed, hscopes, Event.isProbe]
  | _ => cases h

/-- Any other event is recorded as if there had been no probe. -/
theorem unprobed_record_of_not_isProbe (metrics : Metrics) {event : Event}
    (h : event.isProbe = false) :
    (metrics.record event).unprobed = metrics.unprobed.record event := by
  cases hscopes : metrics.scopes with
  | nil =>
      cases event with
      | remoteProbe succeeded => cases h
      | shortCircuit source reason => cases reason <;> simp [record, unprobed, hscopes] <;> rfl
      | _ => simp [record, unprobed, hscopes]; rfl
  | cons scope outer => simp [record, unprobed, hscopes, h]

/-- **Without the traces of probes only the other events are left.** -/
theorem unprobed_recordAll (metrics : Metrics) (events : List Event) :
    (metrics.recordAll events).unprobed =
      metrics.unprobed.recordAll (Event.withoutProbes events) := by
  induction events generalizing metrics with
  | nil => rfl
  | cons event events ih =>
      show ((metrics.record event).recordAll events).unprobed = _
      rw [ih]
      cases hprobe : event.isProbe with
      | true =>
          rw [unprobed_record_of_isProbe metrics hprobe, Event.withoutProbes, Event.withoutProbes,
            List.filter_cons_of_neg (by simp [hprobe])]
      | false =>
          rw [unprobed_record_of_not_isProbe metrics hprobe, Event.withoutProbes,
            Event.withoutProbes, List.filter_cons_of_pos (by simp [hprobe])]
          rfl

end Metrics

/-! ## One execution -/

/-- **Executions that are alike** in everything but the event of the probe, the requests of the probe
and the progress reports. -/
structure Execution.Alike (one other : Execution) : Prop where
  outcome_eq : one.outcome = other.outcome
  scan_eq : one.scan = other.scan
  store_eq : one.store = other.store
  events_eq : Event.withoutProbes one.events = Event.withoutProbes other.events

namespace Scan

theorem withoutProbes_probeEvents (name : String) (probe : Option (List FetchCall))
    (others : List Event) :
    Event.withoutProbes (.scanStart name :: probeEvents probe ++ others) =
      .scanStart name :: Event.withoutProbes others := by
  cases probe <;> simp [probeEvents, Event.withoutProbes, Event.isProbe]

/-- **One execution in two contexts.**  The two runs are one run, on two meters. -/
theorem execute_alike (scan : Scan) {first second : Context}
    (htraced : first.traced = second.traced) (params : List Value) (store : Store) :
    (scan.execute first params store).Alike (scan.execute second params store) := by
  cases hname : scan.sourceName store with
  | error e =>
      rw [execute_of_name_error first params hname, execute_of_name_error second params hname]
      exact ⟨rfl, rfl, rfl, rfl⟩
  | ok name =>
    cases hfull : scan.node.emptyScan with
    | true =>
        rw [execute_of_empty first params hname hfull, execute_of_empty second params hname hfull]
        exact ⟨rfl, rfl, rfl, rfl⟩
    | false =>
      cases hstages : scan.node.isPassThrough with
      | true =>
          rw [execute_of_isPassThrough first params hname hfull hstages,
            execute_of_isPassThrough second params hname hfull hstages]
          refine ⟨rfl, rfl, rfl, ?_⟩
          rw [withoutProbes_probeEvents, withoutProbes_probeEvents]
      | false =>
          obtain ⟨result, units, hrun⟩ :=
            scan.run_on params (store.get scan.source) (store.get scan.output.table)
          obtain ⟨hout, hscan, hstore, hevents⟩ :=
            execute_of_stages first params hname hfull hstages
          obtain ⟨hout', hscan', hstore', hevents'⟩ :=
            execute_of_stages second params hname hfull hstages
          rw [outlet, hrun] at hout hscan hstore hevents hout' hscan' hstore' hevents'
          rw [htraced] at hout
          refine ⟨hout.trans hout'.symm, hscan.trans hscan'.symm, hstore.trans hstore'.symm, ?_⟩
          rw [hevents, hevents', withoutProbes_probeEvents, withoutProbes_probeEvents]
          rfl

end Scan

/-! ## Probes that cannot be laid out -/

/-- A probe can ask for `2 ^ 60 - 1` vertices and edges, and not for one more. -/
theorem Probe.overflows_iff (config : ProbeConfig) :
    Probe.overflows config = true ↔ 2 ^ 60 ≤ config.probeCount := by
  rw [overflows, decide_eq_true_iff, Nat.lt_min, show capacity = 2 ^ 60 - 1 by decide,
    show maxIds = 2 ^ 63 - 1 by decide]
  omega

/-- **The contexts whose probes cannot be laid out.** -/
theorem Context.overflows_iff (context : Context) :
    context.overflows = true ↔
      context.config.remoteProbe.enabled = true ∧
        context.site = context.config.remoteProbe.coordinatorSite ∧
        context.fetcher.isSome = true ∧ 2 ^ 60 ≤ context.config.remoteProbe.probeCount := by
  rw [overflows, Bool.and_eq_true, Probe.overflows_iff, prober]
  by_cases h : (context.config.remoteProbe.enabled &&
      context.site == context.config.remoteProbe.coordinatorSite) = true
  · rw [if_pos h]
    rw [Bool.and_eq_true, beq_iff_eq] at h
    simp [h.1, h.2]
  · rw [if_neg h]
    rw [Bool.and_eq_true, beq_iff_eq] at h
    constructor
    · intro hnone
      cases hnone.1
    · rintro ⟨henabled, hsite, -⟩
      exact absurd ⟨henabled, hsite⟩ h

theorem Scan.breakdown_eq_some_iff {scan : Scan} {context : Context} {graph : Graph} :
    scan.breakdown context = some graph ↔
      scan.node.graph = some graph ∧ scan.node.emptyScan = false ∧ context.overflows = true := by
  rw [breakdown]
  cases scan.node.emptyScan <;> cases context.overflows <;> simp

/-- Contexts that both overflow, or neither, break off over the same graph or over none. -/
theorem Scan.breakdown_congr (scan : Scan) {first second : Context}
    (h : first.overflows = second.overflows) : scan.breakdown first = scan.breakdown second := by
  rw [breakdown, breakdown, h]

/-! ## Worlds -/

namespace World

/-- **A world without any trace of probes.** -/
def unprobed (world : World) : World :=
  { world with metrics := world.metrics.unprobed }

variable {one other : World} {first second : Context}

/-- An execution sees nothing of the probes before it, and nothing of its context. -/
theorem execute_alike (h : one.unprobed = other.unprobed) (htraced : first.traced = second.traced)
    (index : Nat) (scan : Scan) (params : List Value) :
    (one.execute index scan first params).1.Alike (other.execute index scan second params).1 ∧
      (one.execute index scan first params).2.unprobed =
        (other.execute index scan second params).2.unprobed := by
  obtain ⟨store, graphs, tables, scans, metrics⟩ := one
  obtain ⟨store', graphs', tables', scans', metrics'⟩ := other
  simp only [unprobed, World.mk.injEq] at h
  obtain ⟨rfl, rfl, rfl, rfl, hmetrics⟩ := h
  have halike := scan.execute_alike htraced params store
  refine ⟨halike, ?_⟩
  simp only [execute, unprobed, Metrics.unprobed_recordAll, hmetrics, halike.scan_eq,
    halike.store_eq, halike.events_eq]

/-- **Attempts that are alike**: the process breaks off in both, or they are executions that are
alike. -/
abbrev AttemptsAlike (one other : Option Execution × World) : Prop :=
  Option.Rel Execution.Alike one.1 other.1 ∧ one.2.unprobed = other.2.unprobed

/-- Attempts are alike if the process breaks off in both or in neither. -/
theorem attempt_alike (h : one.unprobed = other.unprobed) (htraced : first.traced = second.traced)
    {scan : Scan} (hbreakdown : scan.breakdown first = scan.breakdown second) (index : Nat)
    (params : List Value) :
    AttemptsAlike (one.attempt index scan first params) (other.attempt index scan second params) := by
  rw [attempt, attempt, hbreakdown]
  cases scan.breakdown second with
  | some graph =>
      refine ⟨.none, ?_⟩
      obtain ⟨store, graphs, tables, scans, metrics⟩ := one
      obtain ⟨store', graphs', tables', scans', metrics'⟩ := other
      simp only [unprobed, World.mk.injEq] at h
      obtain ⟨rfl, rfl, rfl, rfl, hmetrics⟩ := h
      simp only [withMetrics, unprobed, Metrics.unprobed_recordAll, hmetrics]
  | none =>
      obtain ⟨halike, hafter⟩ := execute_alike h htraced index scan params
      exact ⟨.some halike, hafter⟩

/-- Attempts of which only one breaks off are not alike. -/
theorem breakdown_eq_of_attempt {world : World} {index : Nat} {scan : Scan} {params : List Value}
    (h : Option.Rel Execution.Alike (world.attempt index scan first params).1
      (world.attempt index scan second params).1) :
    scan.breakdown first = scan.breakdown second := by
  rw [attempt, attempt] at h
  cases hfirst : scan.breakdown first with
  | none =>
      cases hsecond : scan.breakdown second with
      | none => rfl
      | some graph =>
          rw [hfirst, hsecond] at h
          cases h
  | some graph =>
      cases hsecond : scan.breakdown second with
      | none =>
          rw [hfirst, hsecond] at h
          cases h
      | some found =>
          -- It is the graph of the scan, both times.
          exact (Scan.breakdown_eq_some_iff.mp hfirst).1.symm.trans
            (Scan.breakdown_eq_some_iff.mp hsecond).1

/-- **What is left of an attempt that breaks off**: two events. -/
theorem attempt_of_breakdown {world : World} {context : Context} {scan : Scan} {graph : Graph}
    (h : scan.breakdown context = some graph) (index : Nat) (params : List Value) :
    world.attempt index scan context params =
      (none, { world with metrics :=
        world.metrics.recordAll [.scanStart graph.name, .scanFinish graph.name 0 0] }) := by
  rw [attempt, h]
  rfl

/-- A request to execute the scan of a number. -/
structure Request where
  index : Nat
  params : List Value

/-- **Attempts one after the other**, each in its own context.  A number without a scan is passed
over. -/
def serve (world : World) : List (Request × Context) → List (Option Execution) × World
  | [] => ([], world)
  | (request, context) :: requests =>
    match world.scan? request.index with
    | some scan =>
      let (execution, world) := world.attempt request.index scan context request.params
      let (executions, world) := world.serve requests
      (execution :: executions, world)
    | none => world.serve requests

/-- Contexts that cannot be told apart: the log takes traces in both or in neither, and so for probes
that cannot be laid out. -/
def Matching (calls : List (Request × Context × Context)) : Prop :=
  ∀ call ∈ calls, call.2.1.traced = call.2.2.traced ∧ call.2.1.overflows = call.2.2.overflows

/-- Requests served in other contexts.  The induction is on the requests; after each of them the two
worlds are alike. -/
theorem serve_alike (h : one.unprobed = other.unprobed) {calls : List (Request × Context × Context)}
    (hcalls : Matching calls) :
    List.Forall₂ (Option.Rel Execution.Alike)
        (one.serve (calls.map fun (request, first, _) => (request, first))).1
        (other.serve (calls.map fun (request, _, second) => (request, second))).1 ∧
      (one.serve (calls.map fun (request, first, _) => (request, first))).2.unprobed =
        (other.serve (calls.map fun (request, _, second) => (request, second))).2.unprobed := by
  induction calls generalizing one other with
  | nil => exact ⟨.nil, h⟩
  | cons call calls ih =>
      obtain ⟨⟨htraced, hoverflows⟩, hrest⟩ := List.forall_mem_cons.mp hcalls
      obtain ⟨request, first, second⟩ := call
      have hsame : one.unprobed.scan? request.index = other.unprobed.scan? request.index := by rw [h]
      have hscans : one.scan? request.index = other.scan? request.index := hsame
      simp only [List.map_cons, serve, ← hscans]
      cases one.scan? request.index with
      | none => exact ih h hrest
      | some scan =>
          obtain ⟨halike, hafter⟩ := attempt_alike h htraced (scan.breakdown_congr hoverflows)
            request.index request.params
          obtain ⟨hothers, hlater⟩ := ih hafter hrest
          exact ⟨.cons halike hothers, hlater⟩

/-- **The context of an execution shows only where the process breaks off.**  Take any world, any scan
and any parameters, and two contexts of one log.  Attempts in them are alike, in outcome, scan, tables
and events up to those of probes, exactly if the process breaks off in both or in neither; whether
there is a probe, whom it asks and whether it succeeds makes no other difference.  So it is for any
attempts one after the other.  The process breaks off exactly where a scan of a graph that is not
marked empty has to be preceded by a probe for `2 ^ 60` ids or more, and then it leaves no trace but
the two events of an execution that has done nothing. -/
theorem context_shows_only_breakdown (world : World) :
    (∀ (index : Nat) (scan : Scan) (params : List Value) (first second : Context),
      first.traced = second.traced →
        (AttemptsAlike (world.attempt index scan first params)
            (world.attempt index scan second params) ↔
          scan.breakdown first = scan.breakdown second)) ∧
    (∀ calls : List (Request × Context × Context), Matching calls →
      let one := world.serve (calls.map fun (request, first, _) => (request, first))
      let other := world.serve (calls.map fun (request, _, second) => (request, second))
      List.Forall₂ (Option.Rel Execution.Alike) one.1 other.1 ∧
        one.2.unprobed = other.2.unprobed) ∧
    ∀ (index : Nat) (scan : Scan) (params : List Value) (context : Context) (graph : Graph),
      (scan.breakdown context = some graph ↔
        scan.node.graph = some graph ∧ scan.node.emptyScan = false ∧
          context.config.remoteProbe.enabled = true ∧
          context.site = context.config.remoteProbe.coordinatorSite ∧
          context.fetcher.isSome = true ∧ 2 ^ 60 ≤ context.config.remoteProbe.probeCount) ∧
      (scan.breakdown context = some graph → world.attempt index scan context params =
        (none, { world with metrics :=
          world.metrics.recordAll [.scanStart graph.name, .scanFinish graph.name 0 0] })) := by
  refine ⟨?_, ?_, ?_⟩
  · intro index scan params first second htraced
    constructor
    · intro halike
      exact breakdown_eq_of_attempt halike.1
    · intro hbreakdown
      exact attempt_alike rfl htraced hbreakdown index params
  · intro calls hcalls
    exact serve_alike rfl hcalls
  · intro index scan params context graph
    constructor
    · rw [Scan.breakdown_eq_some_iff, Context.overflows_iff]
    · intro hbreakdown
      exact attempt_of_breakdown hbreakdown index params

/-! ### An example: one id too many -/

/-- Those of two people whose id is greater than one. -/
def laterPeople (graph : Graph) : ScanNode :=
  ⟨0, some graph, [], false, false, some (.compare .gt (.column 0) (.constant (.int 1))), none, none,
    none, Scan.idSchema⟩

/-- The two people, with a scan of the later one. -/
def pairWorld : World :=
  let (_, graph, world) := empty.addGraph "people" Scan.idSchema
    ⟨[⟨"id", .int⟩, ⟨"from_id", .int⟩, ⟨"to_id", .int⟩]⟩ [.vertex [.int 1], .vertex [.int 2]]
  (world.addScan (.scan (laterPeople graph))).2

def pairScan : Scan :=
  ⟨laterPeople ⟨"people", 0, 1, [⟨2, 0, 0⟩, ⟨1, 0, 0⟩], []⟩, 0, .owned 2, none⟩

/-- A context that probes for so many ids. -/
def asking (count : Nat) : Context :=
  ⟨0, { remoteProbe := { enabled := true, probeCount := count } }, some .loopback, false, false⟩

/-- A probe for `2 ^ 60 - 1` ids does not show, also not over two attempts, and one for `2 ^ 60` does. -/
theorem context_shows_only_breakdown_pair :
    let twice : List (Request × Context × Context) :=
      [(⟨0, []⟩, asking 0, asking (2 ^ 60 - 1)), (⟨0, []⟩, asking 3, asking 5)]
    AttemptsAlike (pairWorld.attempt 0 pairScan (asking 0) [])
        (pairWorld.attempt 0 pairScan (asking (2 ^ 60 - 1)) []) ∧
      (Matching twice ∧
        (pairWorld.serve (twice.map fun (request, first, _) => (request, first))).2.unprobed =
          (pairWorld.serve (twice.map fun (request, _, second) => (request, second))).2.unprobed) ∧
      ¬ AttemptsAlike (pairWorld.attempt 0 pairScan (asking 0) [])
        (pairWorld.attempt 0 pairScan (asking (2 ^ 60)) []) := by
  intro twice
  obtain ⟨halike, hserved, hbreakdown⟩ := context_shows_only_breakdown pairWorld
  have hnone (count : Nat) (hcount : count < 2 ^ 60) : pairScan.breakdown (asking count) = none := by
    refine Option.eq_none_iff_forall_ne_some.mpr fun graph hsome => ?_
    obtain ⟨-, -, -, -, -, hmany⟩ := (hbreakdown 0 pairScan [] (asking count) graph).1.mp hsome
    exact absurd hcount (Nat.not_lt.mpr hmany)
  have hsome : pairScan.breakdown (asking (2 ^ 60)) = some _ :=
    (hbreakdown 0 pairScan [] (asking (2 ^ 60)) _).1.mpr ⟨rfl, rfl, rfl, rfl, rfl, Nat.le_refl _⟩
  refine ⟨?_, ?_, ?_⟩
  · refine (halike 0 pairScan [] (asking 0) (asking (2 ^ 60 - 1)) rfl).mpr ?_
    rw [hnone 0 (by decide), hnone (2 ^ 60 - 1) (by decide)]
  · have hmatching : Matching twice := by simp only [twice, Matching, List.forall_mem_cons]; decide
    exact ⟨hmatching, (hserved twice hmatching).2⟩
  · intro hsame
    have hboth := (halike 0 pairScan [] (asking 0) (asking (2 ^ 60)) rfl).mp hsame
    rw [hnone 0 (by decide), hsome] at hboth
    cases hboth

/-- **With one id too many there is no answer**, and the rows stay where they are; with no probe to
speak of the later person is found. -/
theorem attempt_asking :
    let few := pairWorld.attempt 0 pairScan (asking 3) []
    let many := pairWorld.attempt 0 pairScan (asking (2 ^ 60)) []
    pairWorld.scan? 0 = some pairScan ∧
      few.1.map Execution.outcome = some (.ok ⟨.scanned, ⟨2, 1⟩⟩) ∧
      (few.2.store.get 0).table.rows.toList = [] ∧
      (few.2.store.get 2).table.rows.toList = [[.int 2]] ∧
      many.1.map Execution.outcome = none ∧
      (many.2.store.get 0).table.rows.toList = [[.int 1], [.int 2]] ∧
      (many.2.store.get 2).table.rows.toList = [] := by
  intro few many
  exact ⟨rfl, rfl, rfl, rfl, rfl, rfl, rfl⟩

/-! ### Two examples: probes that fail -/

/-- A context that probes for an attribute. -/
def probing (name : String) : Context :=
  ⟨0, { remoteProbe := { enabled := true, vertexAttributes := [name] } }, some .loopback, true, false⟩

/-- There is no such attribute: the probe fails, and the scan does not. -/
example :
    let quiet := Scan.firstCountScan.1.execute ⟨1, default, none, false, false⟩ [] Scan.firstCountScan.2
    let probed := Scan.firstCountScan.1.execute (probing "age") [] Scan.firstCountScan.2
    quiet.outcome = .ok ⟨.scanned, ⟨3, 2⟩⟩ ∧ probed.outcome = .ok ⟨.scanned, ⟨3, 2⟩⟩ ∧
      quiet.events = [.scanStart "people", .scanFinish "people" 3 2] ∧
      probed.events = [.scanStart "people", .remoteProbe false, .scanFinish "people" 3 2] := by
  refine ⟨rfl, rfl, rfl, ?_⟩
  decide

/-- A writer holds the vertex table: the probe fails, and the scan fails as it does without. -/
example :
    let held := Scan.firstCountScan.2.set 0 ⟨(Scan.firstCountScan.2.get 0).table, .writer⟩
    let quiet := Scan.firstCountScan.1.execute ⟨1, default, none, false, false⟩ [] held
    let probed := Scan.firstCountScan.1.execute (probing "id") [] held
    quiet.outcome = .error .tableHeldExclusively ∧
      probed.outcome = .error .tableHeldExclusively ∧
      probed.events = [.scanStart "people", .remoteProbe false, .scanFinish "people" 0 0] := by
  refine ⟨rfl, rfl, ?_⟩
  decide

end World

end GraphScan
