import GraphScan.Proofs.Metrics.Tally
import GraphScan.Proofs.World.Frame

/-!
# Stories and their events

Executions record events, recording scopes open and close around them, one in the other, and the
counters are set back to zero from time to time.  A story is any such course of things, and its log says
what was recorded in it.

* `Scan.Recorded` — **what one execution records**: nothing, one event, or a bracket.
* `World.Log` — what was recorded, as a tree of scopes.  `World.Log.counted` — what the counters count.
* `World.Story` — **a course of things**, from world to world, with its log.
* `World.Story.inside`, `World.Story.outside` — who has received what at the end of a story, within a
  scope and outside of any.
* `World.events_received` — **every event is received once**, and the counters add up.
-/

namespace GraphScan

/-! ## One execution -/

/-- **When a scan is preceded by a probe**: it has a graph, and the context is that of the coordinating
site, is told to probe and has a fetcher. -/
structure Context.Probes (context : Context) (graph : Option Graph) : Prop where
  graph_isSome : graph.isSome = true
  enabled : context.config.remoteProbe.enabled = true
  site_eq : context.site = context.config.remoteProbe.coordinatorSite
  fetcher_isSome : context.fetcher.isSome = true

namespace Scan

/-- **What an execution of a scan records.** -/
inductive Recorded (scan : Scan) (context : Context) (store : Store) : List Event → Prop where
  /-- Nothing: there is no graph to name the source, and a writer holds the source. -/
  | nothing (hgraph : scan.node.graph = none)
      (hheld : (store.get scan.source).hold = .writer) : Recorded scan context store []
  | empty {name : String} (hname : scan.sourceName store = .ok name)
      (hempty : scan.node.emptyScan = true) :
      Recorded scan context store [.shortCircuit name .emptyScan]
  /-- A start and a finish, with no more between them than a probe and a note that the output is the
  source. -/
  | bracketed {name : String} (hname : scan.sourceName store = .ok name)
      (hfull : scan.node.emptyScan = false) {probe note : List Event}
      (hprobe : context.Probes scan.node.graph ∧ (∃ succeeded, probe = [.remoteProbe succeeded]) ∨
        ¬ context.Probes scan.node.graph ∧ probe = [])
      (hnote : note = if scan.output.isAliased then [.shortCircuit name .passThrough] else [])
      (scanned emitted : Nat) :
      Recorded scan context store
        (.scanStart name :: probe ++ note ++ [.scanFinish name scanned emitted])

variable {node : ScanNode} {scan : Scan} {store : Store}

/-- A scan without a name for its source has no graph, and cannot read the source. -/
theorem held_of_sourceName_error {e : EngineError} (h : scan.sourceName store = .error e) :
    scan.node.graph = none ∧ (store.get scan.source).hold = .writer := by
  rw [sourceName] at h
  cases hgraph : scan.node.graph with
  | some graph => simp [hgraph] at h
  | none =>
      refine ⟨rfl, ?_⟩
      cases hhold : (store.get scan.source).hold with
      | writer => rfl
      | free | readers => simp [hgraph, SharedTable.read, hhold, Except.map] at h

/-- There is an event of a probe exactly if there is a probe. -/
theorem probeEvents_cases (context : Context) (graph : Option Graph) (store : Store) :
    context.Probes graph ∧
        (∃ succeeded, probeEvents (context.probe graph store) = [.remoteProbe succeeded]) ∨
      ¬ context.Probes graph ∧ probeEvents (context.probe graph store) = [] := by
  cases graph with
  | none => exact .inr ⟨fun h => absurd h.graph_isSome (by simp), rfl⟩
  | some graph =>
      simp only [Context.probe, Context.prober]
      split_ifs with hasked
      · rw [Bool.and_eq_true, beq_iff_eq] at hasked
        cases hfetcher : context.fetcher with
        | none => exact .inr ⟨fun h => absurd h.fetcher_isSome (by simp [hfetcher]), rfl⟩
        | some fetcher => exact .inl ⟨⟨rfl, hasked.1, hasked.2, by simp [hfetcher]⟩, _, rfl⟩
      · refine .inr ⟨fun h => hasked ?_, rfl⟩
        rw [Bool.and_eq_true, beq_iff_eq]
        exact ⟨h.enabled, h.site_eq⟩

/-- **What every execution records**, whether it fails or not. -/
theorem InUse.recorded (h : InUse node scan store) (context : Context) (params : List Value) :
    Recorded scan context store (scan.execute context params store).events := by
  have hprobe := probeEvents_cases context scan.node.graph store
  have haliased : scan.output.isAliased = scan.node.isPassThrough := by
    rw [Bool.eq_iff_iff, h.isAliased_iff, h.node_eq]
  have hcourse := scan.execute_course context params store
  generalize scan.execute context params store = execution at hcourse
  cases hcourse with
  | unnamed hname =>
      obtain ⟨hgraph, hheld⟩ := held_of_sourceName_error hname
      exact .nothing hgraph hheld
  | empty hname hempty => exact .empty hname hempty
  | @handed name hname hfull hstages =>
      have hnote : [.shortCircuit name .passThrough] =
          if scan.output.isAliased then [Event.shortCircuit name .passThrough] else [] := by
        rw [haliased, hstages, if_pos rfl]
      simpa using Recorded.bracketed hname hfull hprobe hnote 0 0
  | @ran name result hname hfull hstages hrun =>
      have hnote : [] =
          if scan.output.isAliased then [Event.shortCircuit name .passThrough] else [] := by
        rw [haliased, hstages, if_neg Bool.false_ne_true]
      simpa using Recorded.bracketed hname hfull hprobe hnote result.noted.scanned
        result.noted.emitted

end Scan

/-! ## Routing -/

namespace Metrics

/-- Outside of any scope events go to the counters. -/
theorem recordAll_outside (counters : Counters) (events : List Event) :
    (⟨counters, []⟩ : Metrics).recordAll events = ⟨events.foldl Counters.record counters, []⟩ := by
  induction events generalizing counters with
  | nil => rfl
  | cons event events ih => exact ih (counters.record event)

/-- Within a scope they go to the innermost one. -/
theorem recordAll_inside (counters : Counters) (scope : Array Event) (outer : List (Array Event))
    (events : List Event) :
    (⟨counters, scope :: outer⟩ : Metrics).recordAll events =
      ⟨counters, (scope ++ events.toArray) :: outer⟩ := by
  induction events generalizing scope with
  | nil => simp [recordAll]
  | cons event events ih =>
      refine (ih (scope.push event)).trans ?_
      rw [List.toArray_cons, ← Array.append_assoc, ← Array.push_eq_append]

end Metrics

namespace World

/-! ## Logs -/

/-- **What was recorded**: the events of each execution with their circumstances, and what each scope
has received, with the log of what was done while it was open. -/
inductive Log where
  | done
  | execution (scan : Scan) (context : Context) (store : Store) (events : List Event) (rest : Log)
  | scope (received : Array Event) (body rest : Log)
  | reset (rest : Log)

namespace Log

/-- All events. -/
def events : Log → List Event
  | done => []
  | execution _ _ _ events rest => events ++ rest.events
  | scope _ body rest => body.events ++ rest.events
  | reset rest => rest.events

/-- **The events outside of the scopes of the log.** -/
def direct : Log → List Event
  | done => []
  | execution _ _ _ events rest => events ++ rest.direct
  | scope _ _ rest => rest.direct
  | reset rest => rest.direct

/-- What the scopes of the log have received, one after the other. -/
def received : Log → List Event
  | done => []
  | execution _ _ _ _ rest => rest.received
  | scope received body rest => received.toList ++ body.received ++ rest.received
  | reset rest => rest.received

/-- Whether the counters have been set back to zero. -/
def resets : Log → Bool
  | done => false
  | execution _ _ _ _ rest => rest.resets
  | scope _ body rest => body.resets || rest.resets
  | reset _ => true

/-- **The events that the counters count at the end**: those outside of any scope since the last reset,
where `past` are those before the log. -/
def counted (past : List Event) : Log → List Event
  | done => past
  | execution _ _ _ events rest => rest.counted (past ++ events)
  | scope _ body rest => rest.counted (if body.resets then [] else past)
  | reset rest => rest.counted []

/-- **A log as it should be**: executions record what they may, and each scope has received the events
of the executions directly within it, in their order. -/
def Lawful : Log → Prop
  | done => True
  | execution scan context store events rest => scan.Recorded context store events ∧ rest.Lawful
  | scope received body rest => received.toList = body.direct ∧ body.Lawful ∧ rest.Lawful
  | reset rest => rest.Lawful

/-- Without a reset all events outside of the scopes are counted. -/
theorem counted_of_not_resets {log : Log} (h : log.resets = false) (past : List Event) :
    log.counted past = past ++ log.direct := by
  induction log generalizing past with
  | done => exact (List.append_nil past).symm
  | execution scan context store events rest ih =>
      rw [counted, ih h, direct, List.append_assoc]
  | scope received body rest _ ih =>
      rw [resets, Bool.or_eq_false_iff] at h
      rw [counted, h.1, if_neg Bool.false_ne_true, ih h.2, direct]
  | reset rest ih => cases h

/-- **No event is lost, and none is received twice**: all events are those outside of the scopes and
those that the scopes have received. -/
theorem Lawful.perm {log : Log} (h : log.Lawful) : (log.direct ++ log.received).Perm log.events := by
  induction log with
  | done => exact .nil
  | execution scan context store events rest ih =>
      rw [direct, received, Log.events, List.append_assoc]
      exact (ih h.2).append_left events
  | scope received body rest ihBody ihRest =>
      obtain ⟨hreceived, hbody, hrest⟩ := h
      rw [direct, Log.received, Log.events, hreceived]
      exact (List.perm_append_comm_assoc ..).trans ((ihBody hbody).append (ihRest hrest))
  | reset rest ih => exact ih h

end Log

/-! ## Stories -/

/-- A step that has nothing to do with the metrics: something is made, or tables are used. -/
inductive Quiet : World → World → Prop where
  | table (world : World) (table : Table) : Quiet world (world.addTable table)
  | graph (world : World) (name : String) (vertexSchema edgeSchema : Schema)
      (rows : List GraphRow) : Quiet world (world.addGraph name vertexSchema edgeSchema rows).2.2
  | scan (world : World) (plan : PlanNode) (hbinds : world.Binds plan) :
      Quiet world (world.addScan plan).2
  | use (world : World) (store : Store) (hlater : world.store.Later store) :
      Quiet world { world with store }

/-- **A course of things** from one world to another, with its log. -/
inductive Story : World → Log → World → Prop where
  | done (world : World) : Story world .done world
  | execution {world later : World} {index : Nat} {scan : Scan} {rest : Log}
      (hscan : world.scan? index = some scan) (context : Context) (params : List Value)
      (hrest : Story (world.execute index scan context params).2 rest later) :
      Story world (.execution scan context world.store
        (world.execute index scan context params).1.events rest) later
  /-- A scope is closed by whoever has opened it. -/
  | scope {world inner later : World} {body rest : Log}
      (hbody : Story (world.withMetrics Metrics.enter) body inner)
      (hrest : Story (inner.withMetrics fun metrics => metrics.leave.2) rest later) :
      Story world (.scope inner.metrics.leave.1 body rest) later
  | reset {world later : World} {rest : Log}
      (hrest : Story (world.withMetrics Metrics.reset) rest later) : Story world (.reset rest) later
  | quiet {world next later : World} {log : Log} (hquiet : Quiet world next)
      (hrest : Story next log later) : Story world log later

variable {world next later : World} {log : Log}

theorem Quiet.step (h : Quiet world next) : Step world next := by
  cases h with
  | table table => exact .table world table
  | graph name vertexSchema edgeSchema rows => exact .graph world name vertexSchema edgeSchema rows
  | scan plan hbinds => exact .scan world plan hbinds
  | use store hlater => exact .use world store hlater

theorem Quiet.metrics_eq (h : Quiet world next) : next.metrics = world.metrics := by
  cases h with
  | table table => rfl
  | graph name vertexSchema edgeSchema rows => rfl
  | use store hlater => rfl
  | scan plan hbinds =>
      rw [World.addScan]
      cases Scan.init plan world.store with
      | error e => rfl
      | ok made => rfl

/-- A story is made of steps. -/
theorem Story.leads (h : Story world log later) : Leads world later := by
  induction h with
  | done world => exact .refl
  | execution hscan context params _ ih => exact .head (.execute _ hscan context params) ih
  | scope _ _ ihBody ihRest => exact .head (.metrics _ _) (ihBody.trans (.head (.metrics _ _) ihRest))
  | reset _ ih => exact .head (.metrics _ _) ih
  | quiet hquiet _ ih => exact .head hquiet.step ih

/-- **A story within a scope**: the scope receives the events outside of the scopes of the story, and the
counters at most become zero.  In the induction the scopes of the story are scopes within one. -/
theorem Story.inside (h : Story world log later) {counters : Counters} {scope : Array Event}
    {outer : List (Array Event)} (hmetrics : world.metrics = ⟨counters, scope :: outer⟩) :
    later.metrics = ⟨if log.resets then {} else counters,
      (scope ++ log.direct.toArray) :: outer⟩ := by
  induction h generalizing counters scope outer with
  | done world => simp [hmetrics, Log.resets, Log.direct]
  | @execution world later index scan rest hscan context params _ ih =>
      have hnext := Metrics.recordAll_inside counters scope outer
        (world.execute index scan context params).1.events
      rw [← hmetrics] at hnext
      rw [ih hnext, Log.direct, Log.resets, ← List.append_toArray, Array.append_assoc]
  | @scope world inner later body rest hbody hrest ihBody ihRest =>
      have hentered : (world.withMetrics Metrics.enter).metrics =
          ⟨counters, #[] :: scope :: outer⟩ := by
        rw [withMetrics, hmetrics]
        rfl
      have hleft : (inner.withMetrics fun metrics => metrics.leave.2).metrics =
          ⟨if body.resets then {} else counters, scope :: outer⟩ := by
        rw [withMetrics, ihBody hentered]
        rfl
      rw [ihRest hleft, Log.direct, Log.resets]
      cases body.resets <;> simp
  | @reset world later rest _ ih =>
      have hzero : (world.withMetrics Metrics.reset).metrics = ⟨{}, scope :: outer⟩ := by
        rw [withMetrics, hmetrics]
        rfl
      rw [ih hzero, Log.direct, Log.resets, ite_self, if_pos rfl]
  | quiet hquiet _ ih => exact ih (hquiet.metrics_eq.trans hmetrics)

/-- A scope receives the events directly within it, and leaving it brings back the receivers from
before. -/
theorem Story.leave_eq {inner : World} {body : Log}
    (h : Story (world.withMetrics Metrics.enter) body inner) :
    inner.metrics.leave = (body.direct.toArray,
      ⟨if body.resets then {} else world.metrics.counters, world.metrics.scopes⟩) := by
  rw [h.inside rfl, Array.empty_append]
  rfl

/-- **A story outside of any scope**: the counters count what is to be counted. -/
theorem Story.outside (h : Story world log later) {past : List Event}
    (hmetrics : world.metrics = ⟨.of past, []⟩) : later.metrics = ⟨.of (log.counted past), []⟩ := by
  induction h generalizing past with
  | done world => exact hmetrics
  | @execution world later index scan rest hscan context params _ ih =>
      refine ih ?_
      have hnext := Metrics.recordAll_outside (.of past)
        (world.execute index scan context params).1.events
      rw [← hmetrics] at hnext
      refine hnext.trans ?_
      rw [Counters.of, Counters.of, List.foldl_append]
  | @scope world inner later body rest hbody hrest ihBody ihRest =>
      refine ihRest ?_
      rw [withMetrics, hbody.leave_eq, hmetrics]
      cases body.resets <;> rfl
  | @reset world later rest _ ih =>
      refine ih ?_
      rw [withMetrics, hmetrics]
      rfl
  | quiet hquiet _ ih => exact ih (hquiet.metrics_eq.trans hmetrics)

/-- **The log of a story is as it should be.**  The induction carries that the world can come about. -/
theorem Story.lawful (h : Story world log later) (hworld : Reachable world) : log.Lawful := by
  induction h with
  | done world => trivial
  | @execution world later index scan rest hscan context params _ ih =>
      exact ⟨(hworld.sound.inUse index scan hscan).recorded context params,
        ih (hworld.tail (.execute world hscan context params))⟩
  | @scope world inner later body rest hbody hrest ihBody ihRest =>
      have hentered : Reachable (world.withMetrics Metrics.enter) := hworld.tail (.metrics world _)
      refine ⟨?_, ihBody hentered, ihRest ((hentered.trans hbody.leads).tail (.metrics inner _))⟩
      rw [hbody.leave_eq]
  | reset _ ih => exact ih (hworld.tail (.metrics _ _))
  | quiet hquiet _ ih => exact ih (hworld.tail hquiet.step)

/-! ## The theorem -/

/-- **Every event is received once, and the counters add up.**  In any story from a world that can come
about,

* each execution records what it may, and each scope receives the events directly within it;
* all events are those outside of the scopes of the story and those that its scopes have received;
* a scope that is open around the story receives the former, and the counters none;
* a scope that is opened hands back its place, whatever happens before it is closed;
* outside of any scope the counters count exactly the events outside of any scope since the last reset,
  and, as long as the totals of these can be shown, agree with them and with each other. -/
theorem events_received (hworld : Reachable world) (hstory : Story world log later) :
    log.Lawful ∧ (log.direct ++ log.received).Perm log.events ∧
    (∀ scope outer, world.metrics.scopes = scope :: outer →
      later.metrics.scopes = (scope ++ log.direct.toArray) :: outer ∧
        later.metrics.counters = if log.resets then {} else world.metrics.counters) ∧
    (∀ body inner, Story (world.withMetrics Metrics.enter) body inner →
      inner.metrics.leave.1 = body.direct.toArray ∧
        inner.metrics.leave.2.scopes = world.metrics.scopes) ∧
    ∀ past, world.metrics = ⟨.of past, []⟩ →
      later.metrics = ⟨.of (log.counted past), []⟩ ∧
      (log.resets = false → log.counted past = past ++ log.direct) ∧
      ((Totals.exact (log.counted past)).Fits →
        later.metrics.counters.Tally (log.counted past)) := by
  have hlawful := hstory.lawful hworld
  refine ⟨hlawful, hlawful.perm, ?_, ?_, ?_⟩
  · intro scope outer hscopes
    have hmetrics : world.metrics = ⟨world.metrics.counters, scope :: outer⟩ := by rw [← hscopes]
    rw [hstory.inside hmetrics]
    exact ⟨rfl, rfl⟩
  · intro body inner hbody
    rw [hbody.leave_eq]
    exact ⟨rfl, rfl⟩
  · intro past hmetrics
    have hlater := hstory.outside hmetrics
    refine ⟨hlater, fun hresets => log.counted_of_not_resets hresets past, fun hfits => ?_⟩
    rw [hlater]
    exact Counters.tally_of hfits

/-- A scan of the edges; within a scope a scan without stages, preceded by a probe, and a reset; and a
scan of the vertices.  The scope has the events of the second one, and only the third one counts. -/
theorem events_received_readersWorld :
    ∃ log later, Reachable readersWorld ∧ Story readersWorld log later ∧ log.Lawful ∧
      log.received = [.scanStart "people", .remoteProbe true, .shortCircuit "people" .passThrough,
        .scanFinish "people" 0 0] ∧
      log.counted [] = [.scanStart "people", .scanFinish "people" 3 2] ∧
      later.metrics.counters.Tally (log.counted []) ∧
      later.metrics =
        ⟨⟨{ scanCalls := 1, scanned := 3, emitted := 2 }, [("people", ⟨1, 3, 2⟩)]⟩, []⟩ := by
  let quiet : Context := ⟨0, default, none, false, false⟩
  let probing : Context := ⟨0, { remoteProbe := { enabled := true } }, some .loopback, true, false⟩
  let drained := (readersWorld.execute 3 fourthReader quiet []).2
  let entered := drained.withMetrics Metrics.enter
  let inner := (entered.execute 1 secondReader probing []).2.withMetrics Metrics.reset
  let left := inner.withMetrics fun metrics => metrics.leave.2
  have hfourth : readersWorld.scan? 3 = some fourthReader := by cbv
  have hsecond : entered.scan? 1 = some secondReader := by
    simp only [entered, drained, quiet]
    cbv
  have hthird : left.scan? 2 = some thirdReader := by
    simp only [left, inner, entered, drained, quiet, probing]
    cbv
  have hstory : Story readersWorld _ (left.execute 2 thirdReader quiet []).2 :=
    .execution hfourth quiet []
      (.scope (.execution hsecond probing [] (.reset (.done inner)))
        (.execution hthird quiet [] (.done _)))
  obtain ⟨hlawful, -, -, -, hcounters⟩ := events_received reachable_readersWorld hstory
  have hmetrics : readersWorld.metrics = ⟨.of [], []⟩ := by cbv
  obtain ⟨hlater, -, htally⟩ := hcounters [] hmetrics
  have hprobed : (entered.execute 1 secondReader probing []).1.events =
      [.scanStart "people", .remoteProbe true, .shortCircuit "people" .passThrough,
        .scanFinish "people" 0 0] := by
    simp only [entered, drained, quiet, probing]
    cbv
  have hlast : (left.execute 2 thirdReader quiet []).1.events =
      [.scanStart "people", .scanFinish "people" 3 2] := by
    simp only [left, inner, entered, drained, quiet, probing]
    cbv
  have hreceived : inner.metrics.leave.1.toList =
      (entered.execute 1 secondReader probing []).1.events := by
    obtain ⟨-, hscope, -, -⟩ := hlawful
    simpa [Log.direct] using hscope
  simp only [Log.counted, Log.resets, List.nil_append, if_true, hlast] at hlater htally
  refine ⟨_, _, reachable_readersWorld, hstory, hlawful, ?_, ?_, ?_, ?_⟩
  · simp only [Log.received, List.append_nil, hreceived, hprobed]
  · simp only [Log.counted, Log.resets, List.nil_append, if_true, hlast]
  · simp only [Log.counted, Log.resets, List.nil_append, if_true, hlast]
    exact htally (by constructor <;> decide)
  · rw [hlater]
    rfl

end World

end GraphScan
