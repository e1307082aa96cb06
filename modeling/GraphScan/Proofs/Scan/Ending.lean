import GraphScan.Proofs.Scan.Fusion
import GraphScan.Proofs.Scan.Progress

/-!
# How a run ends

A run ends in one of four ways: it cannot be prepared, a row fails, the end of the aggregation fails,
or it succeeds.

* `Scan.Prepared` — what is settled before the first row is taken.
* `Scan.Ending` — **the four ends of a run**, each with what it leaves behind.
* `Scan.run_ends` — there is no other.
* `Scan.Ending.keeps` — whatever the end, a run only takes rows from the front of its source and
  appends rows to its output, and its aggregation stays the one that was started.
* `Scan.Course`, `Scan.execute_course` — the courses that an execution can take; one of them is a run.
* `Scan.Effect`, `Scan.InUse.effect` — so this is **all that an execution does to the tables**.
* `Scan.InUse.execute` — a scan in use is still in use after an execution.
-/

namespace GraphScan

/-! ## What a run may change -/

namespace Run

/-- A delivery only appends to the table, and the machine stays the same but for its run. -/
theorem deliver_keeps (run : Run) (image : Row) :
    (∃ gained, (run.deliver image).2.outlet.shared = run.outlet.shared.appendAll gained) ∧
      (run.deliver image).2.machine.map Machine.blank = run.machine.map Machine.blank := by
  rw [deliver]
  cases hmachine : run.machine with
  | none =>
      dsimp only
      rcases run.outlet.shared.insert_cases image with ⟨e, hinsert⟩ | ⟨-, -, hinsert⟩
      · exact ⟨⟨[], by rw [hinsert]; rfl⟩, rfl⟩
      · exact ⟨⟨[image], by rw [hinsert]⟩, rfl⟩
  | some machine =>
      obtain ⟨outcome, state, gained, heq⟩ := machine.feed_writes image run.outlet.shared
      have hfeed : machine.feed image run.outlet = _ := heq run.outlet.meter
      have hblank := machine.blank_feed image run.outlet
      rw [hfeed] at hblank
      simp only [hfeed]
      exact ⟨⟨gained, rfl⟩, congrArg some hblank⟩

/-- So do all deliveries. -/
theorem feedAll_deliver_keeps (run : Run) (images : List Row) :
    (∃ gained, (feedAll Run.deliver run images).state.outlet.shared =
        run.outlet.shared.appendAll gained) ∧
      (feedAll Run.deliver run images).state.machine.map Machine.blank =
        run.machine.map Machine.blank := by
  induction images generalizing run with
  | nil => exact ⟨⟨[], rfl⟩, rfl⟩
  | cons image images ih =>
      obtain ⟨⟨gained, hshared⟩, hblank⟩ := run.deliver_keeps image
      rcases hdeliver : run.deliver image with ⟨_ | _ | _, next⟩ <;> rw [hdeliver] at hshared hblank
      · rw [feedAll_cons_of_error hdeliver]
        exact ⟨⟨gained, hshared⟩, hblank⟩
      · obtain ⟨⟨more, hmore⟩, hnext⟩ := ih next
        rw [feedAll_cons_of_more hdeliver]
        refine ⟨⟨gained ++ more, ?_⟩, hnext.trans hblank⟩
        rw [hmore, hshared, SharedTable.appendAll_appendAll]
      · rw [feedAll_cons_of_enough hdeliver]
        exact ⟨⟨gained, hshared⟩, hblank⟩

theorem finish_keeps (run : Run) :
    (∃ gained, run.finish.2.outlet.shared = run.outlet.shared.appendAll gained) ∧
      run.finish.2.machine.map Machine.blank = run.machine.map Machine.blank := by
  rw [finish]
  cases hmachine : run.machine with
  | none => exact ⟨⟨[], rfl⟩, by simp [hmachine]⟩
  | some machine =>
      obtain ⟨outcome, state, gained, heq⟩ := machine.finish_writes run.outlet.shared
      have hfinish : machine.finish run.outlet = _ := heq run.outlet.meter
      have hblank := machine.blank_finish run.outlet
      rw [hfinish] at hblank
      simp only [hfinish]
      exact ⟨⟨gained, rfl⟩, congrArg some hblank⟩

/-- The end of the aggregation takes no row and lets none pass. -/
theorem counts_finish (run : Run) :
    run.finish.2.noted = run.noted ∧ run.finish.2.scanned = run.scanned ∧
      run.finish.2.gate = run.gate := by
  rw [finish]
  cases run.machine with
  | none => exact ⟨rfl, rfl, rfl⟩
  | some machine => exact ⟨rfl, rfl, rfl⟩

end Run

namespace Scan

variable {node : ScanNode} {scan : Scan} {store : Store} {params : List Value}
  {source : SharedTable} {outlet : Outlet} {window : Window} {route : Route} {table : Table}
  {machine : Option Machine} {e : EngineError}

/-! ## Preparation -/

/-- **What is settled before the first row is taken**: the window, that nobody holds the source, the
images of all rows, and the aggregation, which has just been started. -/
structure Prepared (scan : Scan) (params : List Value) (source : SharedTable) (window : Window)
    (route : Route) (machine : Option Machine) : Prop where
  window_eq : WindowSpec.resolveOptional scan.node.window params = .ok window
  source_free : source.hold = .free
  image_eq : ∀ row, route.image row = scan.node.image row
  machine_eq : machine = scan.machine.map fun idle =>
    (idle.init params (scan.node.inputSchema source.table.schema).width).2
  started : ∀ idle ∈ scan.machine, ∃ scratch,
    (idle.init params (scan.node.inputSchema source.table.schema).width).1 = .ok scratch

/-- Starting the aggregation changes nothing but its run. -/
theorem blank_start (scan : Scan) (params : List Value) (source output : SharedTable) :
    (scan.start params source output).2.map Machine.blank = scan.machine.map Machine.blank := by
  rw [start]
  cases scan.machine with
  | none => rfl
  | some idle =>
      dsimp only
      split
      · rfl
      · simp

/-- So does the whole preparation. -/
theorem blank_prepare (scan : Scan) (params : List Value) (source : SharedTable) (outlet : Outlet) :
    (scan.prepare params source outlet).2.map Machine.blank = scan.machine.map Machine.blank := by
  have hstart := scan.blank_start params source outlet.shared
  simp only [prepare]
  split
  · rfl
  · rcases hs : scan.start params source outlet.shared with ⟨_ | _, started⟩ <;>
      rw [hs] at hstart <;> exact hstart

/-- A route gives every row its image. -/
theorem image_of_route {scratch : Row} (hcheck : scan.node.checkProjection = .ok ())
    (h : scan.route scratch = .ok route) (row : Row) : route.image row = scan.node.image row := by
  have hwidth : ∀ projection ∈ scan.node.projection, scratch.length = projection.width := by
    intro projection hprojection
    rw [Option.mem_def] at hprojection
    by_contra hne
    simp [Scan.route, hprojection, hne] at h
  obtain ⟨same, hsame, himage⟩ := exists_route scratch hcheck hwidth
  rw [h] at hsame
  rw [Except.ok.inj hsame]
  exact himage row

theorem hold_of_write {shared : SharedTable} (h : shared.write = .ok table) :
    shared.hold = .free ∧ table = shared.table := by
  rw [SharedTable.write] at h
  cases hhold : shared.hold with
  | free => exact ⟨rfl, by simpa [hhold, eq_comm] using h⟩
  | readers => simp [hhold] at h
  | writer => simp [hhold] at h

/-- **A preparation that succeeds has settled everything.** -/
theorem prepared_of_prepare (hcheck : scan.node.checkProjection = .ok ())
    (h : scan.prepare params source outlet = (.ok (window, route, table), machine)) :
    table = source.table ∧ Prepared scan params source window route machine := by
  simp only [prepare, bind, Except.bind] at h
  cases hwindow : WindowSpec.resolveOptional scan.node.window params with
  | error e => simp [hwindow] at h
  | ok found =>
    cases hwritable : scan.output.writable with
    | error e => simp [hwindow, hwritable] at h
    | ok id =>
      rcases hstart : scan.start params source outlet.shared with ⟨_ | scratch, started⟩
      · simp [hwindow, hwritable, hstart] at h
      simp only [hwindow, hwritable, hstart] at h
      cases hroute : scan.route scratch with
      | error e => simp [hroute] at h
      | ok way =>
        cases hwrite : source.write with
        | error e => simp [hroute, hwrite] at h
        | ok rows =>
          obtain ⟨hfree, rfl⟩ := hold_of_write hwrite
          simp only [hroute, hwrite, Prod.mk.injEq, Except.ok.injEq] at h
          obtain ⟨⟨rfl, rfl, rfl⟩, rfl⟩ := h
          refine ⟨rfl, hwindow, hfree, image_of_route hcheck hroute, ?_, ?_⟩
          · cases hmachine : scan.machine with
            | none =>
                simp only [start, hmachine, Prod.mk.injEq] at hstart
                rw [← hstart.2, Option.map_none]
            | some idle =>
                rw [start_of_machine params outlet.shared hmachine hfree] at hstart
                exact (congrArg Prod.snd hstart).symm
          · intro idle hidle
            rw [start_of_machine params outlet.shared hidle hfree] at hstart
            exact ⟨scratch, congrArg Prod.fst hstart⟩

/-- Without an aggregation the output has been looked at, for the scratch row. -/
theorem readable_of_prepare {settled : Window × Route × Table} (hnone : scan.machine = none)
    (h : scan.prepare params source outlet = (.ok settled, machine)) :
    outlet.shared.hold ≠ .writer := by
  intro hwriter
  have hread : outlet.shared.read = .error .tableHeldExclusively := by
    rw [SharedTable.read, hwriter]
  simp only [prepare, start, hnone, hread, Except.map] at h
  split at h <;> simp at h

/-! ## The four ends -/

/-- **How a run ends**, and what it leaves behind. -/
inductive Ending (scan : Scan) (params : List Value) (source : SharedTable) (outlet : Outlet) :
    RunResult → Prop where
  /-- It cannot be prepared. -/
  | unprepared {machine : Option Machine} {e : EngineError}
      (hprepare : scan.prepare params source outlet = (.error e, machine)) :
      Ending scan params source outlet ⟨.error e, ⟨0, 0⟩, machine, source, outlet⟩
  /-- A row fails. -/
  | failed {window : Window} {route : Route} {machine : Option Machine} {seen rest images : List Row}
      {row : Row} {e : EngineError} {final : Run}
      (hprepare : scan.prepare params source outlet = (.ok (window, route, source.table), machine))
      (hrows : source.table.rows.toList = seen ++ row :: rest)
      (hloop : (scan.begin window machine outlet).loop route source.table.rows.toList =
        (.error e, rest, final))
      (hfailed : Run.Failed (scan.begin window machine outlet) route seen images row e final) :
      Ending scan params source outlet ⟨.error e, final.noted, final.machine,
        { source with table := source.table.withRows rest }, final.outlet⟩
  /-- The rows have been taken, but the end of the aggregation fails. -/
  | unfinished {window : Window} {route : Route} {machine : Option Machine}
      {seen rest images : List Row} {e : EngineError} {now final : Run}
      (hprepare : scan.prepare params source outlet = (.ok (window, route, source.table), machine))
      (hrows : source.table.rows.toList = seen ++ rest)
      (hloop : (scan.begin window machine outlet).loop route source.table.rows.toList =
        (.ok (), rest, now))
      (hreached : Run.Reached (scan.begin window machine outlet) route seen images now)
      (hend : rest = [] ∨ now.gate.isOpen = false)
      (hfinish : now.finish = (.error e, final)) :
      Ending scan params source outlet ⟨.error e, final.noted, final.machine,
        { source with table := source.table.withRows rest }, final.outlet⟩
  /-- It succeeds. -/
  | finished {window : Window} {route : Route} {machine : Option Machine}
      {seen rest images : List Row} {now final : Run}
      (hprepare : scan.prepare params source outlet = (.ok (window, route, source.table), machine))
      (hrows : source.table.rows.toList = seen ++ rest)
      (hloop : (scan.begin window machine outlet).loop route source.table.rows.toList =
        (.ok (), rest, now))
      (hreached : Run.Reached (scan.begin window machine outlet) route seen images now)
      (hend : rest = [] ∨ now.gate.isOpen = false)
      (hfinish : now.finish = (.ok (), final)) :
      Ending scan params source outlet ⟨.ok ⟨final.scanned, final.gate.passed⟩,
        ⟨final.scanned, final.gate.passed⟩, final.machine,
        { source with table := source.table.withRows rest }, final.outlet⟩

/-- **Every run ends in one of these ways.** -/
theorem run_ends (hcheck : scan.node.checkProjection = .ok ()) (params : List Value)
    (source : SharedTable) (outlet : Outlet) :
    Ending scan params source outlet (scan.run params source outlet) := by
  rcases hprepare : scan.prepare params source outlet with ⟨e | ⟨window, route, table⟩, machine⟩
  · have hrun : scan.run params source outlet = ⟨.error e, ⟨0, 0⟩, machine, source, outlet⟩ := by
      simp only [run, hprepare]
    rw [hrun]
    exact .unprepared hprepare
  · obtain ⟨rfl, -⟩ := prepared_of_prepare hcheck hprepare
    have hrun : scan.run params source outlet =
        drain source source.table route (scan.begin window machine outlet) := by
      simp only [run, hprepare]
      rfl
    have hreached : Run.Reached (scan.begin window machine outlet) route [] [] _ :=
      .refl route rfl rfl
    rw [hrun]
    rcases hreached.loop source.table.rows.toList with
      ⟨taken, rest, images, now, hrows, hloop, hnow, hend⟩ |
      ⟨taken, row, rest, images, e, final, hrows, hloop, hfailed⟩
    · rw [List.nil_append] at hnow
      rcases hfinish : now.finish with ⟨e | _, final⟩
      · simp only [drain, hloop, hfinish]
        exact .unfinished hprepare hrows hloop hnow hend hfinish
      · simp only [drain, hloop, hfinish]
        exact .finished hprepare hrows hloop hnow hend hfinish
    · rw [List.nil_append] at hfailed
      rw [drain_of_error hloop]
      exact .failed hprepare hrows hloop hfailed

/-! ## What every run keeps -/

namespace Ending

variable {result : RunResult}

/-- What has been delivered at some point of a run has been appended. -/
theorem keeps_deliveries {now : Run} {images : List Row}
    (hprepare : scan.prepare params source outlet = (.ok (window, route, table), machine))
    (hsink : now.sink = (feedAll Run.deliver (scan.begin window machine outlet) images).state.sink) :
    (∃ gained, now.outlet.shared = outlet.shared.appendAll gained) ∧
      now.machine.map Machine.blank = scan.machine.map Machine.blank := by
  obtain ⟨⟨gained, hshared⟩, hblank⟩ :=
    Run.feedAll_deliver_keeps (scan.begin window machine outlet) images
  have hstart := scan.blank_prepare params source outlet
  rw [hprepare] at hstart
  have hmachine : now.machine = _ := congrArg Prod.fst hsink
  have houtlet : now.outlet.shared = _ := congrArg Prod.snd hsink
  refine ⟨⟨gained, houtlet.trans hshared⟩, ?_⟩
  rw [hmachine]
  exact hblank.trans hstart

/-- **Whatever the end**, rows have been appended to the output, the source has lost rows from its
front or none, and the aggregation is the one that was started. -/
theorem keeps (h : Ending scan params source outlet result) :
    (∃ gained, result.outlet.shared = outlet.shared.appendAll gained) ∧
      (∃ taken, result.source =
        { source with table := source.table.withRows (source.table.rows.toList.drop taken) }) ∧
      result.machine.map Machine.blank = scan.machine.map Machine.blank := by
  cases h with
  | unprepared hprepare =>
      have hstart := scan.blank_prepare params source outlet
      rw [hprepare] at hstart
      exact ⟨⟨[], rfl⟩, ⟨0, rfl⟩, hstart⟩
  | @failed _ _ _ seen _ _ _ _ _ hprepare hrows hloop hfailed =>
      obtain ⟨hgained, hblank⟩ := keeps_deliveries hprepare hfailed.deliveries_eq.1
      refine ⟨hgained, ⟨seen.length + 1, ?_⟩, hblank⟩
      simp [hrows, List.drop_append, List.drop_eq_nil_of_le]
  | @unfinished _ _ _ seen _ _ _ _ _ hprepare hrows hloop hreached hend hfinish =>
      obtain ⟨⟨gained, hgained⟩, hblank⟩ := keeps_deliveries hprepare hreached.sink_eq
      obtain ⟨⟨more, hmore⟩, hkept⟩ := Run.finish_keeps _
      rw [hfinish] at hmore hkept
      refine ⟨⟨gained ++ more, ?_⟩, ⟨seen.length, ?_⟩, hkept.trans hblank⟩
      · rw [hmore, hgained, SharedTable.appendAll_appendAll]
      · simp [hrows]
  | @finished _ _ _ seen _ _ _ _ hprepare hrows hloop hreached hend hfinish =>
      obtain ⟨⟨gained, hgained⟩, hblank⟩ := keeps_deliveries hprepare hreached.sink_eq
      obtain ⟨⟨more, hmore⟩, hkept⟩ := Run.finish_keeps _
      rw [hfinish] at hmore hkept
      refine ⟨⟨gained ++ more, ?_⟩, ⟨seen.length, ?_⟩, hkept.trans hblank⟩
      · rw [hmore, hgained, SharedTable.appendAll_appendAll]
      · simp [hrows]

end Ending

/-! ## Executions -/

/-- **An execution of a scan with stages** whose source has a name is bracketed by its two events, and
is a run between them. -/
theorem execute_of_stages {name : String} (context : Context) (params : List Value)
    (hname : scan.sourceName store = .ok name) (hfull : scan.node.emptyScan = false)
    (hstages : scan.node.isPassThrough = false) :
    let result := scan.run params (store.get scan.source) (scan.outlet context store)
    let execution := scan.execute context params store
    execution.outcome =
        ((result.logged context.traced).outcome.map fun counts => ⟨.scanned, counts⟩) ∧
      execution.scan = { scan with machine := result.machine } ∧
      execution.store = scan.writeBack store result ∧
      execution.events = .scanStart name :: probeEvents (context.probe scan.node.graph store) ++
        [.scanFinish name result.noted.scanned result.noted.emitted] := by
  simp only [execute, hname, hfull, hstages, Bool.false_eq_true, if_false]
  exact ⟨rfl, rfl, rfl, rfl⟩

/-- Such an execution fails with its run, or behind it with the look at the output. -/
theorem error_of_execute {name : String} {context : Context}
    (hname : scan.sourceName store = .ok name) (hfull : scan.node.emptyScan = false)
    (hstages : scan.node.isPassThrough = false)
    (herror : (scan.execute context params store).outcome = .error e) :
    ((scan.run params (store.get scan.source) (scan.outlet context store)).logged
      context.traced).outcome = .error e := by
  rw [(execute_of_stages context params hname hfull hstages).1] at herror
  generalize RunResult.outcome _ = outcome at herror ⊢
  cases outcome with
  | error e' => simpa [Except.map] using herror
  | ok counts => simp [Except.map] at herror

/-- It succeeds only with its run, and reports what that has counted. -/
theorem ok_of_execute {name : String} {context : Context} {report : ScanReport}
    (hname : scan.sourceName store = .ok name) (hfull : scan.node.emptyScan = false)
    (hstages : scan.node.isPassThrough = false)
    (hok : (scan.execute context params store).outcome = .ok report) :
    (scan.run params (store.get scan.source) (scan.outlet context store)).outcome =
      .ok report.counts := by
  rw [(execute_of_stages context params hname hfull hstages).1] at hok
  obtain ⟨counts, hlogged, rfl⟩ := exists_of_map_eq_ok hok
  exact ok_of_logged hlogged

/-- The progress of such an execution is what its run has reported. -/
theorem progress_of_stages {name : String} (context : Context) (params : List Value)
    (hname : scan.sourceName store = .ok name) (hfull : scan.node.emptyScan = false)
    (hstages : scan.node.isPassThrough = false) :
    (scan.execute context params store).progress =
      (scan.run params (store.get scan.source) (scan.outlet context store)).outlet.meter.reports := by
  simp only [execute, hname, hfull, hstages, Bool.false_eq_true, if_false]
  rfl

/-- A source without a name is one that cannot be read; then nothing happens at all. -/
theorem execute_of_name_error (context : Context) (params : List Value)
    (hname : scan.sourceName store = .error e) :
    scan.execute context params store = ⟨.error e, scan, store, [], #[], []⟩ := by
  simp only [execute, hname]

/-- Nothing happens to a plan that was proved empty either. -/
theorem execute_of_empty {name : String} (context : Context) (params : List Value)
    (hname : scan.sourceName store = .ok name) (hempty : scan.node.emptyScan = true) :
    scan.execute context params store =
      ⟨.ok ⟨.empty, ⟨0, 0⟩⟩, scan, store, [.shortCircuit name .emptyScan], #[], []⟩ := by
  simp only [execute, hname, hempty, if_true]

/-- Without stages an execution is only bracketed by its events. -/
theorem execute_of_isPassThrough {name : String} (context : Context) (params : List Value)
    (hname : scan.sourceName store = .ok name) (hfull : scan.node.emptyScan = false)
    (hstages : scan.node.isPassThrough = true) :
    let probe := context.probe scan.node.graph store
    scan.execute context params store =
      ⟨.ok ⟨.passThrough, ⟨0, 0⟩⟩, scan, store,
        .scanStart name :: probeEvents probe ++
          [.shortCircuit name .passThrough, .scanFinish name 0 0], #[], probe.getD []⟩ := by
  simp only [execute, hname, hfull, hstages, Bool.false_eq_true, if_false, if_true]

/-- **The courses that an execution can take.** -/
inductive Course (scan : Scan) (context : Context) (params : List Value) (store : Store) :
    Execution → Prop where
  /-- The source has no name. -/
  | unnamed {e : EngineError} (hname : scan.sourceName store = .error e) :
      Course scan context params store ⟨.error e, scan, store, [], #[], []⟩
  | empty {name : String} (hname : scan.sourceName store = .ok name)
      (hempty : scan.node.emptyScan = true) :
      Course scan context params store
        ⟨.ok ⟨.empty, ⟨0, 0⟩⟩, scan, store, [.shortCircuit name .emptyScan], #[], []⟩
  /-- There is no stage, and the source itself is handed on. -/
  | handed {name : String} (hname : scan.sourceName store = .ok name)
      (hfull : scan.node.emptyScan = false) (hstages : scan.node.isPassThrough = true) :
      Course scan context params store
        ⟨.ok ⟨.passThrough, ⟨0, 0⟩⟩, scan, store,
          .scanStart name :: probeEvents (context.probe scan.node.graph store) ++
            [.shortCircuit name .passThrough, .scanFinish name 0 0],
          #[], (context.probe scan.node.graph store).getD []⟩
  | ran {name : String} {result : RunResult} (hname : scan.sourceName store = .ok name)
      (hfull : scan.node.emptyScan = false) (hstages : scan.node.isPassThrough = false)
      (hrun : scan.run params (store.get scan.source) (scan.outlet context store) = result) :
      Course scan context params store
        ⟨(result.logged context.traced).outcome.map fun counts => ⟨.scanned, counts⟩,
          { scan with machine := result.machine }, scan.writeBack store result,
          .scanStart name :: probeEvents (context.probe scan.node.graph store) ++
            [.scanFinish name result.noted.scanned result.noted.emitted],
          result.outlet.meter.reports, (context.probe scan.node.graph store).getD []⟩

/-- **Every execution takes one of them.** -/
theorem execute_course (scan : Scan) (context : Context) (params : List Value) (store : Store) :
    Course scan context params store (scan.execute context params store) := by
  cases hname : scan.sourceName store with
  | error e =>
      rw [execute_of_name_error context params hname]
      exact .unnamed hname
  | ok name =>
    cases hfull : scan.node.emptyScan with
    | true =>
        rw [execute_of_empty context params hname hfull]
        exact .empty hname hfull
    | false =>
      cases hstages : scan.node.isPassThrough with
      | true =>
          rw [execute_of_isPassThrough context params hname hfull hstages]
          exact .handed hname hfull hstages
      | false =>
          simp only [execute, hname, hfull, hstages, Bool.false_eq_true, if_false]
          exact .ran hname hfull hstages rfl

/-! ## What every execution may do -/

/-- **All that an execution does to the tables**: nothing or, if the plan is not marked empty and has
a stage, it takes rows from the front of the source and appends rows to the output. -/
inductive Effect (scan : Scan) (store : Store) : Store → Prop where
  | nothing : Effect scan store store
  | moved (hfull : scan.node.emptyScan = false) (hstages : scan.node.isPassThrough = false)
      (taken : Nat) (gained : List Row) :
      Effect scan store ((store.set scan.source
        { store.get scan.source with
          table := (store.get scan.source).table.withRows
            ((store.get scan.source).table.rows.toList.drop taken) }).set
        scan.output.table ((store.get scan.output.table).appendAll gained))

/-- Such an effect leaves the store with its tables, under their names and with their schemas. -/
theorem Effect.later {after : Store} (h : Effect scan store after)
    (hne : scan.node.isPassThrough = false → scan.source ≠ scan.output.table) :
    store.Later after := by
  cases h with
  | nothing => exact .refl store
  | moved hfull hstages taken gained =>
      have hdrained := Store.Later.withRows store scan.source
        ((store.get scan.source).table.rows.toList.drop taken)
      have happend (drained : Store)
          (hsame : drained.get scan.output.table = store.get scan.output.table) :
          drained.Later
            (drained.set scan.output.table ((store.get scan.output.table).appendAll gained)) := by
        rw [← hsame]
        exact .append drained scan.output.table gained
      refine hdrained.trans (happend _ ?_)
      rw [Store.get_set, if_neg fun h => hne hstages h.1]

/-- **What an execution leaves of its scan and of the tables.**  The scan is as before but for the run
of its aggregation. -/
theorem InUse.effect (h : InUse node scan store) (context : Context) (params : List Value) :
    let execution := scan.execute context params store
    Effect scan store execution.store ∧
      execution.scan = { scan with machine := execution.scan.machine } ∧
      execution.scan.machine.map Machine.blank = scan.machine.map Machine.blank := by
  obtain rfl := h.node_eq
  intro execution
  have hcourse : Course scan context params store execution := execute_course ..
  clear_value execution
  cases hcourse with
  | unnamed | empty | handed => exact ⟨.nothing, rfl, rfl⟩
  | @ran name result hname hfull hstages hrun =>
      have hends : Ending scan params (store.get scan.source) (scan.outlet context store) result :=
        hrun ▸ run_ends h.projection_ok params _ _
      obtain ⟨⟨gained, hgained⟩, ⟨taken, htaken⟩, hblank⟩ := hends.keeps
      refine ⟨?_, rfl, hblank⟩
      rw [writeBack, htaken, hgained]
      exact .moved hfull hstages taken gained

/-- **A scan in use is still in use after an execution**, whatever its outcome. -/
theorem InUse.execute (h : InUse node scan store) (context : Context) (params : List Value) :
    InUse node (scan.execute context params store).scan (scan.execute context params store).store := by
  obtain ⟨heffect, hscan, hblank⟩ := h.effect context params
  have hlater := heffect.later fun hstages =>
    (h.tables (by rwa [← h.node_eq])).2.2
  obtain ⟨fresh, before, after, hinit, hsofar, hsource, hfresh⟩ := (h.later hlater).accepted
  refine ⟨⟨fresh, before, after, hinit, hsofar, hsource, ?_⟩, ?_⟩
  · rw [hscan, hfresh]
  · rw [← h.machine_node]
    simpa [Function.comp_def] using congrArg (Option.map Machine.node) hblank

end Scan

end GraphScan
