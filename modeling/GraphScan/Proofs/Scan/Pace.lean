import GraphScan.Proofs.Meter.Multiples
import GraphScan.Proofs.Scan.Accounting

/-!
# The progress of an execution

A run counts its work on a meter: each row that it takes, each row that it delivers without an error,
and each row that its aggregation inserts.  Nothing that it does depends on what the meter shows.

* `Run.on` — the same run on another meter.
* `Run.Gains` — what becomes of the output and the aggregation of a run.
* `Run.step_paced`, `Run.loop_paced`, `Run.finish_paced` — **the units of a row, of all rows and of
  the end of the aggregation**, the same on every meter.
* `Scan.run_on` — **the meter of a run does not show** in anything else.
* `Scan.run_units` — the units of a whole run.
* `Scan.reports_at_multiples` — **the reports of an execution** are those due after its units.
-/

namespace GraphScan

namespace Run

/-! ## Meters, gains and tallies -/

/-- The same run on another meter. -/
def on (run : Run) (meter : Meter) : Run :=
  { run with outlet := { run.outlet with meter } }

/-- The rows that the aggregation has inserted, of those that the output gains: all of them, if there
is an aggregation. -/
def inserted (run : Run) (gained : List Row) : Nat :=
  if run.machine.isSome then gained.length else 0

/-- The rows taken and the rows delivered, as of an outcome.  A run that fails at a row has noted
them when it took the row. -/
def tally {β : Type} (run : Run) : Except EngineError β → Nat
  | .ok _ => run.scanned + run.gate.passed
  | .error _ => run.noted.scanned + run.noted.emitted

/-- **What becomes of a run** that gains rows in its output. -/
structure Gains (run next : Run) (gained : List Row) : Prop where
  shared_eq : next.outlet.shared = run.outlet.shared.appendAll gained
  isSome_machine : next.machine.isSome = run.machine.isSome

theorem Gains.refl (run : Run) : Gains run run [] := ⟨rfl, rfl⟩

theorem Gains.trans {run next final : Run} {gained more : List Row} (h : Gains run next gained)
    (h' : Gains next final more) : Gains run final (gained ++ more) where
  shared_eq := by rw [h'.shared_eq, h.shared_eq, SharedTable.appendAll_appendAll]
  isSome_machine := h'.isSome_machine.trans h.isSome_machine

theorem Gains.inserted_eq {run next : Run} {gained : List Row} (h : Gains run next gained)
    (rows : List Row) : next.inserted rows = run.inserted rows := by
  rw [inserted, inserted, h.isSome_machine]

@[simp] theorem inserted_nil (run : Run) : run.inserted [] = 0 := by
  simp [inserted]

theorem inserted_append (run : Run) (gained more : List Row) :
    run.inserted (gained ++ more) = run.inserted gained + run.inserted more := by
  simp only [inserted]
  split
  · exact List.length_append
  · rfl

@[simp] theorem meter_on (run : Run) (meter : Meter) : (run.on meter).outlet.meter = meter := rfl

@[simp] theorem isOpen_on (run : Run) (meter : Meter) :
    (run.on meter).gate.isOpen = run.gate.isOpen := rfl

theorem on_self (run : Run) : run.on run.outlet.meter = run := rfl

theorem heed_on (run : Run) (demand : Demand) (meter : Meter) :
    (run.on meter).heed demand = (run.heed demand).on meter := by
  cases demand <;> rfl

/-! ## One row -/

/-- A delivery counts the rows that the aggregation inserts. -/
theorem deliver_paced (run : Run) (image : Row) :
    ∃ outcome next gained, Gains run next gained ∧
      ∀ meter, (run.on meter).deliver image =
        (outcome, next.on (Meter.tick^[run.inserted gained] meter)) := by
  cases hmachine : run.machine with
  | none =>
      have hnone (gained : List Row) : run.inserted gained = 0 := by simp [inserted, hmachine]
      rcases run.outlet.shared.insert_cases image with ⟨e, hinsert⟩ | ⟨-, -, hinsert⟩
      · refine ⟨.error e, run, [], .refl run, fun meter => ?_⟩
        rw [hnone]
        exact deliver_of_insert_error hmachine (congrArg Prod.fst hinsert)
      · refine ⟨.ok .more, { run with outlet := { run.outlet with
          shared := run.outlet.shared.appendAll [image] } }, [image], ⟨rfl, rfl⟩, fun meter => ?_⟩
        rw [hnone]
        exact deliver_of_insert hmachine hinsert
  | some machine =>
      obtain ⟨outcome, state, gained, heq⟩ := machine.feed_writes image run.outlet.shared
      have hcount : run.inserted gained = gained.length := by simp [inserted, hmachine]
      refine ⟨outcome, { run with
        machine := some state
        outlet := run.outlet.receiveAll gained }, gained, ⟨rfl, by simp [hmachine]⟩,
        fun meter => ?_⟩
      simp only [deliver, on, hmachine, heq, hcount]
      rfl

/-- A row that has passed the gate is one more unit if it is delivered. -/
theorem pass_paced (run : Run) (route : Route) (row : Row) :
    ∃ outcome next gained, Gains run next gained ∧
      next.scanned = run.scanned ∧ next.gate.passed = run.gate.passed ∧
      ∀ meter, (run.on meter).pass route row =
        (outcome, next.on (Meter.tick^[run.inserted gained + outcome.isOk.toNat] meter)) := by
  cases himage : route.image row with
  | error e =>
      refine ⟨.error e, run, [], .refl run, rfl, rfl, fun meter => ?_⟩
      simp only [pass, himage, inserted_nil]
      rfl
  | ok image =>
      obtain ⟨outcome, next, gained, hgains, hdeliver⟩ := run.deliver_paced image
      have hscanned := run.scanned_deliver image
      have hgate := run.gate_deliver image
      have hown := hdeliver run.outlet.meter
      rw [on_self] at hown
      rw [hown] at hscanned hgate
      cases outcome with
      | error e =>
          refine ⟨.error e, next, gained, hgains, hscanned, congrArg Gate.passed hgate,
            fun meter => ?_⟩
          simp only [pass, himage, hdeliver]
          rfl
      | ok demand =>
          have hpassed : next.gate.passed = run.gate.passed := congrArg Gate.passed hgate
          refine ⟨.ok (route.reuse image), next.heed demand, gained, ?_, ?_, ?_, fun meter => ?_⟩
          · cases demand <;> exact ⟨hgains.shared_eq, hgains.isSome_machine⟩
          · cases demand <;> exact hscanned
          · cases demand <;> exact hpassed
          · simp only [pass, himage, hdeliver, heed_on]
            show _ = (_, (next.heed demand).on (Meter.tick^[run.inserted gained + 1] meter))
            rw [Function.iterate_succ_apply']
            rfl

/-- **The units of a row**: one for taking it, one for delivering it, and one for each row that the
aggregation inserts meanwhile. -/
theorem step_paced (run : Run) (route : Route) (row : Row) :
    ∃ outcome next gained units, Gains run next gained ∧
      run.scanned + run.gate.passed + units = next.tally outcome + run.inserted gained ∧
      ∀ meter, (run.on meter).step route row = (outcome, next.on (Meter.tick^[units] meter)) := by
  have hnoted := noted_step run route row
  have hoffer (meter : Meter) : (run.on meter).take.gate.offer row = run.gate.offer row := rfl
  rcases hgate : run.gate.offer row with e | ⟨_ | _, gate⟩
  · refine ⟨.error e, run.take, [], 1, ⟨rfl, rfl⟩, ?_, fun meter => ?_⟩
    · rw [inserted_nil]
      exact Nat.add_right_comm _ _ _
    · simp only [step, hoffer, hgate]
      rfl
  · have hpassed : gate.passed = run.gate.passed := Gate.passed_of_offer hgate
    refine ⟨.ok route, { run.take with gate }, [], 1, ⟨rfl, rfl⟩, ?_, fun meter => ?_⟩
    · rw [inserted_nil, tally, hpassed]
      exact Nat.add_right_comm _ _ _
    · simp only [step, hoffer, hgate]
      rfl
  · have hpassed : gate.passed = run.gate.passed + 1 := Gate.passed_of_offer hgate
    obtain ⟨outcome, next, gained, hgains, hscanned, hkept, hpass⟩ :=
      pass_paced { run.take with gate } route row
    have hstep (meter : Meter) : (run.on meter).step route row =
        (outcome, next.on (Meter.tick^[run.inserted gained + outcome.isOk.toNat + 1] meter)) := by
      simp only [step, hoffer, hgate]
      exact hpass meter.tick
    refine ⟨outcome, next, gained, _, ⟨hgains.shared_eq, hgains.isSome_machine⟩, ?_, hstep⟩
    have hown := hstep run.outlet.meter
    rw [on_self] at hown
    rw [hown] at hnoted
    cases outcome with
    | error e =>
        have hsame : next.noted = ⟨run.scanned + 1, run.gate.passed⟩ := hnoted
        simp only [tally, hsame, Except.isOk, Except.toBool, Bool.toNat_false]
        omega
    | ok =>
        have hcount : next.scanned = run.scanned + 1 := hscanned
        simp only [tally, hcount, hkept, hpassed, Except.isOk, Except.toBool, Bool.toNat_true]
        omega

/-! ## All rows -/

/-- **The units of all rows.**  The induction is on the rows; what the first one gains comes before
what the others do. -/
theorem loop_paced (route : Route) (rows : List Row) (run : Run) :
    ∃ outcome rest next gained units, Gains run next gained ∧
      run.scanned + run.gate.passed + units = next.tally outcome + run.inserted gained ∧
      ∀ meter, (run.on meter).loop route rows =
        (outcome, rest, next.on (Meter.tick^[units] meter)) := by
  induction rows generalizing run with
  | nil => exact ⟨.ok (), [], run, [], 0, .refl run, by rw [inserted_nil]; rfl, fun _ => rfl⟩
  | cons row rows ih =>
      cases hopen : run.gate.isOpen with
      | false =>
          have hstill (meter : Meter) : (run.on meter).gate.isOpen = false := hopen
          exact ⟨.ok (), row :: rows, run, [], 0, .refl run, by rw [inserted_nil]; rfl,
            fun meter => loop_of_not_isOpen (hstill meter) route (row :: rows)⟩
      | true =>
          have hstill (meter : Meter) : (run.on meter).gate.isOpen = true := hopen
          obtain ⟨outcome, next, gained, units, hgains, hunits, hstep⟩ := run.step_paced route row
          cases outcome with
          | error e =>
              exact ⟨.error e, rows, next, gained, units, hgains, hunits, fun meter =>
                loop_cons_of_error (hstill meter) (hstep meter) rows⟩
          | ok =>
              obtain ⟨outcome, rest, final, more, others, hmore, hothers, hloop⟩ := ih next
              refine ⟨outcome, rest, final, gained ++ more, others + units, hgains.trans hmore, ?_,
                fun meter => ?_⟩
              · rw [inserted_append]
                rw [hgains.inserted_eq] at hothers
                simp only [tally] at hunits
                omega
              · rw [loop_cons_of_ok (hstill meter) (hstep meter), hloop, Function.iterate_add_apply]

/-- **The units of the end of the aggregation** are the rows that it inserts. -/
theorem finish_paced (run : Run) :
    ∃ outcome next gained, Gains run next gained ∧
      ∀ meter, (run.on meter).finish =
        (outcome, next.on (Meter.tick^[run.inserted gained] meter)) := by
  cases hmachine : run.machine with
  | none =>
      refine ⟨.ok (), run, [], .refl run, fun meter => ?_⟩
      simp only [finish, show (run.on meter).machine = none from hmachine, inserted_nil]
      rfl
  | some machine =>
      obtain ⟨outcome, state, gained, heq⟩ := machine.finish_writes run.outlet.shared
      have hcount : run.inserted gained = gained.length := by simp [inserted, hmachine]
      refine ⟨outcome, { run with
        machine := some state
        outlet := run.outlet.receiveAll gained }, gained, ⟨rfl, by simp [hmachine]⟩,
        fun meter => ?_⟩
      simp only [finish, on, hmachine, heq, hcount]
      rfl

end Run

/-! ## A whole run -/

/-- The same result with another meter. -/
def RunResult.on (result : RunResult) (meter : Meter) : RunResult :=
  { result with outlet := { result.outlet with meter } }

namespace Scan

variable {node : ScanNode} {scan : Scan} {store : Store}

/-- The meter does not show in the loop and the end of the aggregation. -/
theorem drain_on (source : SharedTable) (table : Table) (route : Route) (run : Run) :
    ∃ result units, ∀ meter, drain source table route (run.on meter) =
      RunResult.on result (Meter.tick^[units] meter) := by
  obtain ⟨outcome, rest, now, gained, units, -, -, hloop⟩ := run.loop_paced route table.rows.toList
  cases outcome with
  | error e =>
      exact ⟨⟨.error e, now.noted, now.machine, { source with table := table.withRows rest },
        now.outlet⟩, units, fun meter => drain_of_error (hloop meter)⟩
  | ok =>
      obtain ⟨outcome, final, more, -, hfinish⟩ := now.finish_paced
      have hend (meter : Meter) : (now.on (Meter.tick^[units] meter)).finish =
          (outcome, final.on (Meter.tick^[now.inserted more + units] meter)) := by
        rw [hfinish, Function.iterate_add_apply]
      cases outcome with
      | error e =>
          refine ⟨⟨.error e, final.noted, final.machine, { source with table := table.withRows rest },
            final.outlet⟩, now.inserted more + units, fun meter => ?_⟩
          simp only [drain, hloop, hend]
          rfl
      | ok =>
          refine ⟨⟨.ok ⟨final.scanned, final.gate.passed⟩, ⟨final.scanned, final.gate.passed⟩,
            final.machine, { source with table := table.withRows rest }, final.outlet⟩,
            now.inserted more + units, fun meter => ?_⟩
          simp only [drain, hloop, hend]
          rfl

/-- **The meter of a run does not show**, except that the units of the run are counted on it. -/
theorem run_on (scan : Scan) (params : List Value) (source shared : SharedTable) :
    ∃ result units, ∀ meter, scan.run params source ⟨shared, meter⟩ =
      RunResult.on result (Meter.tick^[units] meter) := by
  have hprepare (meter : Meter) : scan.prepare params source ⟨shared, meter⟩ =
      scan.prepare params source ⟨shared, default⟩ := rfl
  rcases hsettled : scan.prepare params source ⟨shared, default⟩ with
    ⟨e | ⟨window, route, table⟩, machine⟩
  · refine ⟨⟨.error e, ⟨0, 0⟩, machine, source, ⟨shared, default⟩⟩, 0, fun meter => ?_⟩
    simp only [run, hprepare, hsettled]
    rfl
  · obtain ⟨result, units, hdrain⟩ :=
      drain_on source table route (scan.begin window machine ⟨shared, default⟩)
    refine ⟨result, units, fun meter => ?_⟩
    simp only [run, hprepare, hsettled]
    exact hdrain meter

/-- What the loop of a run has counted: the rows taken and delivered, and those that the aggregation
has inserted so far. -/
theorem units_of_loop {window : Window} {route : Route} {machine : Option Machine}
    {outlet : Outlet} {rows rest : List Row} {outcome : Except EngineError Unit} {now : Run}
    (hloop : (scan.begin window machine outlet).loop route rows = (outcome, rest, now)) :
    ∃ gained, Run.Gains (scan.begin window machine outlet) now gained ∧
      now.outlet.meter =
        Meter.tick^[now.tally outcome + (scan.begin window machine outlet).inserted gained]
          outlet.meter := by
  obtain ⟨outcome', rest', next, gained, units, hgains, hunits, hpaced⟩ :=
    (scan.begin window machine outlet).loop_paced route rows
  have hown := hpaced outlet.meter
  rw [show (scan.begin window machine outlet).on outlet.meter = scan.begin window machine outlet
    from rfl, hloop, Prod.mk.injEq, Prod.mk.injEq] at hown
  obtain ⟨rfl, rfl, rfl⟩ := hown
  have hzero : (scan.begin window machine outlet).scanned +
      (scan.begin window machine outlet).gate.passed = 0 := rfl
  rw [hzero, Nat.zero_add] at hunits
  exact ⟨gained, ⟨hgains.shared_eq, hgains.isSome_machine⟩, by rw [Run.meter_on, hunits]; rfl⟩

/-- What the end of the aggregation has counted. -/
theorem units_of_finish {now final : Run} {outcome : Except EngineError Unit}
    (hfinish : now.finish = (outcome, final)) :
    ∃ more, Run.Gains now final more ∧
      final.outlet.meter = Meter.tick^[now.inserted more] now.outlet.meter := by
  obtain ⟨outcome', next, more, hgains, hpaced⟩ := now.finish_paced
  have hown := hpaced now.outlet.meter
  rw [Run.on_self, hfinish, Prod.mk.injEq] at hown
  obtain ⟨rfl, rfl⟩ := hown
  exact ⟨more, ⟨hgains.shared_eq, hgains.isSome_machine⟩, rfl⟩

theorem inserted_begin {window : Window} {route : Route} {table : Table} {source : SharedTable}
    {machine : Option Machine} {params : List Value} {outlet : Outlet}
    (hprepare : scan.prepare params source outlet = (.ok (window, route, table), machine))
    (gained : List Row) : (scan.begin window machine outlet).inserted gained =
      if scan.machine.isSome then gained.length else 0 := by
  have hblank := scan.blank_prepare params source outlet
  have hsome := congrArg Option.isSome hblank
  rw [hprepare, Option.isSome_map, Option.isSome_map] at hsome
  rw [Run.inserted, ← hsome]
  rfl

/-- The units of a run whose aggregation has come to its end, with whatever outcome. -/
theorem units_of_end {window : Window} {route : Route} {machine : Option Machine}
    {params : List Value} {source : SharedTable} {outlet : Outlet} {seen rest images : List Row}
    {outcome : Except EngineError Unit} {now final : Run}
    (hprepare : scan.prepare params source outlet = (.ok (window, route, source.table), machine))
    (hrows : source.table.rows.toList = seen ++ rest)
    (hloop : (scan.begin window machine outlet).loop route source.table.rows.toList =
      (.ok (), rest, now))
    (hreached : Run.Reached (scan.begin window machine outlet) route seen images now)
    (hfinish : now.finish = (outcome, final)) :
    ∃ gained, final.outlet.shared = outlet.shared.appendAll gained ∧
      final.outlet.meter = Meter.tick^[seen.length +
        scan.delivered params source outlet seen.length +
        if scan.machine.isSome then gained.length else 0] outlet.meter := by
  obtain ⟨gained, hgains, hmeter⟩ := units_of_loop hloop
  obtain ⟨more, hmore, hend⟩ := units_of_finish hfinish
  obtain ⟨hscanned, hpassed, -⟩ := counts_of_reached hreached
  refine ⟨gained ++ more, (hgains.trans hmore).shared_eq, ?_⟩
  have hdelivered : scan.delivered params source outlet seen.length = now.gate.passed := by
    rw [delivered_of_prepare hprepare, hpassed, hrows, List.take_left]
  rw [hend, hmeter, ← Function.iterate_add_apply, hgains.inserted_eq, Run.tally, hscanned,
    ← hdelivered, ← inserted_begin hprepare, Run.inserted_append,
    Nat.add_comm (Run.inserted _ more), Nat.add_assoc (_ + _)]

/-- **The units of a whole run**: one for each row that is gone from the source, one for each row
delivered without an error, and one for each row that the aggregation has inserted. -/
theorem run_units (hcheck : scan.node.checkProjection = .ok ()) (params : List Value)
    (source : SharedTable) (outlet : Outlet) :
    let rows := source.table.rows.toList
    let result := scan.run params source outlet
    ∃ taken gained, taken ≤ rows.length ∧
      result.source = { source with table := source.table.withRows (rows.drop taken) } ∧
      result.outlet.shared = outlet.shared.appendAll gained ∧
      result.outlet.meter = Meter.tick^[taken + scan.delivered params source outlet taken +
        if scan.machine.isSome then gained.length else 0] outlet.meter := by
  intro rows result
  have hends : Ending scan params source outlet result := run_ends hcheck params source outlet
  clear_value result
  cases hends with
  | unprepared hprepare =>
      refine ⟨0, [], Nat.zero_le _, rfl, rfl, ?_⟩
      rw [delivered_zero]
      simp
  | @failed window route machine seen rest images row e final hprepare hrows hloop hfailed =>
      obtain ⟨gained, hgains, hmeter⟩ := units_of_loop hloop
      have hnoted : final.noted = ⟨seen.length + 1, images.length⟩ := by
        rw [hfailed.noted_eq, begin, Gate.new, Nat.zero_add, Nat.zero_add]
      have htake : rows.take (seen.length + 1) = seen ++ [row] := by
        simp [rows, hrows, List.take_append, List.take_of_length_le]
      have hdelivered : scan.delivered params source outlet (seen.length + 1) = images.length := by
        rw [delivered_of_prepare hprepare, ← hfailed.deliveries_eq.2, ← htake]
      refine ⟨seen.length + 1, gained, ?_, ?_, hgains.shared_eq, ?_⟩
      · simp [rows, hrows]
      · simp [rows, hrows, List.drop_append, List.drop_eq_nil_of_le]
      · rw [hmeter, Run.tally, hnoted, hdelivered, inserted_begin hprepare]
  | @unfinished window route machine seen rest images e now final hprepare hrows hloop hreached hend
      hfinish =>
      obtain ⟨gained, hshared, hmeter⟩ := units_of_end hprepare hrows hloop hreached hfinish
      refine ⟨seen.length, gained, ?_, ?_, hshared, hmeter⟩
      · simp [rows, hrows]
      · simp [rows, hrows]
  | @finished window route machine seen rest images now final hprepare hrows hloop hreached hend
      hfinish =>
      obtain ⟨gained, hshared, hmeter⟩ := units_of_end hprepare hrows hloop hreached hfinish
      refine ⟨seen.length, gained, ?_, ?_, hshared, hmeter⟩
      · simp [rows, hrows]
      · simp [rows, hrows]

/-! ## The reports -/

/-- **The reports of a meter come exactly at the multiples of its interval.**  They do so for any
calls through any number of handles, which all read the number of units.  And they do so for every
execution of a scan in use, successful or not: its units are the rows that are gone from the source,
the rows delivered without an error, and the rows that its aggregation has inserted.  An execution
that has nothing to do on rows reports nothing. -/
theorem reports_at_multiples :
    (∀ (operator interval : Nat) (heard : Bool) (calls : List Panel.Call),
      let idle := Panel.new (.new operator interval heard)
      let panel := idle.run calls
      idle.units calls < UInt64.size →
        0 < panel.handles ∧ (∀ reading ∈ panel.readings, reading = idle.units calls) ∧
          panel.meter.reports =
            if heard then Meter.due operator interval (idle.units calls) else #[]) ∧
    ∀ (node : ScanNode) (scan : Scan) (store : Store) (context : Context) (params : List Value),
      InUse node scan store →
        let execution := scan.execute context params store
        let source := store.get scan.source
        let rows := source.table.rows.toList
        let interval := context.config.progress.reportInterval
        (node.emptyScan = true ∨ node.isPassThrough = true → execution.progress = #[]) ∧
        (node.emptyScan = false → node.isPassThrough = false → ∃ taken gained,
          taken ≤ rows.length ∧
          execution.store.get scan.source =
            { source with table := source.table.withRows (rows.drop taken) } ∧
          execution.store.get scan.output.table =
            (store.get scan.output.table).appendAll gained ∧
          let units := taken + scan.delivered params source (scan.outlet context store) taken +
            if node.aggregate.isSome then gained.length else 0
          units < UInt64.size → execution.progress =
            if context.heard then Meter.due node.id interval units else #[]) := by
  constructor
  · intro operator interval heard calls idle panel hunits
    obtain ⟨hmeter, hhandles⟩ := Panel.run_new operator interval heard (Nat.le_sub_one_of_lt hunits)
    have hcounted : panel.meter = .counted operator interval heard (idle.units calls) := hmeter
    refine ⟨hhandles, fun reading hreading => ?_, by rw [hcounted]; rfl⟩
    have hprocessed : reading = panel.meter.processed := List.eq_of_mem_replicate hreading
    rw [hprocessed, hcounted]
    rfl
  · intro node scan store context params h execution source rows interval
    obtain rfl := h.node_eq
    have hcourse : Course scan context params store execution := execute_course ..
    clear_value execution
    cases hcourse with
    | unnamed hname =>
        refine ⟨fun _ => rfl, fun _ _ => ⟨0, [], Nat.zero_le _, rfl, rfl, fun _ => ?_⟩⟩
        rw [delivered_zero]
        simp
    | empty hname hempty => exact ⟨fun _ => rfl, fun hfull => absurd hfull (by simp [hempty])⟩
    | handed hname hfull hstages =>
        exact ⟨fun _ => rfl, fun _ hsome => absurd hsome (by simp [hstages])⟩
    | @ran name result hname hfull hstages hrun =>
        refine ⟨fun hnone => absurd hnone (by simp [hfull, hstages]), fun _ _ => ?_⟩
        obtain ⟨hsource, houtput, hne⟩ := h.tables hstages
        obtain ⟨taken, gained, htaken, hleft, hgained, hmeter⟩ :=
          run_units h.projection_ok params source (scan.outlet context store)
        rw [hrun] at hleft hgained hmeter
        have haggregate : scan.node.aggregate.isSome = scan.machine.isSome := by
          rw [← h.machine_node, Option.isSome_map]
        refine ⟨taken, gained, htaken, ?_, ?_, fun hunits => ?_⟩
        · exact (get_source_writeBack hsource hne).trans hleft
        · exact (get_output_writeBack houtput).trans hgained
        · rw [haggregate] at hunits ⊢
          rw [hmeter]
          exact congrArg Meter.reports (Meter.iterate_tick_new _ _ _ (Nat.le_sub_one_of_lt hunits))

/-! ### An example: six units -/

/-- Two handles count three units, and the report after the second is the only one due.  The scan of
the first count takes three rows, delivers two of them, the last one to be told that it is enough, and
inserts one count: six units, with a report after every second of them. -/
theorem reports_at_multiples_firstCount :
    let calls : List Panel.Call := [.tick 0, .clone 0, .tick 1, .tick 2, .tick 0]
    let panel := (Panel.new (.new 7 2 true)).run calls
    let context : Context := ⟨0, { progress := ⟨2⟩ }, none, true, false⟩
    let execution := firstCountScan.1.execute context [] firstCountScan.2
    panel.readings = [3, 3] ∧ panel.meter.reports = #[⟨7, 2⟩] ∧
      (execution.store.get 0).table.rows.toList = [[.int 4]] ∧
      (execution.store.get 1).table.rows.toList = [[.int 2, .int 1]] ∧
      execution.progress = #[⟨0, 2⟩, ⟨0, 4⟩, ⟨0, 6⟩] := by
  intro calls panel context execution
  obtain ⟨hpanel, hscan⟩ := reports_at_multiples
  obtain ⟨-, -, hreports⟩ := hpanel 7 2 true calls (by decide)
  have hinit : Scan.init (.scan firstCount) peopleStore = .ok firstCountScan := rfl
  have huse : InUse firstCount firstCountScan.1 firstCountScan.2 := inUse_of_init hinit (by decide)
  obtain ⟨-, hstages⟩ := hscan firstCount firstCountScan.1 firstCountScan.2 context [] huse
  obtain ⟨taken, gained, htaken, hsource, houtput, hprogress⟩ := hstages rfl rfl
  have hleft : (execution.store.get 0).table.rows.toList = [[.int 4]] := rfl
  have hcounts : (execution.store.get 1).table.rows.toList = [[.int 2, .int 1]] := rfl
  have hgained : gained = [[.int 2, .int 1]] := by
    rw [← hcounts, show execution.store.get 1 = _ from houtput, SharedTable.table_appendAll,
      Table.toList_rows_appendAll]
    rfl
  have hthree : taken = 3 := by
    have hlength : 4 - taken = 1 := by
      rw [← List.length_singleton (a := ([.int 4] : Row)), ← hleft,
        show execution.store.get 0 = _ from hsource, Table.toList_rows_withRows, List.length_drop]
      rfl
    have hmost : taken ≤ 4 := htaken
    omega
  subst hthree hgained
  exact ⟨rfl, hreports.trans (by decide), hleft, hcounts, (hprogress (by decide)).trans (by decide)⟩

end Scan

end GraphScan
