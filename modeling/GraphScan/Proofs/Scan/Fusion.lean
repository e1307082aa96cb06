import GraphScan.Proofs.Scan.Semantics

/-!
# Fused aggregations

A scan with an aggregation feeds it row by row while it takes rows from its source.  It might as well
have put the rows into a table first.

* `ScanNode.unaggregated` — the same plan without the aggregation.
* `Scan.run_of_aggregate` — a run that aggregates is its aggregation driven over the images.
* `Scan.execute_fused` — **fusion changes nothing**: an execution of the plan is the execution of the
  plan without its aggregation, followed by the aggregation of the rows that this has delivered.
-/

namespace GraphScan

/-- A machine that starts gives an all-null row. -/
theorem Machine.scratch_of_init {machine next : Machine} {params : List Value} {width : Nat}
    {scratch : Row} (h : machine.init params width = (.ok scratch, next)) :
    scratch = Row.nulls width := by
  cases machine with
  | serial s =>
      simp only [Machine.init, Serial.init] at h
      cases hgate : s.node.gate params with
      | error e => simp [hgate] at h
      | ok gate => simpa [hgate, eq_comm] using congrArg Prod.fst h
  | hashed s =>
      simp only [Machine.init, Hashed.init] at h
      cases hgate : s.node.gate params with
      | error e => simp [hgate] at h
      | ok gate => simpa [hgate, eq_comm] using congrArg Prod.fst h

/-! ## Plans without their aggregation -/

namespace ScanNode

/-- The schema of the rows that reach the aggregation: that of the projection or else of the
source. -/
def inputSchema (node : ScanNode) (source : Schema) : Schema :=
  match node.projection with
  | some projection => projection.schema
  | none => source

/-- **The plan without its aggregation**, with an output for the rows that would reach it. -/
def unaggregated (node : ScanNode) (source : Schema) : ScanNode :=
  { node with aggregate := none, schema := node.inputSchema source }

theorem Selects.of_unaggregated {node : ScanNode} {source : Schema} {window : Window}
    {rows images : List Row} (h : (node.unaggregated source).Selects window rows images) :
    node.Selects window rows images :=
  ⟨h.settled, h.images⟩

/-- A plan without stages selects all rows as they are. -/
theorem selects_of_isPassThrough {node : ScanNode} (h : node.isPassThrough = true)
    (rows : List Row) :
    node.Selects .everything rows rows ∧ node.window = none ∧
      Window.everything.extent (admits node.predicate) rows = rows.length := by
  simp only [isPassThrough, Bool.and_eq_true, Option.isNone_iff_eq_none] at h
  obtain ⟨⟨⟨hpredicate, hprojection⟩, hwindow⟩, -⟩ := h
  refine ⟨⟨?_, ?_⟩, hwindow, rfl⟩
  · intro row _ predicate hmem
    rw [hpredicate] at hmem
    cases hmem
  · have hall : rows.filter (admits node.predicate) = rows := by
      rw [hpredicate]
      exact List.filter_eq_self.mpr fun _ _ => rfl
    have himage : ∀ row, node.image row = .ok row := by
      intro row
      rw [image, hprojection]
    rw [hall, Window.cut, Window.everything, List.drop_zero]
    exact List.forall₂_same.mpr fun row _ => himage row

end ScanNode

/-! ## Runs with a machine -/

namespace Run

variable {run : Run} {machine : Machine} {outlet : Outlet}

/-- With an aggregation a delivery is a feed of the machine. -/
theorem deliver_of_machine (h : run.sink = (some machine, outlet.shared)) (image : Row) :
    (run.deliver image).1 = (machine.feed image outlet).1 ∧
      (run.deliver image).2.sink =
        (some (machine.feed image outlet).2.1, (machine.feed image outlet).2.2.shared) := by
  have hmachine : run.machine = some machine := congrArg Prod.fst h
  have hshared : run.outlet.shared = outlet.shared := congrArg Prod.snd h
  obtain ⟨hout, hstate, htable⟩ := (machine.feed_writes image).congr hshared
  rw [deliver, hmachine]
  exact ⟨hout, Prod.ext (congrArg some hstate) htable⟩

/-- With an aggregation the end of a run is the end of the machine. -/
theorem finish_of_machine (h : run.sink = (some machine, outlet.shared)) :
    run.finish.1 = (machine.finish outlet).1 ∧
      run.finish.2.sink =
        (some (machine.finish outlet).2.1, (machine.finish outlet).2.2.shared) := by
  have hmachine : run.machine = some machine := congrArg Prod.fst h
  have hshared : run.outlet.shared = outlet.shared := congrArg Prod.snd h
  obtain ⟨hout, hstate, htable⟩ := machine.finish_writes.congr hshared
  rw [finish, hmachine]
  exact ⟨hout, Prod.ext (congrArg some hstate) htable⟩

/-- Deliveries are feeds of the machine, one by one. -/
theorem feedAll_deliver_of_machine (h : run.sink = (some machine, outlet.shared))
    (images : List Row) :
    (feedAll Run.deliver run images).outcome = (machine.feedAll images outlet).outcome ∧
      (feedAll Run.deliver run images).fed = (machine.feedAll images outlet).fed ∧
      (feedAll Run.deliver run images).state.sink =
        (some (machine.feedAll images outlet).state.1,
          (machine.feedAll images outlet).state.2.shared) := by
  refine feedAll_related (R := fun (run : Run) (state : Machine × Outlet) =>
    run.sink = (some state.1, state.2.shared)) ?_ h images
  intro run state image hsink
  exact deliver_of_machine hsink image

end Run

namespace Scan

variable {node : ScanNode} {scan : Scan} {store : Store}

theorem drain_of_error {source : SharedTable} {table : Table} {route : Route} {run final : Run}
    {rest : List Row} {e : EngineError}
    (hloop : run.loop route table.rows.toList = (.error e, rest, final)) :
    drain source table route run =
      ⟨.error e, final.noted, final.machine, { source with table := table.withRows rest },
        final.outlet⟩ := by
  simp only [drain, hloop]

/-- A loop that succeeds is followed by the end of the aggregation. -/
theorem drain_of_finish {table : Table} {route : Route} {run final ended : Run}
    {rest : List Row} {outcome : Except EngineError Unit}
    (hloop : run.loop route table.rows.toList = (.ok (), rest, final))
    (hend : final.finish = (outcome, ended)) (source : SharedTable) :
    (drain source table route run).outcome =
        (outcome.map fun _ => ⟨ended.scanned, ended.gate.passed⟩) ∧
      (drain source table route run).machine = ended.machine ∧
      (drain source table route run).outlet = ended.outlet ∧
      (drain source table route run).source = { source with table := table.withRows rest } := by
  rw [drain, hloop]
  simp only [hend]
  cases outcome <;> exact ⟨rfl, rfl, rfl, rfl⟩

/-- **A run with a machine** is the machine driven over the images of the selected rows; it takes
the rows up to the last one fed or, if the machine never had enough, all that the window looks
at. -/
theorem drain_of_machine {source : SharedTable} {window : Window} {images : List Row}
    {route : Route} (machine : Machine) {outlet hand : Outlet}
    (hroute : ∀ row, route.image row = scan.node.image row)
    (hselects : scan.node.Selects window source.table.rows.toList images)
    (hshared : outlet.shared = hand.shared) :
    let taken := (machine.feedAll images hand).taken window (admits scan.node.predicate)
      source.table.rows.toList
    let result := drain source source.table route (scan.begin window (some machine) outlet)
    (result.outcome.map fun _ => ()) = (machine.complete images hand).1 ∧
      result.machine = some (machine.complete images hand).2.1 ∧
      result.outlet.shared = (machine.complete images hand).2.2.shared ∧
      result.source =
        { source with table := source.table.withRows (source.table.rows.toList.drop taken) } := by
  intro taken result
  have hsink : (scan.begin window (some machine) outlet).sink = (some machine, hand.shared) :=
    congrArg (Prod.mk _) hshared
  obtain ⟨hfeed, hfed, hstate⟩ := Run.feedAll_deliver_of_machine hsink images
  obtain ⟨hout, hrest, hfinal, -, -⟩ := loop_of_selects (some machine) outlet hroute hselects
  have htaken : (feedAll Run.deliver (scan.begin window (some machine) outlet) images).taken window
      (admits scan.node.predicate) source.table.rows.toList = taken := by
    simp only [taken, Feeding.taken, hfeed, hfed]
  rw [hfeed] at hout
  rw [htaken] at hrest
  rw [hstate] at hfinal
  rcases hloop : (scan.begin window (some machine) outlet).loop route source.table.rows.toList
    with ⟨outcome, rest, final⟩
  rw [hloop] at hout hrest hfinal
  obtain rfl : rest = _ := hrest
  cases houtcome : (machine.feedAll images hand).outcome with
  | error e =>
      rw [houtcome] at hout
      obtain rfl : outcome = .error e := hout
      have hcomplete : machine.complete images hand =
          (.error e, (machine.feedAll images hand).state) := by
        simp only [Machine.complete, houtcome]
      have hresult : result = _ := drain_of_error hloop
      rw [hresult, hcomplete]
      exact ⟨rfl, congrArg Prod.fst hfinal, congrArg Prod.snd hfinal, rfl⟩
  | ok demand =>
      rw [houtcome] at hout
      obtain rfl : outcome = .ok () := hout
      have hcomplete : machine.complete images hand =
          (machine.feedAll images hand).state.1.finish (machine.feedAll images hand).state.2 := by
        simp only [Machine.complete, houtcome]
      obtain ⟨hfinish, hsink'⟩ := Run.finish_of_machine hfinal
      rw [← hcomplete] at hfinish hsink'
      rcases hend : final.finish with ⟨ended, run⟩
      rw [hend] at hfinish hsink'
      obtain ⟨hdone, hmachine, houtlet, hsource⟩ := drain_of_finish hloop hend source
      refine ⟨?_, ?_, ?_, hsource⟩
      · rw [← hfinish]
        show Except.map _ (drain _ _ _ _).outcome = ended
        rw [hdone]
        cases ended <;> rfl
      · exact hmachine.trans (congrArg Prod.fst hsink')
      · exact (congrArg Outlet.shared houtlet).trans (congrArg Prod.snd hsink')

/-! ## Starting the aggregation -/

/-- The aggregation of a scan is started for rows of its input schema. -/
theorem start_of_machine {machine : Machine} (params : List Value) {source : SharedTable}
    (output : SharedTable) (hmachine : scan.machine = some machine) (hfree : source.hold = .free) :
    scan.start params source output =
      ((machine.init params (scan.node.inputSchema source.table.schema).width).1,
        some (machine.init params (scan.node.inputSchema source.table.schema).width).2) := by
  simp only [start, hmachine, ScanNode.inputSchema, read_of_free hfree]
  cases scan.node.projection <;> rfl

/-- A run whose aggregation cannot be started has done nothing. -/
theorem run_of_start_error {params : List Value} (context : Context) {window : Window}
    {machine : Option Machine} {e : EngineError} (h : Ready node scan store)
    (hwindow : WindowSpec.resolveOptional node.window params = .ok window)
    (hstart : scan.start params (store.get scan.source) (store.get scan.output.table) =
      (.error e, machine)) :
    scan.run params (store.get scan.source) (scan.outlet context store) =
      ⟨.error e, ⟨0, 0⟩, machine, store.get scan.source, scan.outlet context store⟩ := by
  obtain rfl := h.node_eq
  have hprepare : scan.prepare params (store.get scan.source) (scan.outlet context store) =
      (.error e, machine) := by
    simp only [prepare, outlet, hwindow, h.writable, hstart, bind, Except.bind]
  simp only [run, hprepare]

/-- **A run of a scan that aggregates** is its aggregation driven over the images of the rows that it
selects.  If nothing fails it takes the rows up to the last one fed or, if the aggregation never had
enough, all that the window looks at. -/
theorem run_of_aggregate (context : Context) {params : List Value} {window : Window}
    {aggregate : AggregateNode} {images : List Row} (outlet : Outlet) (hready : Ready node scan store)
    (haggregate : node.aggregate = some aggregate)
    (hwindow : WindowSpec.resolveOptional node.window params = .ok window)
    (hselects : node.Selects window (store.get scan.source).table.rows.toList images)
    (hshared : outlet.shared = store.get scan.output.table) :
    let source := (store.get scan.source).table
    let width := (node.inputSchema source.schema).width
    let hand := (Machine.ofNode aggregate).drive params width images outlet
    let feeding := ((Machine.ofNode aggregate).init params width).2.feedAll images outlet
    let result := scan.run params (store.get scan.source) (scan.outlet context store)
    (result.outcome.map fun _ => ()) = hand.1 ∧ result.machine = some hand.2.1 ∧
      result.outlet.shared = hand.2.2.shared ∧
      (hand.1 = .ok () → result.source = .unheld (source.withRows
        (source.rows.toList.drop
          (feeding.taken window (admits node.predicate) source.rows.toList)))) := by
  intro source width hand feeding result
  obtain rfl := hready.node_eq
  have hmachine : scan.machine = some (.ofNode aggregate) := by
    rw [hready.machine_eq, haggregate]
    rfl
  have hstart := start_of_machine params (store.get scan.output.table) hmachine hready.source_free
  rcases hinit : (Machine.ofNode aggregate).init params width with ⟨outcome, machine⟩
  rw [show (Machine.ofNode aggregate).init params
    (scan.node.inputSchema (store.get scan.source).table.schema).width = _ from hinit] at hstart
  cases outcome with
  | error e =>
      have hhand : hand = (.error e, machine, outlet) := by
        simp only [hand, Machine.drive, hinit]
      have hrun : result = _ := run_of_start_error context hready hwindow hstart
      rw [hrun, hhand]
      refine ⟨rfl, rfl, hshared.symm, ?_⟩
      intro hdone
      cases hdone
  | ok scratch =>
      have hhand : hand = machine.complete images outlet := by
        simp only [hand, Machine.drive, hinit]
      have hfeeding : feeding = machine.feedAll images outlet := by
        simp only [feeding, hinit]
      have hscratch : scratch = Row.nulls width := Machine.scratch_of_init hinit
      have hwidth : ∀ projection ∈ scan.node.projection, scratch.length = projection.width := by
        intro projection hprojection
        have hsome : scan.node.projection = some projection := hprojection
        rw [hscratch, Row.length_nulls]
        simp only [width, ScanNode.inputSchema, hsome, Projection.width]
      obtain ⟨route, hroute, hrun⟩ := run_eq_drain context hready hwindow hstart hwidth
      obtain ⟨hdone, hstate, hwritten, hleft⟩ :=
        drain_of_machine machine hroute hselects
          (show (scan.outlet context store).shared = outlet.shared from hshared.symm)
      rw [← hrun] at hdone hstate hwritten hleft
      refine ⟨?_, ?_, ?_, ?_⟩
      · rw [hhand]
        exact hdone
      · rw [hhand]
        exact hstate
      · rw [hhand]
        exact hwritten
      · intro _
        rw [hfeeding]
        show (scan.run _ _ _).source = _
        rw [hleft, hready.source_free, SharedTable.unheld]

/-! ## The plan without its aggregation -/

/-- Without its aggregation a scan that is ready has the same source. -/
theorem source_of_unaggregated {schema : Schema} {bare : Scan} {after : Store}
    (hready : Ready node scan store)
    (hbare : Scan.init (.scan (node.unaggregated schema)) store = .ok (bare, after)) :
    bare.source = scan.source := by
  obtain ⟨before, ready, hinit, -⟩ := hready.accepted
  have hsource : node.source = .ok bare.source := (accepted_of_init hbare).source_eq
  rw [(accepted_of_init hinit).source_eq] at hsource
  exact (Except.ok.inj hsource).symm

/-- Without its aggregation, if it still has a stage, it is ready too: its output is a new table. -/
theorem ready_of_unaggregated {schema : Schema} {bare : Scan} {after : Store}
    (hready : Ready node scan store)
    (hbare : Scan.init (.scan (node.unaggregated schema)) store = .ok (bare, after))
    (hstages : (node.unaggregated schema).isPassThrough = false) :
    Ready (node.unaggregated schema) bare after ∧ after.get bare.source = store.get scan.source ∧
      (after.get bare.output.table).table.rows.toList = [] := by
  obtain ⟨hlt, -, -⟩ := hready.tables
  obtain ⟨table, -, howned, rfl⟩ := (accepted_of_init hbare).owned hstages
  have hsource := source_of_unaggregated hready hbare
  have hsame := Store.get_add_of_lt (.empty table.name (node.unaggregated schema).schema) hlt
  have houtput := store.get_add_self (.empty table.name (node.unaggregated schema).schema)
  rw [howned, Output.table, hsource]
  refine ⟨⟨⟨store, _, hbare, .refl _, hsource ▸ hlt⟩, hready.full, hstages, ?_, ?_⟩, hsame, ?_⟩
  · rw [hsource, hsame, hready.source_free]
  · rw [howned]
    exact congrArg SharedTable.hold houtput
  · exact congrArg (fun shared : SharedTable => shared.table.rows.toList) houtput

/-- **What the plan without its aggregation delivers** is what the plan selects. -/
theorem selects_of_unaggregated {schema : Schema} {bare : Scan} {after : Store} {context : Context}
    {params : List Value} {report : ScanReport} (hready : Ready node scan store)
    (hbare : Scan.init (.scan (node.unaggregated schema)) store = .ok (bare, after))
    (hok : (bare.execute context params after).outcome = .ok report) :
    let rows := (store.get scan.source).table.rows.toList
    let execution := bare.execute context params after
    ∃ window, WindowSpec.resolveOptional node.window params = .ok window ∧
      node.Selects window rows (execution.store.get bare.output.table).table.rows.toList ∧
      rows.drop (window.extent (admits node.predicate) rows) =
        if bare.output.isAliased then []
        else (execution.store.get bare.source).table.rows.toList := by
  intro rows execution
  have haccepted := accepted_of_init hbare
  have hsource := source_of_unaggregated hready hbare
  cases hstages : (node.unaggregated schema).isPassThrough with
  | true =>
      obtain ⟨haliased, rfl⟩ := haccepted.aliased hstages
      have hstore : execution.store = after := by
        simp only [execution, execute] at hok ⊢
        cases hname : bare.sourceName after with
        | error e => rfl
        | ok name =>
            simp only [haccepted.node_eq, hstages]
            split_ifs <;> rfl
      obtain ⟨hselects, hwindow, hextent⟩ := ScanNode.selects_of_isPassThrough hstages rows
      have hresolve : WindowSpec.resolveOptional node.window params = .ok .everything := by
        rw [show node.window = none from hwindow, WindowSpec.resolveOptional]
      refine ⟨.everything, hresolve, ?_, ?_⟩
      · rw [hstore, haliased, Output.table, hsource]
        exact hselects.of_unaggregated
      · rw [haliased, Output.isAliased, if_pos rfl]
        exact List.drop_eq_nil_of_le (Nat.le_of_eq hextent.symm)
  | false =>
      obtain ⟨hbareReady, hsame, hempty⟩ := ready_of_unaggregated hready hbare hstages
      have hwidth : ∀ projection ∈ (node.unaggregated schema).projection,
          (node.unaggregated schema).schema.width = projection.width := by
        intro projection hprojection
        have hsome : node.projection = some projection := hprojection
        simp only [ScanNode.unaggregated, ScanNode.inputSchema, hsome, Projection.width]
      obtain ⟨window, images, hwindow, hselects, houtput, hrest⟩ :=
        selects_of_execute hbareReady rfl hwidth rfl hok
      rw [hsame] at hselects hrest
      refine ⟨window, hwindow, ?_, ?_⟩
      · rw [houtput, SharedTable.table_appendAll, Table.toList_rows_appendAll, hempty,
          List.nil_append]
        exact hselects.of_unaggregated
      · obtain ⟨table, -, howned, -⟩ := haccepted.owned hstages
        rw [howned, Output.isAliased, if_neg (by simp), hrest]
        exact (Table.toList_rows_withRows _ _).symm

/-! ## Fusion -/

/-- **Fusion changes nothing.**  Take a scan that is ready and aggregates, and an execution of its
plan without the aggregation that succeeds; `delivered` are the rows that this has put into its
output.  Then the execution of the scan is the aggregation driven by hand over these rows, in its
outcome, in what it writes and in the state it leaves.  If it succeeds, it has taken the rows up to
the one after which the aggregation had enough or, if it never had, as many as the execution without
it; an execution without stages would have copied all rows. -/
theorem execute_fused (context other : Context) (meter : Meter) {params : List Value}
    {aggregate : AggregateNode} {bare : Scan} {after : Store} {report : ScanReport}
    (hready : Ready node scan store) (haggregate : node.aggregate = some aggregate)
    (hbare : Scan.init (.scan (node.unaggregated (store.get scan.source).table.schema)) store =
      .ok (bare, after))
    (hok : (bare.execute other params after).outcome = .ok report) :
    let source := (store.get scan.source).table
    let alone := bare.execute other params after
    let delivered := (alone.store.get bare.output.table).table.rows.toList
    let width := (node.inputSchema source.schema).width
    let outlet : Outlet := ⟨store.get scan.output.table, meter⟩
    let hand := (Machine.ofNode aggregate).drive params width delivered outlet
    let execution := scan.execute context params store
    (execution.outcome.map fun _ => ()) = hand.1 ∧
      execution.store.get scan.output.table = hand.2.2.shared ∧
      execution.scan.machine = some hand.2.1 ∧
      (hand.1 = .ok () → ∃ window,
        WindowSpec.resolveOptional node.window params = .ok window ∧
        let feeding := ((Machine.ofNode aggregate).init params width).2.feedAll delivered outlet
        execution.store.get scan.source = .unheld (source.withRows
          (match feeding.outcome with
          | .ok .enough => source.rows.toList.drop
              (reach (admits node.predicate) (window.offset + feeding.fed) source.rows.toList)
          | _ => if bare.output.isAliased then []
              else (alone.store.get bare.source).table.rows.toList))) := by
  intro source alone delivered width outlet hand execution
  obtain rfl := hready.node_eq
  obtain ⟨hsource, houtput, hne⟩ := hready.tables
  obtain ⟨window, hwindow, hselects, hrest⟩ := selects_of_unaggregated hready hbare hok
  obtain ⟨hout, hscan, hstore⟩ := execute_eq_run hready context params
  obtain ⟨hdone, hstate, hwritten, hleft⟩ :=
    run_of_aggregate context outlet hready haggregate hwindow hselects rfl
  refine ⟨?_, ?_, ?_, ?_⟩
  · rw [hout]
    refine Eq.trans ?_ hdone
    cases (scan.run params (store.get scan.source) (scan.outlet context store)).outcome <;> rfl
  · rw [hstore, get_output_writeBack houtput]
    exact hwritten
  · rw [hscan]
    exact hstate
  · intro hsuccess
    refine ⟨window, hwindow, ?_⟩
    intro feeding
    rw [hstore, get_source_writeBack hsource hne, hleft hsuccess]
    match hfed : feeding.outcome with
    | .error e =>
        exact absurd hfed (Machine.feedAll_ne_error_of_drive hsuccess e)
    | .ok .enough =>
        rw [Feeding.taken, hfed]
    | .ok .more =>
        rw [Feeding.taken, hfed]
        exact congrArg (fun rest => SharedTable.unheld (source.withRows rest)) hrest

/-! ### An example: the first of the counts -/

def countById : AggregateNode :=
  ⟨.serial, [.column 0], [⟨.countStar, none⟩], none, some ⟨some (.literal 1), none⟩,
    ⟨[⟨"id", .int⟩, ⟨"n", .int⟩]⟩⟩

/-- The first count among the ids greater than one. -/
def firstCount : ScanNode :=
  ⟨0, some people, [], false, false, some (.compare .gt (.column 0) (.constant (.int 1))), none,
    none, some countById, countById.schema⟩

/-- The scan that finds it, and the store with its output. -/
def firstCountScan : Scan × Store :=
  (⟨firstCount, 0, .owned 1, some (.ofNode countById)⟩,
    (peopleStore.add (.empty "people_vertexes" countById.schema)).2)

/-- The second id is counted as soon as the third is fed, and the fourth stays where it is. -/
theorem execute_fused_firstCount :
    let execution := firstCountScan.1.execute ⟨0, default, none, false, false⟩ [] firstCountScan.2
    (execution.outcome.map fun _ => ()) = .ok () ∧
      (execution.store.get 1).table.rows.toList = [[.int 2, .int 1]] ∧
      (execution.store.get 0).table.rows.toList = [[.int 4]] := by
  intro execution
  have hready : Ready firstCount firstCountScan.1 firstCountScan.2 :=
    ⟨⟨peopleStore, firstCountScan.2, rfl, .refl _, by decide⟩, rfl, rfl, rfl, rfl⟩
  have hbare : Scan.init (.scan (firstCount.unaggregated idSchema)) firstCountScan.2 =
      .ok (⟨firstCount.unaggregated idSchema, 0, .owned 2, none⟩,
        (firstCountScan.2.add (.empty "people_vertexes" idSchema)).2) := rfl
  have hok : (execute ⟨firstCount.unaggregated idSchema, 0, .owned 2, none⟩
      ⟨0, default, none, false, false⟩ []
      (firstCountScan.2.add (.empty "people_vertexes" idSchema)).2).outcome =
        .ok ⟨.scanned, ⟨4, 3⟩⟩ := rfl
  obtain ⟨hout, houtput, -, hsource⟩ :=
    execute_fused ⟨0, default, none, false, false⟩ _ default hready rfl hbare hok
  obtain ⟨window, hwindow, hrest⟩ := hsource rfl
  obtain rfl : .everything = window := Except.ok.inj hwindow
  refine ⟨hout, ?_, ?_⟩
  · rw [show execution.store.get 1 = _ from houtput]
    rfl
  · rw [show execution.store.get 0 = _ from hrest]
    rfl

end Scan

end GraphScan
