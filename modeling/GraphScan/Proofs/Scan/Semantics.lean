import GraphScan.Proofs.Scan.Accepted

/-!
# What a scan does

A scan without an aggregation moves rows: it consumes a prefix of its source and appends the images
of the selected rows to its output.

* `ScanNode.Selects` — which rows a scan selects, and their images.
* `Scan.loop_of_selects` — the loop over the rows of a source, for every kind of sink.
* `Scan.execute_of_selects` — **the meaning of a scan**: outcome, output, source and everything
  else, for an execution at any time after the plan was accepted.
* `Scan.selects_of_execute` — the converse: an execution succeeds only if rows could be selected.
-/

namespace GraphScan

/-- **What a scan selects.**  The predicate has a value on every row that the window looks at, and
`images` are the images of the matches inside the window. -/
structure ScanNode.Selects (node : ScanNode) (window : Window) (rows images : List Row) : Prop where
  settled : ∀ row ∈ rows.take (window.extent (admits node.predicate) rows),
    Settled node.predicate row
  images : List.Forall₂ (fun row image => node.image row = .ok image)
    (window.cut (rows.filter (admits node.predicate))) images

namespace Scan

variable {scan : Scan} {window : Window} {rows images : List Row} {route : Route}

/-- **The loop feeds what the scan selects** to the sink of the run. -/
theorem loop_of_selects (machine : Option Machine) (outlet : Outlet)
    (hroute : ∀ row, route.image row = scan.node.image row)
    (hselects : scan.node.Selects window rows images) :
    Run.Follows (scan.begin window machine outlet) window (admits scan.node.predicate) rows
      (feedAll Run.deliver (scan.begin window machine outlet) images)
      ((scan.begin window machine outlet).loop route rows) := by
  refine Run.loop_follows _ rfl rfl (Gate.window_new _ window) rfl hselects.settled ?_
  exact hselects.images.imp fun row image himage => (hroute row).trans himage

theorem drain_of_none {source : SharedTable} {table : Table} {run final : Run} {rest : List Row}
    (hloop : run.loop route table.rows.toList = (.ok (), rest, final))
    (hmachine : final.machine = none) :
    drain source table route run =
      ⟨.ok ⟨final.scanned, final.gate.passed⟩, ⟨final.scanned, final.gate.passed⟩, none,
        { source with table := table.withRows rest }, final.outlet⟩ := by
  simp only [drain, hloop, Run.finish, hmachine]

/-- A run whose images are all inserted has taken the rows that the window looked at. -/
theorem drain_of_selects {source : SharedTable} {outlet : Outlet}
    (hroute : ∀ row, route.image row = scan.node.image row)
    (hselects : scan.node.Selects window source.table.rows.toList images)
    (hmore : (feedAll Run.deliver (scan.begin window none outlet) images).outcome = .ok .more) :
    let taken := window.extent (admits scan.node.predicate) source.table.rows.toList
    let result := drain source source.table route (scan.begin window none outlet)
    result.outcome = .ok ⟨taken, images.length⟩ ∧ result.machine = none ∧
      result.source =
        { source with table := source.table.withRows (source.table.rows.toList.drop taken) } ∧
      result.outlet.shared = outlet.shared.appendAll images := by
  intro taken result
  obtain ⟨-, hfed, hsink⟩ := Run.feedAll_deliver_of_ok rfl hmore
  obtain ⟨hout, hrest, hstate, hscanned, hpassed⟩ := loop_of_selects none outlet hroute hselects
  have htaken : (feedAll Run.deliver (scan.begin window none outlet) images).taken window
      (admits scan.node.predicate) source.table.rows.toList = taken := by
    rw [Feeding.taken, hmore]
  rcases hloop : (scan.begin window none outlet).loop route source.table.rows.toList
    with ⟨outcome, rest, final⟩
  rw [hloop, hmore] at hout
  rw [hloop, htaken] at hrest hscanned
  rw [hloop, hfed] at hpassed
  rw [hloop, hsink] at hstate
  obtain rfl : outcome = .ok () := hout
  obtain rfl : rest = _ := hrest
  have hmachine : final.machine = none := congrArg Prod.fst hstate
  have hshared : final.outlet.shared = outlet.shared.appendAll images := congrArg Prod.snd hstate
  have hresult : result = _ := drain_of_none hloop hmachine
  have hcounts : (⟨final.scanned, final.gate.passed⟩ : RowCounts) = ⟨taken, images.length⟩ := by
    rw [hscanned, hpassed, begin, Gate.new, Nat.zero_add, Nat.zero_add]
  rw [hresult, hcounts]
  exact ⟨rfl, rfl, rfl, hshared⟩

/-- A run without an aggregation that succeeds has selected rows, and inserted all their images. -/
theorem selects_of_drain {source : SharedTable} {outlet : Outlet} {counts : RowCounts}
    (hroute : ∀ row, route.image row = scan.node.image row)
    (hok : (drain source source.table route (scan.begin window none outlet)).outcome =
      .ok counts) :
    ∃ images, scan.node.Selects window source.table.rows.toList images ∧
      (feedAll Run.deliver (scan.begin window none outlet) images).outcome = .ok .more := by
  have hloop : ((scan.begin window none outlet).loop route source.table.rows.toList).1 =
      .ok () := by
    rcases h : (scan.begin window none outlet).loop route source.table.rows.toList
      with ⟨_ | _, rest, final⟩
    · simp [drain, h] at hok
    · rfl
  obtain ⟨hsettled, images, himages⟩ :=
    Run.selected_of_loop (scan.begin window none outlet) rfl rfl rfl (Gate.window_new _ window) hloop
  have hselects : scan.node.Selects window source.table.rows.toList images :=
    ⟨hsettled, himages.imp fun row image himage => (hroute row).symm.trans himage⟩
  have hout := (loop_of_selects none outlet hroute hselects).outcome
  rw [hloop] at hout
  obtain ⟨demand, hfeed, -⟩ := exists_of_map_eq_ok hout.symm
  exact ⟨images, hselects, (Run.feedAll_deliver_of_ok rfl hfeed).1⟩

variable {node : ScanNode} {store : Store}

/-- **The meaning of a scan.**  Take a scan that is ready and aggregates nothing.  If the predicate
has a value on the rows that the window looks at, and the selected rows have images that fit, then an
execution succeeds.  It has appended the images to the output, in order, taken from the source
exactly the rows looked at, and changed nothing else. -/
theorem execute_of_selects (context : Context) {params : List Value} (hready : Ready node scan store)
    (haggregate : node.aggregate = none)
    (hwidth : ∀ projection ∈ node.projection, node.schema.width = projection.width)
    (hwindow : WindowSpec.resolveOptional node.window params = .ok window)
    (hrows : rows = (store.get scan.source).table.rows.toList)
    (hselects : node.Selects window rows images)
    (hfits : ∀ image ∈ images, node.schema.Fits image) :
    let taken := window.extent (admits node.predicate) rows
    let execution := scan.execute context params store
    execution.outcome = .ok ⟨.scanned, ⟨taken, images.length⟩⟩ ∧
      execution.scan = scan ∧
      execution.store.get scan.output.table = (store.get scan.output.table).appendAll images ∧
      execution.store.get scan.source =
        .unheld ((store.get scan.source).table.withRows (rows.drop taken)) ∧
      ∀ id, id ≠ scan.source → id ≠ scan.output.table → execution.store.get id = store.get id := by
  intro taken execution
  subst hrows
  obtain rfl := hready.node_eq
  obtain ⟨hsource, houtput, hne⟩ := hready.tables
  have hmachine : scan.machine = none := by rw [hready.machine_eq, haggregate]; rfl
  have hstart := start_of_none params (store.get scan.source) hmachine hready.output_free
  rw [hready.schema_eq] at hstart
  obtain ⟨route, hroute, hrun⟩ := run_eq_drain context hready hwindow hstart
    fun projection h => (Row.length_nulls _).trans (hwidth projection h)
  obtain ⟨hout, hscan, hstore⟩ := execute_eq_run hready context params
  rw [← hready.schema_eq] at hfits
  have hmore := Run.feedAll_deliver_of_fits
    (scan.begin window none (scan.outlet context store)) rfl hready.output_free hfits
  obtain ⟨houtcome, hnone, hrest, hshared⟩ := drain_of_selects hroute hselects hmore
  rw [← hrun] at houtcome hnone hrest hshared
  refine ⟨?_, ?_, ?_, ?_, ?_⟩
  · rw [hout, houtcome]
    rfl
  · rw [hscan, hnone, ← hmachine]
  · rw [hstore, get_output_writeBack houtput, hshared, outlet]
  · rw [hstore, get_source_writeBack hsource hne, hrest, hready.source_free]
    rfl
  · intro id hidSource hidOutput
    rw [hstore, get_writeBack_of_ne hidSource hidOutput]

/-- **What an execution that succeeds has found.**  The converse: its window could be resolved, it
has selected rows, and it has done with them what a scan does. -/
theorem selects_of_execute {context : Context} {params : List Value} {report : ScanReport}
    (hready : Ready node scan store) (haggregate : node.aggregate = none)
    (hwidth : ∀ projection ∈ node.projection, node.schema.width = projection.width)
    (hrows : rows = (store.get scan.source).table.rows.toList)
    (hok : (scan.execute context params store).outcome = .ok report) :
    ∃ window images, WindowSpec.resolveOptional node.window params = .ok window ∧
      node.Selects window rows images ∧
      (scan.execute context params store).store.get scan.output.table =
        (store.get scan.output.table).appendAll images ∧
      (scan.execute context params store).store.get scan.source =
        .unheld ((store.get scan.source).table.withRows
          (rows.drop (window.extent (admits node.predicate) rows))) := by
  subst hrows
  obtain rfl := hready.node_eq
  obtain ⟨hsource, houtput, hne⟩ := hready.tables
  obtain ⟨hout, -, hstore⟩ := execute_eq_run hready context params
  cases hwindow : WindowSpec.resolveOptional scan.node.window params with
  | error e =>
      rw [hout, run_of_window_error hready hwindow] at hok
      cases hok
  | ok window =>
      have hmachine : scan.machine = none := by rw [hready.machine_eq, haggregate]; rfl
      have hstart := start_of_none params (store.get scan.source) hmachine hready.output_free
      rw [hready.schema_eq] at hstart
      obtain ⟨route, hroute, hrun⟩ := run_eq_drain context hready hwindow hstart
        fun projection h => (Row.length_nulls _).trans (hwidth projection h)
      rw [hrun] at hout hstore
      rw [hout] at hok
      obtain ⟨counts, hcounts, -⟩ := exists_of_map_eq_ok hok
      obtain ⟨images, hselects, hmore⟩ := selects_of_drain hroute hcounts
      obtain ⟨-, -, hrest, hshared⟩ := drain_of_selects hroute hselects hmore
      refine ⟨window, images, rfl, hselects, ?_, ?_⟩
      · rw [hstore, get_output_writeBack houtput, hshared, outlet]
      · rw [hstore, get_source_writeBack hsource hne, hrest, hready.source_free]
        rfl

/-! ### An example: the second of the matches -/

/-- Four vertices, and two edges out of the third. -/
def people : Graph :=
  ⟨"people", 0, 1, [⟨4, 0, 1⟩, ⟨3, 2, 0⟩, ⟨2, 0, 0⟩, ⟨1, 0, 1⟩], []⟩

def idSchema : Schema :=
  ⟨[⟨"id", .int⟩]⟩

def peopleStore : Store :=
  ⟨#[.unheld ⟨"people_vertexes", idSchema, #[[.int 1], [.int 2], [.int 3], [.int 4]], 4⟩]⟩

def degreeSchema : Schema :=
  ⟨[⟨"id", .int⟩, ⟨"out", .int⟩, ⟨"in", .int⟩]⟩

/-- The degrees of a vertex whose id is greater than one, behind as many others as the parameter
says. -/
def secondPerson : ScanNode :=
  ⟨0, some people, [], false, false, some (.compare .gt (.column 0) (.constant (.int 1))),
    some ⟨[.column 0], degreeSchema⟩, some ⟨some (.literal 1), some (.parameter 0)⟩, none,
    degreeSchema⟩

/-- The scan of these vertices, and the store with its output. -/
def secondPersonScan : Scan × Store :=
  (⟨secondPerson, 0, .owned 1, none⟩, (peopleStore.add (.empty "people_vertexes" degreeSchema)).2)

/-- The second match is the third row; the fourth stays where it is. -/
theorem execute_of_selects_secondPerson :
    let execution := secondPersonScan.1.execute ⟨0, default, none, false, false⟩ [.int 1]
      secondPersonScan.2
    execution.outcome = .ok ⟨.scanned, ⟨3, 1⟩⟩ ∧
      (execution.store.get 1).table.rows.toList = [[.int 3, .int 2, .int 0]] ∧
      (execution.store.get 0).table.rows.toList = [[.int 4]] := by
  intro execution
  have hselects : secondPerson.Selects ⟨some 1, 1⟩ [[.int 1], [.int 2], [.int 3], [.int 4]]
      [[.int 3, .int 2, .int 0]] := by
    refine ⟨?_, .cons rfl .nil⟩
    intro row hrow predicate hpredicate
    cases hpredicate
    have hmem : row = [.int 1] ∨ row = [.int 2] ∨ row = [.int 3] := by
      simpa [show Window.extent ⟨some 1, 1⟩ (admits secondPerson.predicate)
        [[.int 1], [.int 2], [.int 3], [.int 4]] = 3 by decide] using hrow
    rcases hmem with rfl | rfl | rfl <;> exact ⟨_, rfl⟩
  have hfits : ∀ image ∈ ([[.int 3, .int 2, .int 0]] : List Row), degreeSchema.Fits image := by
    intro image himage
    rw [List.mem_singleton.mp himage]
    exact .cons rfl (.cons rfl (.cons rfl .nil))
  have hready : Ready secondPerson secondPersonScan.1 secondPersonScan.2 :=
    ⟨⟨peopleStore, secondPersonScan.2, rfl, .refl _, by decide⟩, rfl, rfl, rfl, rfl⟩
  have hwindow : WindowSpec.resolveOptional secondPerson.window [.int 1] = .ok ⟨some 1, 1⟩ := rfl
  obtain ⟨hout, -, houtput, hsource, -⟩ := execute_of_selects ⟨0, default, none, false, false⟩ hready
    rfl (by decide) hwindow rfl hselects hfits
  refine ⟨hout, ?_, ?_⟩
  · rw [show execution.store.get 1 = _ from houtput]
    rfl
  · rw [show execution.store.get 0 = _ from hsource]
    rfl

end Scan

end GraphScan
