import GraphScan.Proofs.Scan.Delivery

/-!
# Accepted plans

What the check of a plan establishes for every later execution of the scan.

* `Scan.Accepted` — the tables, the aggregation and the projection of an accepted scan.
* `ScanNode.image` — the image of a row under the stages of a plan, with no scratch row in sight.
* `Store.Later` — what can become of a store in between: tables come in addition, and rows and holds
  come and go, but no table loses its name or its schema.
* `Scan.InUse` — an accepted scan at any time, whatever its earlier executions have come to.
* `Scan.Ready` — a scan with a stage that can be executed: nobody holds its tables.
* `Scan.execute_eq_run`, `Scan.run_eq_drain` — an execution is a run, and once everything is settled
  a run is the loop over the rows of the source.
-/

namespace GraphScan

/-! ## Stores as time goes by -/

/-- **A store after some of its time**: its tables are still there, under the same names and with
the same schemas, and there may be more. -/
structure Store.Later (store later : Store) : Prop where
  size_le : store.tables.size ≤ later.tables.size
  name_eq : ∀ id < store.tables.size, (later.get id).table.name = (store.get id).table.name
  schema_eq : ∀ id < store.tables.size, (later.get id).table.schema = (store.get id).table.schema

namespace Store.Later

theorem refl (store : Store) : store.Later store :=
  ⟨Nat.le_refl _, fun _ _ => rfl, fun _ _ => rfl⟩

theorem trans {first second third : Store} (h : first.Later second) (h' : second.Later third) :
    first.Later third where
  size_le := Nat.le_trans h.size_le h'.size_le
  name_eq id hid := (h'.name_eq id (Nat.lt_of_lt_of_le hid h.size_le)).trans (h.name_eq id hid)
  schema_eq id hid := (h'.schema_eq id (Nat.lt_of_lt_of_le hid h.size_le)).trans (h.schema_eq id hid)

theorem set {store : Store} {id : TableId} {shared : SharedTable}
    (hname : shared.table.name = (store.get id).table.name)
    (hschema : shared.table.schema = (store.get id).table.schema) :
    store.Later (store.set id shared) where
  size_le := Nat.le_of_eq (store.size_set id shared).symm
  name_eq other _ := by
    rw [get_set]
    split_ifs with h
    · rw [hname, h.1]
    · rfl
  schema_eq other _ := by
    rw [get_set]
    split_ifs with h
    · rw [hschema, h.1]
    · rfl

/-- Rows behind those of a table. -/
theorem append (store : Store) (id : TableId) (rows : List Row) :
    store.Later (store.set id ((store.get id).appendAll rows)) := by
  refine .set ?_ ?_
  · rw [SharedTable.table_appendAll, Table.name_appendAll]
  · rw [SharedTable.table_appendAll, Table.schema_appendAll]

/-- Rows from the front of a table, or any others. -/
theorem withRows (store : Store) (id : TableId) (rows : List Row) :
    store.Later (store.set id
      { store.get id with table := (store.get id).table.withRows rows }) := by
  refine .set ?_ ?_ <;> rfl

theorem add (store : Store) (table : Table) : store.Later (store.add table).2 where
  size_le := by simp [Store.add]
  name_eq id hid := by rw [get_add_of_lt table hid]
  schema_eq id hid := by rw [get_add_of_lt table hid]

end Store.Later

/-! ## Plans that were accepted -/

/-- **The image of a row**: the values of the projection and the degrees of the row's vertex or,
without a projection, the row itself. -/
def ScanNode.image (node : ScanNode) (row : Row) : Except EngineError Row :=
  match node.projection, node.graph with
  | some projection, some graph => do
    let vertex ← graph.vertexOf row
    let values ← Expr.evalEach row projection.exprs
    .ok (values ++ vertex.degrees)
  | _, _ => .ok row

namespace Scan

/-- A table can be read unless a writer holds it. -/
theorem read_eq_ok_iff {shared : SharedTable} {table : Table} :
    shared.read = .ok table ↔ shared.hold ≠ .writer ∧ table = shared.table := by
  rw [SharedTable.read]
  cases shared.hold <;> simp [eq_comm]

/-- **What the check of a plan establishes.** -/
structure Accepted (node : ScanNode) (store : Store) (scan : Scan) (ready : Store) : Prop where
  node_eq : scan.node = node
  source_eq : node.source = .ok scan.source
  projection_ok : node.checkProjection = .ok ()
  machine_eq : scan.machine = node.aggregate.map Machine.ofNode
  /-- Without stages the output is the source. -/
  aliased : node.isPassThrough = true → scan.output = .aliased scan.source ∧ ready = store
  /-- With stages it is a new table of the name of the source. -/
  owned : node.isPassThrough = false →
    ∃ table, (store.get scan.source).read = .ok table ∧ scan.output = .owned store.tables.size ∧
      ready = (store.add (.empty table.name node.schema)).2

theorem accepted_of_init {node : ScanNode} {store ready : Store} {scan : Scan}
    (h : Scan.init (.scan node) store = .ok (scan, ready)) : Accepted node store scan ready := by
  simp only [Scan.init, bind, Except.bind] at h
  cases hsource : node.source with
  | error e => simp [hsource] at h
  | ok source =>
      cases hcheck : node.checkProjection with
      | error e => simp [hsource, hcheck] at h
      | ok =>
          simp only [hsource, hcheck, bindOutput] at h
          cases hstages : node.isPassThrough with
          | true =>
              simp only [hstages, if_true, Except.ok.injEq, Prod.mk.injEq] at h
              obtain ⟨rfl, rfl⟩ := h
              exact ⟨rfl, hsource, hcheck, rfl, fun _ => ⟨rfl, rfl⟩,
                fun hfalse => absurd (hstages.symm.trans hfalse) (by simp)⟩
          | false =>
              simp only [hstages, bind, Except.bind] at h
              cases hread : (store.get source).read with
              | error e => simp [hread] at h
              | ok table =>
                  simp only [hread, Bool.false_eq_true, if_false, Except.ok.injEq,
                    Prod.mk.injEq] at h
                  obtain ⟨rfl, rfl⟩ := h
                  exact ⟨rfl, hsource, hcheck, rfl,
                    fun htrue => absurd (hstages.symm.trans htrue) (by simp),
                    fun _ => ⟨table, hread, rfl, rfl⟩⟩

/-- The output of a scan with stages is a table of its own, with the schema of the plan. -/
theorem Accepted.output_eq {node : ScanNode} {store ready : Store} {scan : Scan}
    (h : Accepted node store scan ready) (hstages : node.isPassThrough = false) :
    scan.output = .owned store.tables.size ∧ store.tables.size < ready.tables.size ∧
      (ready.get store.tables.size).table.schema = node.schema := by
  obtain ⟨table, -, howned, rfl⟩ := h.owned hstages
  refine ⟨howned, by simp [Store.add], ?_⟩
  exact congrArg (fun shared : SharedTable => shared.table.schema)
    (store.get_add_self (.empty table.name node.schema))

/-! ## Routes -/

/-- **A scratch row of the right width does not show**: the route gives every row its image. -/
theorem exists_route {scan : Scan} (scratch : Row)
    (hcheck : scan.node.checkProjection = .ok ())
    (hwidth : ∀ projection ∈ scan.node.projection, scratch.length = projection.width) :
    ∃ route, scan.route scratch = .ok route ∧ ∀ row, route.image row = scan.node.image row := by
  simp only [Scan.route, ScanNode.image, ScanNode.checkProjection] at hcheck ⊢
  cases hprojection : scan.node.projection with
  | none => exact ⟨none, rfl, fun row => rfl⟩
  | some projection =>
      have hscratch : scratch.length = projection.width := hwidth projection hprojection
      simp only [hprojection] at hcheck
      split_ifs at hcheck with hcolumns hgraph
      cases hnode : scan.node.graph with
      | none => simp [hnode] at hgraph
      | some graph =>
          refine ⟨some ⟨projection, graph, scratch⟩, by simp [hscratch], fun row => ?_⟩
          have happly := projection.apply_eq graph scratch row
            (hscratch.trans (not_not.mp hcolumns))
          simp only [Route.image, happly, bind]
          cases graph.vertexOf row with
          | error e => rfl
          | ok vertex => cases Expr.evalEach row projection.exprs <;> rfl

/-! ## Scans in use -/

/-- **A scan in use**: its plan was accepted some time ago.  It may have been executed any number of
times since then, and all that is left of this is the state of its aggregation. -/
structure InUse (node : ScanNode) (scan : Scan) (store : Store) : Prop where
  accepted : ∃ fresh before after, Scan.init (.scan node) before = .ok (fresh, after) ∧
    after.Later store ∧ fresh.source < before.tables.size ∧
    scan = { fresh with machine := scan.machine }
  machine_node : scan.machine.map Machine.node = node.aggregate

/-- A scan is in use as soon as its plan has been accepted. -/
theorem inUse_of_init {node : ScanNode} {store ready : Store} {scan : Scan}
    (h : Scan.init (.scan node) store = .ok (scan, ready))
    (hsource : scan.source < store.tables.size) : InUse node scan ready where
  accepted := ⟨scan, store, ready, h, .refl _, hsource, rfl⟩
  machine_node := by
    rw [(accepted_of_init h).machine_eq]
    cases node.aggregate <;> simp

namespace InUse

variable {node : ScanNode} {scan : Scan} {store : Store}

theorem node_eq (h : InUse node scan store) : scan.node = node := by
  obtain ⟨fresh, before, after, hinit, -, -, hscan⟩ := h.accepted
  rw [hscan]
  exact (accepted_of_init hinit).node_eq

theorem projection_ok (h : InUse node scan store) : node.checkProjection = .ok () := by
  obtain ⟨fresh, before, after, hinit, -⟩ := h.accepted
  exact (accepted_of_init hinit).projection_ok

theorem source_eq (h : InUse node scan store) : node.source = .ok scan.source := by
  obtain ⟨fresh, before, after, hinit, -, -, hscan⟩ := h.accepted
  rw [hscan]
  exact (accepted_of_init hinit).source_eq

/-- A scan with stages has an output of its own. -/
theorem owned (h : InUse node scan store) (hstages : node.isPassThrough = false) :
    scan.output = .owned scan.output.table ∧ scan.source < store.tables.size ∧
      scan.output.table < store.tables.size ∧ scan.source ≠ scan.output.table ∧
      (store.get scan.output.table).table.schema = node.schema := by
  obtain ⟨fresh, before, after, hinit, hlater, hsource, hscan⟩ := h.accepted
  obtain ⟨howned, hlt, hschema⟩ := (accepted_of_init hinit).output_eq hstages
  have houtput : scan.output = .owned before.tables.size := by rw [hscan, ← howned]
  have hsame : scan.source = fresh.source := by rw [hscan]
  have hsize : before.tables.size < store.tables.size := Nat.lt_of_lt_of_le hlt hlater.size_le
  rw [houtput, Output.table, hsame]
  refine ⟨rfl, Nat.lt_trans hsource hsize, hsize, Nat.ne_of_lt hsource, ?_⟩
  rw [hlater.schema_eq _ hlt, hschema]

theorem writable (h : InUse node scan store) (hstages : node.isPassThrough = false) :
    scan.output.writable = .ok scan.output.table := by
  rw [(h.owned hstages).1, Output.writable, Output.table]

theorem schema_eq (h : InUse node scan store) (hstages : node.isPassThrough = false) :
    (store.get scan.output.table).table.schema = node.schema :=
  (h.owned hstages).2.2.2.2

/-- Source and output are two tables of the store. -/
theorem tables (h : InUse node scan store) (hstages : node.isPassThrough = false) :
    scan.source < store.tables.size ∧ scan.output.table < store.tables.size ∧
      scan.source ≠ scan.output.table :=
  ⟨(h.owned hstages).2.1, (h.owned hstages).2.2.1, (h.owned hstages).2.2.2.1⟩

/-- A scan has an aggregation exactly if its plan has one. -/
theorem machine_eq_none_iff (h : InUse node scan store) :
    scan.machine = none ↔ node.aggregate = none := by
  rw [← h.machine_node, Option.map_eq_none_iff]

/-- A scan stays in use while time goes by. -/
theorem later {store later : Store} (h : InUse node scan store) (hlater : store.Later later) :
    InUse node scan later := by
  obtain ⟨fresh, before, after, hinit, hsofar, hsource, hscan⟩ := h.accepted
  exact ⟨⟨fresh, before, after, hinit, hsofar.trans hlater, hsource, hscan⟩, h.machine_node⟩

end InUse

/-! ## Scans about to run -/

/-- **A scan about to be executed**: its plan was accepted some time ago, is not marked empty and
has a stage, and nobody holds its source or its output. -/
structure Ready (node : ScanNode) (scan : Scan) (store : Store) : Prop where
  accepted : ∃ before after, Scan.init (.scan node) before = .ok (scan, after) ∧
    after.Later store ∧ scan.source < before.tables.size
  full : node.emptyScan = false
  stages : node.isPassThrough = false
  source_free : (store.get scan.source).hold = .free
  output_free : (store.get scan.output.table).hold = .free

namespace Ready

variable {node : ScanNode} {scan : Scan} {store : Store}

theorem inUse (h : Ready node scan store) : InUse node scan store := by
  obtain ⟨before, after, hinit, hlater, hsource⟩ := h.accepted
  have hlt : scan.source < before.tables.size := hsource
  exact (inUse_of_init hinit hlt).later hlater

theorem node_eq (h : Ready node scan store) : scan.node = node :=
  h.inUse.node_eq

theorem machine_eq (h : Ready node scan store) :
    scan.machine = node.aggregate.map Machine.ofNode := by
  obtain ⟨before, after, hinit, -⟩ := h.accepted
  exact (accepted_of_init hinit).machine_eq

theorem projection_ok (h : Ready node scan store) : node.checkProjection = .ok () :=
  h.inUse.projection_ok

theorem writable (h : Ready node scan store) :
    scan.output.writable = .ok scan.output.table :=
  h.inUse.writable h.stages

theorem schema_eq (h : Ready node scan store) :
    (store.get scan.output.table).table.schema = node.schema :=
  h.inUse.schema_eq h.stages

/-- Source and output are two tables of the store. -/
theorem tables (h : Ready node scan store) :
    scan.source < store.tables.size ∧ scan.output.table < store.tables.size ∧
      scan.source ≠ scan.output.table :=
  h.inUse.tables h.stages

end Ready

/-! ## From an execution to the loop -/

theorem read_of_free {shared : SharedTable} (h : shared.hold = .free) :
    shared.read = .ok shared.table := by
  rw [SharedTable.read, h]

/-- A source that can be read has a name. -/
theorem exists_sourceName {scan : Scan} {store : Store}
    (hfree : (store.get scan.source).hold = .free) : ∃ name, scan.sourceName store = .ok name := by
  rw [sourceName]
  cases scan.node.graph with
  | some graph => exact ⟨graph.name, rfl⟩
  | none => exact ⟨_, by rw [read_of_free hfree]; rfl⟩

/-- Without an aggregation there is nothing to start; the scratch row is one of the output table. -/
theorem start_of_none {scan : Scan} (params : List Value) (source : SharedTable)
    {output : SharedTable} (hmachine : scan.machine = none) (hfree : output.hold = .free) :
    scan.start params source output = (.ok (Row.nulls output.table.schema.width), none) := by
  simp only [start, hmachine, read_of_free hfree]
  rfl

def begin (scan : Scan) (window : Window) (machine : Option Machine) (outlet : Outlet) : Run :=
  ⟨.new scan.node.predicate window, machine, outlet, 0, ⟨0, 0⟩⟩

@[simp] theorem predicate_begin (scan : Scan) (window : Window) (machine : Option Machine)
    (outlet : Outlet) :
    (scan.begin window machine outlet).gate.predicate = scan.node.predicate := rfl

@[simp] theorem window_begin (scan : Scan) (window : Window) (machine : Option Machine)
    (outlet : Outlet) : (scan.begin window machine outlet).gate.window = window :=
  Gate.window_new scan.node.predicate window

@[simp] theorem sink_begin (scan : Scan) (window : Window) (machine : Option Machine)
    (outlet : Outlet) : (scan.begin window machine outlet).sink = (machine, outlet.shared) := rfl

def outlet (scan : Scan) (context : Context) (store : Store) : Outlet :=
  ⟨store.get scan.output.table, context.meter scan.node.id⟩

/-- A run leaves its output held as it was. -/
theorem hold_run (scan : Scan) (params : List Value) (source : SharedTable) (outlet : Outlet) :
    (scan.run params source outlet).outlet.shared.hold = outlet.shared.hold := by
  rw [run]
  split
  · rfl
  · rename_i window route table machine _
    simp only [drain]
    have hloop := Run.hold_loop route table.rows.toList
      ⟨.new scan.node.predicate window, machine, outlet, 0, ⟨0, 0⟩⟩
    split
    · exact hloop
    · split <;> simpa using hloop

/-- A look at the output for the log changes nothing that can be read. -/
theorem outcome_logged_of_readable {result : RunResult}
    (h : result.outlet.shared.hold ≠ .writer) (traced : Bool) :
    (result.logged traced).outcome = result.outcome := by
  have hread := read_eq_ok_iff.mpr ⟨h, rfl⟩
  cases houtcome : result.outcome <;> cases traced <;>
    simp [RunResult.logged, houtcome, hread, bind, Except.bind]

/-- What is reported as a success was one. -/
theorem ok_of_logged {result : RunResult} {traced : Bool} {counts : RowCounts}
    (h : (result.logged traced).outcome = .ok counts) : result.outcome = .ok counts := by
  cases houtcome : result.outcome with
  | error e => simp [RunResult.logged, houtcome, bind, Except.bind] at h
  | ok found =>
      cases hread : result.outlet.shared.read <;> cases traced <;>
        simp [RunResult.logged, houtcome, hread, bind, Except.bind] at h <;> rw [h]

/-- What is reported as a failure was one, or the output could not be looked at. -/
theorem error_of_logged {result : RunResult} {traced : Bool} {e : EngineError}
    (h : (result.logged traced).outcome = .error e) :
    result.outcome = .error e ∨
      traced = true ∧ (∃ counts, result.outcome = .ok counts) ∧
        result.outlet.shared.read = .error e := by
  cases houtcome : result.outcome with
  | error e' => simpa [RunResult.logged, houtcome, bind, Except.bind] using h
  | ok counts =>
      cases hread : result.outlet.shared.read <;> cases traced <;>
        simp [RunResult.logged, houtcome, hread, bind, Except.bind] at h ⊢
      exact h

/-- **An execution of a scan that is ready** is a run on the tables of the store. -/
theorem execute_eq_run {node : ScanNode} {scan : Scan} {store : Store}
    (h : Ready node scan store) (context : Context) (params : List Value) :
    let result := scan.run params (store.get scan.source) (scan.outlet context store)
    (scan.execute context params store).outcome =
        (result.outcome.map fun counts => ⟨.scanned, counts⟩) ∧
      (scan.execute context params store).scan = { scan with machine := result.machine } ∧
      (scan.execute context params store).store = scan.writeBack store result := by
  obtain rfl := h.node_eq
  obtain ⟨name, hname⟩ := exists_sourceName h.source_free
  have hreadable : (scan.run params (store.get scan.source)
      (scan.outlet context store)).outlet.shared.hold ≠ .writer := by
    rw [hold_run, outlet, h.output_free]
    simp
  simp only [execute, hname, h.full, h.stages, Bool.false_eq_true, if_false]
  exact ⟨congrArg _ (outcome_logged_of_readable hreadable _), rfl, rfl⟩

/-- **Once everything is settled a run is the loop** over the rows of the source, along a route that
gives every row its image. -/
theorem run_eq_drain {node : ScanNode} {scan : Scan} {store : Store} (context : Context)
    {params : List Value} {window : Window} {scratch : Row} {machine : Option Machine}
    (h : Ready node scan store)
    (hwindow : WindowSpec.resolveOptional node.window params = .ok window)
    (hstart : scan.start params (store.get scan.source) (store.get scan.output.table) =
      (.ok scratch, machine))
    (hwidth : ∀ projection ∈ node.projection, scratch.length = projection.width) :
    ∃ route : Route, (∀ row, route.image row = scan.node.image row) ∧
      scan.run params (store.get scan.source) (scan.outlet context store) =
        drain (store.get scan.source) (store.get scan.source).table route
          (scan.begin window machine (scan.outlet context store)) := by
  obtain rfl := h.node_eq
  obtain ⟨route, hroute, himage⟩ := exists_route scratch h.projection_ok hwidth
  refine ⟨route, himage, ?_⟩
  have hprepare : scan.prepare params (store.get scan.source) (scan.outlet context store) =
      (.ok (window, route, (store.get scan.source).table), machine) := by
    simp only [prepare, outlet, hwindow, h.writable, hstart, hroute,
      SharedTable.write, h.source_free, bind, Except.bind]
  simp only [run, hprepare]
  rfl

/-- A run needs a window, and starts the aggregation only then. -/
theorem run_of_window_error {node : ScanNode} {scan : Scan} {store : Store} {context : Context}
    {params : List Value} {e : EngineError} (h : Ready node scan store)
    (hwindow : WindowSpec.resolveOptional node.window params = .error e) :
    scan.run params (store.get scan.source) (scan.outlet context store) =
      ⟨.error e, ⟨0, 0⟩, scan.machine, store.get scan.source, scan.outlet context store⟩ := by
  obtain rfl := h.node_eq
  have hprepare : scan.prepare params (store.get scan.source) (scan.outlet context store) =
      (.error e, scan.machine) := by
    simp only [prepare, hwindow, bind, Except.bind]
  simp only [run, hprepare]

/-! ## The store after a run -/

variable {scan : Scan} {store : Store} {result : RunResult}

theorem get_source_writeBack (hsource : scan.source < store.tables.size)
    (hne : scan.source ≠ scan.output.table) :
    (scan.writeBack store result).get scan.source = result.source := by
  rw [writeBack, Store.get_set, if_neg (fun h => hne h.1.symm), Store.get_set,
    if_pos ⟨rfl, hsource⟩]

theorem get_output_writeBack (houtput : scan.output.table < store.tables.size) :
    (scan.writeBack store result).get scan.output.table = result.outlet.shared := by
  rw [writeBack, Store.get_set, if_pos ⟨rfl, by rwa [Store.size_set]⟩]

theorem get_writeBack_of_ne {id : TableId} (hsource : id ≠ scan.source)
    (houtput : id ≠ scan.output.table) :
    (scan.writeBack store result).get id = store.get id := by
  rw [writeBack, Store.get_set, if_neg (fun h => houtput h.1.symm), Store.get_set,
    if_neg (fun h => hsource h.1.symm)]

end Scan

end GraphScan
