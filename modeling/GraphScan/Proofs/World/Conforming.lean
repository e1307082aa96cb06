import GraphScan.Proofs.Graph.Fetching
import GraphScan.Proofs.Scan.Pipeline
import GraphScan.Proofs.World.Contexts
import GraphScan.Proofs.World.Frame

/-!
# What the tables of a graph hold

A table of a graph is filled and emptied by many: by the graph when its rows are added, by clients,
and by scans that take their rows from it.  Each of them either checks the rows that it puts in or only
takes rows out, so that all rows fit the schema at all times.  This is why attributes can be fetched at
any time.

* `Store.Keeps` — what can be done to tables without a row that does not fit.
* `World.Deed` — **what clients do**, one thing at a time.  `World.Made` — a world made by such deeds.
* `World.Conforming` — the rows of vertices and edges fit their schemas.
* `World.Conforming.deed`, `World.Made.conforming` — a deed keeps it, and so it holds of every world.
* `World.fetch_selects` — **what a fetch gives in such a world**, exactly.
* `World.Made.exists_pipeline` — there, two filters in a row deliver what one does.
-/

namespace GraphScan

/-! ## Tables that conform -/

theorem Table.conforms_empty (name : String) (schema : Schema) :
    (Table.empty name schema).Conforms := by
  simp [Conforms, empty]

/-- Rows that are left where others have been taken fit. -/
theorem Table.Conforms.withRows {table : Table} (h : table.Conforms) {rows : List Row}
    (hrows : ∀ row ∈ rows, row ∈ table.rows) : (table.withRows rows).Conforms := by
  intro row hrow
  exact h row (hrows row (by simpa [Table.withRows] using hrow))

/-- **An insertion** adds a row that fits, or none. -/
theorem Table.Conforms.insert {shared : SharedTable} (h : shared.table.Conforms) (row : Row) :
    (shared.insert row).2.table.Conforms := by
  obtain ⟨e, hrefused⟩ | ⟨-, hfits, hinserted⟩ := shared.insert_cases row
  · rwa [hrefused]
  · rw [hinserted]
    intro other hother
    rcases Array.mem_push.mp hother with hold | rfl
    · exact h other hold
    · exact hfits

namespace Store

variable {store later last : Store} {id : TableId}

/-- **Tables that conform go on to do so**, and new ones do as well. -/
def Keeps (store later : Store) : Prop :=
  ∀ id, (store.get id).table.Conforms → (later.get id).table.Conforms

/-- There is no row where there is no table. -/
theorem conforms_of_size_le (h : store.tables.size ≤ id) : (store.get id).table.Conforms := by
  rw [get, Array.getD_eq_getD_getElem?, Array.getElem?_eq_none h]
  exact Table.conforms_empty _ _

theorem Keeps.refl (store : Store) : store.Keeps store :=
  fun _ h => h

theorem Keeps.trans (h : store.Keeps later) (h' : later.Keeps last) : store.Keeps last :=
  fun id hid => h' id (h id hid)

theorem Keeps.set {shared : SharedTable}
    (h : (store.get id).table.Conforms → shared.table.Conforms) :
    store.Keeps (store.set id shared) := by
  intro other hother
  rw [get_set]
  split_ifs with heq
  · obtain ⟨rfl, -⟩ := heq
    exact h hother
  · exact hother

theorem Keeps.add {table : Table} (h : table.Conforms) : store.Keeps (store.add table).2 := by
  intro other hother
  rcases Nat.lt_trichotomy other store.tables.size with hlt | rfl | hgt
  · rwa [get_add_of_lt table hlt]
  · rw [show (store.add table).2.get store.tables.size = .unheld table from get_add_self store table]
    exact h
  · exact conforms_of_size_le (by simpa [Store.add] using hgt)

theorem Keeps.insert (store : Store) (id : TableId) (row : Row) :
    store.Keeps (store.insert id row).2 :=
  .set fun hid => hid.insert row

end Store

/-! ## Rows of a graph -/

/-- A row that is filed fits, or is refused. -/
theorem Graph.keeps_file (graph : Graph) (store : Store) (table : TableId) (row : Row)
    (next : Except EngineError (Int64 × Graph)) :
    store.Keeps (graph.file store table row next).2.2 := by
  cases next with
  | error e => exact .refl store
  | ok added =>
      have hkeeps := Store.Keeps.insert store table row
      simp only [file]
      rcases hinsert : store.insert table row with ⟨_ | _, later⟩ <;> rw [hinsert] at hkeeps <;>
        exact hkeeps

/-- **Rows that are given to a graph** fit, or are refused. -/
theorem World.keeps_addGraphRows (graph : Graph) (store : Store) (rows : List GraphRow) :
    store.Keeps (addGraphRows graph store rows).2.2 := by
  induction rows generalizing graph store with
  | nil => exact .refl store
  | cons row rows ih =>
      have hfirst : store.Keeps (addGraphRow graph store row).2.2 := by
        cases row with
        | vertex cells => exact graph.keeps_file store _ _ _
        | edge cells => exact graph.keeps_file store _ _ _
      rcases hcall : addGraphRow graph store row with ⟨outcome, next, later⟩
      rw [hcall] at hfirst
      simp only [addGraphRows, hcall]
      exact hfirst.trans (ih next later)

namespace World

variable {world next : World}

/-! ## Deeds -/

/-- **What clients do to a world**, one thing at a time, be it refused or not. -/
inductive Deed : World → World → Prop where
  | table (world : World) (name : String) (schema : Schema) :
      Deed world (world.addTable (.empty name schema))
  | graph (world : World) (name : String) (vertexSchema edgeSchema : Schema) (rows : List GraphRow) :
      Deed world (world.addGraph name vertexSchema edgeSchema rows).2.2
  | scan (world : World) (plan : PlanNode) (hbinds : world.Binds plan) :
      Deed world (world.addScan plan).2
  /-- A row is put into any table, also one of a graph or of a scan. -/
  | insert (world : World) (id : TableId) (row : Row) :
      Deed world (world.changeTable id fun shared => shared.insert row).2
  /-- Rows are taken from the front of any table. -/
  | consume (world : World) (id : TableId) (count : Option Nat) :
      Deed world (world.consume id count).2
  /-- Any holds come and go. -/
  | hold (world : World) (store : Store) (hsize : store.tables.size = world.store.tables.size)
      (hsame : ∀ id, (store.get id).table = (world.store.get id).table) :
      Deed world { world with store }
  | execute (world : World) {index : Nat} {scan : Scan} (hscan : world.scan? index = some scan)
      (context : Context) (params : List Value) :
      Deed world (world.execute index scan context params).2
  | metrics (world : World) (change : Metrics → Metrics) : Deed world (world.withMetrics change)

/-- **A world made by deeds** of its clients, in any order. -/
def Made (world : World) : Prop :=
  Relation.ReflTransGen Deed empty world

/-- A deed is a step. -/
theorem Deed.step (h : Deed world next) : Step world next := by
  cases h with
  | table name schema => exact .table world _
  | graph name vertexSchema edgeSchema rows => exact .graph world name vertexSchema edgeSchema rows
  | scan plan hbinds => exact .scan world plan hbinds
  | insert id row =>
      refine step_changeTable world id (fun shared => ?_) (fun shared => ?_)
      all_goals obtain ⟨e, hrow⟩ | ⟨-, -, hrow⟩ := shared.insert_cases row
      all_goals simp [hrow, Table.append]
  | consume id count => exact step_consume world id count
  | hold store hsize hsame =>
      refine .use world store ⟨Nat.le_of_eq hsize.symm, fun id _ => ?_, fun id _ => ?_⟩ <;> rw [hsame]
  | execute hscan context params => exact .execute world hscan context params
  | metrics change => exact .metrics world change

theorem Made.reachable (h : Made world) : Reachable world :=
  Relation.ReflTransGen.mono (fun _ _ => Deed.step) _ _ h

/-! ## The invariant -/

/-- The output of a scan begins empty. -/
theorem keeps_addScan (world : World) (plan : PlanNode) :
    world.store.Keeps (world.addScan plan).2.store := by
  rw [World.addScan]
  rcases hinit : Scan.init plan world.store with e | ⟨made, ready⟩
  · exact .refl _
  cases plan with
  | projection | window | aggregate => cases hinit
  | scan node =>
      have haccepted := Scan.accepted_of_init hinit
      cases hstages : node.isPassThrough with
      | true =>
          obtain ⟨-, rfl⟩ := haccepted.aliased hstages
          exact .refl _
      | false =>
          obtain ⟨table, -, -, rfl⟩ := haccepted.owned hstages
          exact .add (Table.conforms_empty _ _)

/-- **The rows of vertices and edges fit their schemas.** -/
def Conforming (world : World) : Prop :=
  ∀ graph ∈ world.graphs, (world.store.get graph.vertexTable).table.Conforms ∧
    (world.store.get graph.edgeTable).table.Conforms

theorem Conforming.of_keeps (h : Conforming world) (hkeeps : world.store.Keeps next.store)
    (hgraphs : next.graphs = world.graphs) : Conforming next := by
  intro graph hgraph
  obtain ⟨hvertices, hedges⟩ := h graph (hgraphs ▸ hgraph)
  exact ⟨hkeeps _ hvertices, hkeeps _ hedges⟩

/-- A new graph begins with empty tables. -/
theorem Conforming.addGraph (h : Conforming world) (name : String) (vertexSchema edgeSchema : Schema)
    (rows : List GraphRow) : Conforming (world.addGraph name vertexSchema edgeSchema rows).2.2 := by
  let fresh := Graph.new name vertexSchema edgeSchema world.store
  have hkeeps : world.store.Keeps (world.addGraph name vertexSchema edgeSchema rows).2.2.store :=
    ((Store.Keeps.add (Table.conforms_empty _ _)).trans (.add (Table.conforms_empty _ _))).trans
      (keeps_addGraphRows fresh.1 fresh.2 rows)
  obtain ⟨made, store, hmade, hvertices, hedges, -⟩ :=
    exists_addGraph world name vertexSchema edgeSchema rows
  rw [hmade] at hkeeps ⊢
  intro graph hgraph
  rcases Array.mem_push.mp hgraph with hold | rfl
  · obtain ⟨hold, hold'⟩ := h graph hold
    exact ⟨hkeeps _ hold, hkeeps _ hold'⟩
  · -- Before the graph was made, there was nothing under these numbers.
    rw [hvertices, hedges]
    exact ⟨hkeeps _ (Store.conforms_of_size_le (Nat.le_refl _)),
      hkeeps _ (Store.conforms_of_size_le (Nat.le_succ _))⟩

/-- **An execution** adds rows to no table of a graph. -/
theorem Conforming.execute (h : Conforming world) (hsound : Sound world) {index : Nat} {scan : Scan}
    (hscan : world.scan? index = some scan) (context : Context) (params : List Value) :
    Conforming (world.execute index scan context params).2 := by
  have hframe := hsound.frame hscan context params
  have hkept (id : TableId) (howned : scan.output ≠ .owned id)
      (hid : (world.store.get id).table.Conforms) :
      ((world.execute index scan context params).2.store.get id).table.Conforms := by
    by_cases hsource : id = scan.source
    · subst hsource
      obtain ⟨taken, hloses⟩ := hframe.loses
      rw [hloses]
      exact hid.withRows fun row hrow => by simpa using List.mem_of_mem_drop hrow
    · rwa [hframe.others id hsource howned]
  intro graph hgraph
  have hforeign := fun id howned => hsound.owned_graph index id ⟨scan, hscan, howned⟩ graph hgraph
  obtain ⟨hvertices, hedges⟩ := h graph hgraph
  exact ⟨hkept _ (fun howned => (hforeign _ howned).1 rfl) hvertices,
    hkept _ (fun howned => (hforeign _ howned).2 rfl) hedges⟩

/-- **Every deed keeps it.** -/
theorem Conforming.deed (h : Conforming world) (hsound : Sound world) (hdeed : Deed world next) :
    Conforming next := by
  cases hdeed with
  | table name schema => exact h.of_keeps (.add (Table.conforms_empty name schema)) rfl
  | graph name vertexSchema edgeSchema rows => exact h.addGraph name vertexSchema edgeSchema rows
  | scan plan hbinds => exact h.of_keeps (keeps_addScan world plan) (world.later_addScan plan).1
  | insert id row => exact h.of_keeps (.set fun hid => hid.insert row) rfl
  | consume id count =>
      obtain ⟨taken, htaken⟩ := world.exists_consume id count
      rw [htaken]
      refine h.of_keeps (.set fun hid => hid.withRows fun row hrow => ?_) rfl
      simpa using List.mem_of_mem_drop hrow
  | hold store hsize hsame => exact h.of_keeps (fun id hid => by rwa [hsame]) rfl
  | execute hscan context params => exact h.execute hsound hscan context params
  | metrics change => exact h.of_keeps (.refl _) rfl

/-- **So it holds of every world that clients make.** -/
theorem Made.conforming (h : Made world) : Conforming world := by
  induction h with
  | refl => exact fun graph hgraph => by simp [empty] at hgraph
  | tail hsofar hdeed ih =>
      have hmade : Made _ := hsofar
      exact ih.deed hmade.reachable.sound hdeed

/-- The tables of a graph conform, both of them. -/
theorem Conforming.table (h : Conforming world) {graph : Graph} (hgraph : graph ∈ world.graphs)
    (element : ElementKind) : ((Snapshot.take graph world.store).table element).table.Conforms := by
  cases element with
  | vertex => exact (h graph hgraph).1
  | edge => exact (h graph hgraph).2

/-! ## Fetches -/

/-- **A fetch selects and projects, and fails at nothing else.**  Take a graph of any world that clients
have made, and any request for attributes of its vertices or edges: any ids, also repeated or unknown
ones, and any names, also repeated and in any case.  The fetch gives the one outcome that there is.

* If a writer holds the table, the error says so.
* Else, if some name is that of no column, the first such name is the error, which is reported as
  something remote that was not found.
* Else the answer is a new table.  Its columns are the first ones of the names, in the order of the
  names, or all columns if there are no names.  Its rows are those whose first cell is one of the ids,
  once each and in the order of the table, restricted to these columns.

A fetch gives nothing but its outcome.  An execution that fetches before it runs leaves the tables as
one does that does not fetch. -/
theorem fetch_selects (hmade : Made world) {graph : Graph} (hgraph : graph ∈ world.graphs)
    (request : FetchRequest) :
    let snapshot := Snapshot.take graph world.store
    let fetched := Fetcher.loopback.fetch request snapshot
    (∀ outcome, request.Outcome (snapshot.table request.element) outcome ↔ fetched = outcome) ∧
      (∀ e, fetched = .error e → e = .tableHeldExclusively ∨
        e.report.kind = .notFound ∧ e.report.origin = .remote) ∧
      ∀ (scan : Scan) (context : Context) (params : List Value),
        (scan.execute { context with fetcher := some .loopback } params world.store).store =
          (scan.execute { context with fetcher := none } params world.store).store := by
  intro snapshot fetched
  have hcomes : request.Outcome (snapshot.table request.element) fetched :=
    Fetcher.loopback_outcome request snapshot (hmade.conforming.table hgraph request.element)
  refine ⟨fun outcome => ⟨hcomes.unique, ?_⟩, fun e herror => ?_, fun scan context params => ?_⟩
  · rintro rfl
    exact hcomes
  · rw [herror] at hcomes
    cases hcomes with
    | held => exact .inl rfl
    | unknown => exact .inr ⟨rfl, rfl⟩
  · have htraced : ({ context with fetcher := some .loopback } : Context).traced =
        ({ context with fetcher := none } : Context).traced := rfl
    exact (scan.execute_alike htraced params world.store).store_eq

/-! ### An example: names that differ in case -/

/-- Three people, two of whom have a name. -/
def namesakes : List GraphRow :=
  [.vertex [.int 1, .text "Ann", .int 30], .vertex [.int 2, .text "Bob", .null],
    .vertex [.int 3, .null, .int 40]]

def namesakeSchema : Schema :=
  ⟨[⟨"id", .int⟩, ⟨"Name", .text⟩, ⟨"NAME", .int⟩]⟩

def namesakeWorld : World :=
  (empty.addGraph "people" namesakeSchema peopleEdges namesakes).2.2

def namesakeGraph : Graph :=
  (empty.addGraph "people" namesakeSchema peopleEdges namesakes).2.1

/-- The first column of the name is found in any case, and as often as it is asked for.  Ids may be
repeated or unknown.  The first name that is not found is the error. -/
theorem fetch_selects_namesakes :
    let request : FetchRequest := ⟨.vertex, .forHost 1, [3, 1, 3, 9], ["NAME", "Id", "name"]⟩
    let unknown : FetchRequest := ⟨.vertex, .forHost 1, [1], ["name", "Colour", "size"]⟩
    let vertices := (Snapshot.take namesakeGraph namesakeWorld.store).vertices
    Made namesakeWorld ∧ namesakeGraph ∈ namesakeWorld.graphs ∧
      request.Outcome vertices (.ok ⟨"people_vertexes_fetched",
        ⟨[⟨"Name", .text⟩, ⟨"id", .int⟩, ⟨"Name", .text⟩]⟩,
        #[[.text "Ann", .int 1, .text "Ann"], [.null, .int 3, .null]], 2⟩) ∧
      unknown.Outcome vertices (.error (.attributeMissing .vertex "Colour" "people_vertexes")) := by
  intro request unknown vertices
  have hmade : Made namesakeWorld := .tail .refl (.graph _ _ _ _ _)
  have hgraph : namesakeGraph ∈ namesakeWorld.graphs := Array.mem_push_self
  refine ⟨hmade, hgraph, ?_, ?_⟩
  · exact ((fetch_selects hmade hgraph request).1 _).mpr (by decide +kernel)
  · exact ((fetch_selects hmade hgraph unknown).1 _).mpr (by decide +kernel)

/-! ## Pipelines -/

/-- **Over a graph of such a world a pipeline of two filters is one filter**, if the outputs have the
schema of the vertex table: its rows fit. -/
theorem Made.exists_pipeline (hmade : Made world) {graph : Graph} (hgraph : graph ∈ world.graphs)
    {id : Nat} {p q : Expr} {context : Context} {params : List Value} {fused : Scan} {after : Store} :
    let schema := (world.store.get graph.vertexTable).table.schema
    (ScanNode.filtering id (some graph) [] false (.all [p, q]) schema).runOnce context params
        world.store = .ok (fused, after) →
      ∀ (firstId secondId : Nat) (secondGraph : Option Graph) (firstContext secondContext : Context)
        (firstParams secondParams : List Value),
      ∃ first middle second last,
        (ScanNode.filtering firstId (some graph) [] false p schema).runOnce firstContext firstParams
          world.store = .ok (first, middle) ∧
        (ScanNode.filtering secondId secondGraph [first.output.table] true q schema).runOnce
          secondContext secondParams middle = .ok (second, last) ∧
        (last.get second.output.table).table.rows.toList =
          (after.get fused.output.table).table.rows.toList := by
  intro schema hfused firstId secondId secondGraph firstContext secondContext firstParams secondParams
  have hlt := (hmade.reachable.sound.graph_lt graph hgraph).1
  obtain ⟨hfree, hsettled, hone⟩ := ScanNode.filtered_of_runOnce rfl hlt hfused
  obtain ⟨first, middle, second, last, hfirst, hsecond, hrows, -⟩ :=
    ScanNode.exists_pipeline hlt hfree hsettled
      (fun row hrow => (hmade.conforming graph hgraph).1 row (Array.mem_toList_iff.mp hrow))
      firstId secondId secondGraph firstContext secondContext firstParams secondParams
  refine ⟨first, middle, second, last, hfirst, hsecond, ?_⟩
  rw [hrows, hone.rows_eq, filter_admits_pair]

end World

end GraphScan
