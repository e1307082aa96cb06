import GraphScan.Proofs.Graph.Records
import GraphScan.Proofs.Scan.Ending
import Mathlib.Logic.Relation

/-!
# Worlds as they come about

A world begins empty, and then things are made, used and executed, in any order.  Graphs, scans and
clients know tables by number, so that one table can have many names; this file says which names can
never meet.

* `ScanNode.Reads` — the child that a subquery takes its rows from.
* `World.Step` — one step of a world.  `World.Reachable` — a world after any number of steps.
* `World.Sound` — **what holds of the tables of a world**: a table that a scan owns is the output of no
  other scan, belongs to no graph and to no client, and is younger than all that its plan refers to.
* `World.Sound.step`, `World.Reachable.sound` — a step keeps it, and so it holds of every world.
* `World.Step.scan_eq`, `World.scan_later` — **the handles of a scan never change**.
-/

namespace GraphScan

/-! ## Sources -/

/-- **The child that a subquery takes its rows from.** -/
def ScanNode.Reads (node : ScanNode) (child : TableId) : Prop :=
  node.subquery = true ∧ node.children = [child]

/-- The source of a scan is the child of the subquery, or else the vertex table of its graph. -/
theorem ScanNode.source_cases {node : ScanNode} {source : TableId}
    (h : node.source = .ok source) :
    node.Reads source ∨
      node.subquery = false ∧ ∃ graph, node.graph = some graph ∧ source = graph.vertexTable := by
  rw [ScanNode.source] at h
  split_ifs at h with hsubquery
  · rcases hchildren : node.children with _ | ⟨child, _ | ⟨_, _⟩⟩
    · simp [hchildren] at h
    · rw [hchildren] at h
      obtain rfl := Except.ok.inj h
      exact .inl ⟨hsubquery, hchildren⟩
    · simp [hchildren] at h
  · refine .inr ⟨by simpa using hsubquery, ?_⟩
    cases hgraph : node.graph with
    | none => simp [hgraph] at h
    | some graph =>
        rw [hgraph] at h
        exact ⟨graph, rfl, (Except.ok.inj h).symm⟩

/-! ## Stores -/

/-- Rows added to a graph leave the tables under their names and with their schemas. -/
theorem World.later_addGraphRow (graph : Graph) (store : Store) (given : World.GraphRow) :
    store.Later (World.addGraphRow graph store given).2.2 := by
  rcases Graph.addGraphRow_cases graph store given with
    ⟨e, hcall⟩ | ⟨row, id, -, -, hcall⟩ | ⟨row, edge, -, -, -, -, hcall⟩
  · rw [hcall]
    exact .refl store
  · rw [hcall]
    exact .append store graph.vertexTable [row]
  · rw [hcall]
    exact .append store graph.edgeTable [row]

/-- So do any number of rows. -/
theorem World.addGraphRows_keeps (graph : Graph) (store : Store) (rows : List World.GraphRow) :
    store.Later (World.addGraphRows graph store rows).2.2 ∧
      (World.addGraphRows graph store rows).2.1.vertexTable = graph.vertexTable ∧
      (World.addGraphRows graph store rows).2.1.edgeTable = graph.edgeTable := by
  induction rows generalizing graph store with
  | nil => exact ⟨.refl store, rfl, rfl⟩
  | cons row rows ih =>
      obtain ⟨hvertices, hedges⟩ := Graph.tables_addGraphRow graph store row
      have hfirst := later_addGraphRow graph store row
      rcases hcall : World.addGraphRow graph store row with ⟨outcome, next, later⟩
      rw [hcall] at hvertices hedges hfirst
      obtain ⟨hlater, hvertices', hedges'⟩ := ih next later
      simp only [addGraphRows, hcall]
      exact ⟨hfirst.trans hlater, hvertices'.trans hvertices, hedges'.trans hedges⟩

namespace World

/-! ## Steps -/

/-- **A plan that refers to what there is**: its graph is one of the world, and its children are
tables. -/
def Binds (world : World) : PlanNode → Prop
  | .scan node => (∀ graph ∈ node.graph, graph ∈ world.graphs) ∧
    ∀ child ∈ node.children, child < world.store.tables.size
  | _ => True

/-- **One step of a world.** -/
inductive Step : World → World → Prop where
  | table (world : World) (table : Table) : Step world (world.addTable table)
  | graph (world : World) (name : String) (vertexSchema edgeSchema : Schema)
      (rows : List GraphRow) : Step world (world.addGraph name vertexSchema edgeSchema rows).2.2
  | scan (world : World) (plan : PlanNode) (hbinds : world.Binds plan) :
      Step world (world.addScan plan).2
  /-- Rows and holds of any tables come and go. -/
  | use (world : World) (store : Store) (hlater : world.store.Later store) :
      Step world { world with store }
  | execute (world : World) {index : Nat} {scan : Scan} (hscan : world.scan? index = some scan)
      (context : Context) (params : List Value) :
      Step world (world.execute index scan context params).2
  | metrics (world : World) (change : Metrics → Metrics) : Step world (world.withMetrics change)

/-- A world after any number of steps. -/
def Leads (world later : World) : Prop :=
  Relation.ReflTransGen Step world later

def Reachable (world : World) : Prop :=
  Leads empty world

/-! ## What clients do -/

/-- **What consuming comes to**: rows are gone from the front of a table, and nothing else.  If it is
refused, none are. -/
theorem exists_consume (world : World) (id : TableId) (count : Option Nat) :
    ∃ taken, (world.consume id count).2 = { world with
      store := world.store.set id { world.store.get id with
        table := (world.store.get id).table.withRows
          ((world.store.get id).table.rows.toList.drop taken) } } := by
  simp only [World.consume, Store.consume, SharedTable.consume]
  cases hwrite : (world.store.get id).write with
  | error e => exact ⟨0, rfl⟩
  | ok table =>
      obtain ⟨-, rfl⟩ := Scan.hold_of_write hwrite
      exact ⟨_, rfl⟩

/-- Consuming rows is a step. -/
theorem step_consume (world : World) (id : TableId) (count : Option Nat) :
    Step world (world.consume id count).2 := by
  obtain ⟨taken, htaken⟩ := world.exists_consume id count
  rw [htaken]
  exact .use world _ (.withRows world.store id _)

/-- A change that keeps the name and the schema of a table is a step: an insertion, or a hold. -/
theorem step_changeTable (world : World) (id : TableId)
    {change : SharedTable → Except EngineError Unit × SharedTable}
    (hname : ∀ shared, (change shared).2.table.name = shared.table.name)
    (hschema : ∀ shared, (change shared).2.table.schema = shared.table.schema) :
    Step world (world.changeTable id change).2 :=
  .use world _ (.set (hname _) (hschema _))

/-- Releasing all holds is a step. -/
theorem step_release (world : World) : Step world world.release := by
  refine .use world _ ⟨?_, ?_, ?_⟩
  · simp [Store.release]
  · intro id hid
    simp [Store.release, Store.get, hid, SharedTable.release]
  · intro id hid
    simp [Store.release, Store.get, hid, SharedTable.release]

/-! ## Sound worlds -/

/-- A scan owns a table if this is its output and not its source. -/
def Owns (world : World) (index : Nat) (id : TableId) : Prop :=
  ∃ scan, world.scan? index = some scan ∧ scan.output = .owned id

/-- **The tables of a world.** -/
structure Sound (world : World) : Prop where
  graph_lt : ∀ graph ∈ world.graphs,
    graph.vertexTable < world.store.tables.size ∧ graph.edgeTable < world.store.tables.size
  graph_ne : ∀ graph ∈ world.graphs, ∀ other ∈ world.graphs, graph.vertexTable ≠ other.edgeTable
  table_lt : ∀ id ∈ world.tables, id < world.store.tables.size
  inUse : ∀ index scan, world.scan? index = some scan → Scan.InUse scan.node scan world.store
  graph_mem : ∀ index scan, world.scan? index = some scan →
    ∀ graph ∈ scan.node.graph, graph ∈ world.graphs
  /-- What a plan refers to was there before its output. -/
  children_lt : ∀ index scan id, world.scan? index = some scan → scan.output = .owned id →
    ∀ child ∈ scan.node.children, child < id
  owned_graph : ∀ index id, world.Owns index id →
    ∀ graph ∈ world.graphs, id ≠ graph.vertexTable ∧ id ≠ graph.edgeTable
  owned_table : ∀ index id, world.Owns index id → ∀ table ∈ world.tables, id ≠ table
  owned_ne : ∀ index other id, world.Owns index id → world.Owns other id → index = other

end World

namespace Scan

variable {node : ScanNode} {scan : Scan} {store : Store}

/-- **A scan hands on its source itself exactly if it has no stage.** -/
theorem InUse.isAliased_iff (h : InUse node scan store) :
    scan.output.isAliased = true ↔ node.isPassThrough = true := by
  obtain ⟨fresh, before, after, hinit, -, -, hscan⟩ := h.accepted
  have haccepted := accepted_of_init hinit
  rw [hscan]
  show fresh.output.isAliased = true ↔ _
  cases hstages : node.isPassThrough with
  | true => simp [(haccepted.aliased hstages).1, Output.isAliased]
  | false => simp [(haccepted.output_eq hstages).1, Output.isAliased]

theorem InUse.aliased (h : InUse node scan store) (hstages : node.isPassThrough = true) :
    scan.output = .aliased scan.source := by
  obtain ⟨fresh, before, after, hinit, -, -, hscan⟩ := h.accepted
  rw [hscan]
  exact ((accepted_of_init hinit).aliased hstages).1

/-- A table that a scan owns is a table. -/
theorem InUse.owned_lt (h : InUse node scan store) {id : TableId} (howned : scan.output = .owned id) :
    node.isPassThrough = false ∧ id < store.tables.size ∧ scan.source ≠ id := by
  have hstages : node.isPassThrough = false := by
    rw [← Bool.not_eq_true, ← h.isAliased_iff, howned]
    simp [Output.isAliased]
  obtain ⟨-, hlt, hne⟩ := h.tables hstages
  rw [howned, Output.table] at hlt hne
  exact ⟨hstages, hlt, hne⟩

end Scan

namespace World

variable {world next : World}

/-! ## What is there already -/

theorem Sound.owned_lt (h : Sound world) {index : Nat} {id : TableId} (howns : world.Owns index id) :
    id < world.store.tables.size := by
  obtain ⟨scan, hscan, howned⟩ := howns
  exact ((h.inUse index scan hscan).owned_lt howned).2.1

/-- The tables of the graphs are there in a later store too. -/
theorem Sound.graph_lt_later (h : Sound world) {store : Store} (hlater : world.store.Later store)
    {graph : Graph} (hgraph : graph ∈ world.graphs) :
    graph.vertexTable < store.tables.size ∧ graph.edgeTable < store.tables.size := by
  obtain ⟨hvertices, hedges⟩ := h.graph_lt graph hgraph
  exact ⟨Nat.lt_of_lt_of_le hvertices hlater.size_le, Nat.lt_of_lt_of_le hedges hlater.size_le⟩

theorem Sound.table_lt_later (h : Sound world) {store : Store} (hlater : world.store.Later store)
    {id : TableId} (hid : id ∈ world.tables) : id < store.tables.size :=
  Nat.lt_of_lt_of_le (h.table_lt id hid) hlater.size_le

/-- And a scan can still be used. -/
theorem Sound.inUse_later (h : Sound world) {store : Store} (hlater : world.store.Later store)
    {index : Nat} {scan : Scan} (hscan : world.scan? index = some scan) :
    Scan.InUse scan.node scan store :=
  (h.inUse index scan hscan).later hlater

/-! ## Steps that keep the scans -/

theorem sound_empty : Sound empty := by
  constructor <;> simp [empty, scan?, Owns]

/-- A step that makes no graph, no table of a client and no scan, and keeps the plan and the output of
every scan. -/
theorem Sound.of_scans (h : Sound world) (hlater : world.store.Later next.store)
    (hgraphs : next.graphs = world.graphs) (htables : next.tables = world.tables)
    (hscans : ∀ index now, next.scan? index = some now → ∃ scan, world.scan? index = some scan ∧
      now.node = scan.node ∧ now.output = scan.output ∧ Scan.InUse now.node now next.store) :
    Sound next := by
  have howns : ∀ index id, next.Owns index id → world.Owns index id := by
    rintro index id ⟨now, hnow, howned⟩
    obtain ⟨scan, hscan, -, houtput, -⟩ := hscans index now hnow
    exact ⟨scan, hscan, houtput ▸ howned⟩
  constructor
  · intro graph hgraph
    rw [hgraphs] at hgraph
    exact h.graph_lt_later hlater hgraph
  · rw [hgraphs]
    exact h.graph_ne
  · rw [htables]
    exact fun id hid => h.table_lt_later hlater hid
  · intro index now hnow
    obtain ⟨scan, -, -, -, huse⟩ := hscans index now hnow
    exact huse
  · intro index now hnow
    obtain ⟨scan, hscan, hnode, -, -⟩ := hscans index now hnow
    rw [hnode, hgraphs]
    exact h.graph_mem index scan hscan
  · intro index now id hnow howned
    obtain ⟨scan, hscan, hnode, houtput, -⟩ := hscans index now hnow
    rw [hnode]
    exact h.children_lt index scan id hscan (houtput ▸ howned)
  · intro index id howned
    rw [hgraphs]
    exact h.owned_graph index id (howns index id howned)
  · intro index id howned
    rw [htables]
    exact h.owned_table index id (howns index id howned)
  · intro index other id howned howned'
    exact h.owned_ne index other id (howns index id howned) (howns other id howned')

theorem Sound.use (h : Sound world) {store : Store} (hlater : world.store.Later store) :
    Sound { world with store } := by
  refine h.of_scans hlater rfl rfl fun index scan hscan => ?_
  exact ⟨scan, hscan, rfl, rfl, h.inUse_later hlater hscan⟩

theorem lt_of_scan? {index : Nat} {scan : Scan} (hscan : world.scan? index = some scan) :
    index < world.scans.size := by
  by_contra hge
  rw [scan?, Array.getElem?_eq_none (Nat.le_of_not_lt hge)] at hscan
  cases hscan

/-- An execution replaces its scan, and only the aggregation of it. -/
theorem scan?_execute {index : Nat} {scan : Scan} (hscan : world.scan? index = some scan)
    (context : Context) (params : List Value) (other : Nat) :
    (world.execute index scan context params).2.scan? other =
      if other = index then some (scan.execute context params world.store).scan
      else world.scan? other := by
  have hlt := lt_of_scan? hscan
  simp only [World.execute, scan?, Array.getElem?_setIfInBounds]
  by_cases heq : other = index
  · subst heq
    simp [hlt]
  · rw [if_neg heq, if_neg (Ne.symm heq)]

theorem Sound.execute (h : Sound world) {index : Nat} {scan : Scan}
    (hscan : world.scan? index = some scan) (context : Context) (params : List Value) :
    Sound (world.execute index scan context params).2 := by
  have huse := h.inUse index scan hscan
  obtain ⟨heffect, hsame, -⟩ := huse.effect context params
  have hlater : world.store.Later (world.execute index scan context params).2.store :=
    heffect.later fun hstages => (huse.tables hstages).2.2
  refine h.of_scans hlater rfl rfl fun other now hnow => ?_
  rw [scan?_execute hscan] at hnow
  split_ifs at hnow with heq
  · obtain rfl := Option.some.inj hnow
    have hnode : (scan.execute context params world.store).scan.node = scan.node := by rw [hsame]
    refine ⟨scan, heq ▸ hscan, hnode, by rw [hsame], ?_⟩
    rw [hnode]
    exact huse.execute context params
  · exact ⟨now, hnow, rfl, rfl, h.inUse_later hlater hnow⟩

/-! ## Steps that make something -/

/-- A new table is not one that a scan owns, and is younger than all others. -/
theorem Sound.addTable (h : Sound world) (table : Table) : Sound (world.addTable table) := by
  have hlater : world.store.Later (world.addTable table).store := .add world.store table
  have hmem {id : TableId} (hid : id ∈ (world.addTable table).tables) :
      id ∈ world.tables ∨ id = world.store.tables.size := Array.mem_push.mp hid
  have hsize : (world.addTable table).store.tables.size = world.store.tables.size + 1 := by
    simp [World.addTable, Store.add]
  constructor
  · exact fun graph hgraph => h.graph_lt_later hlater hgraph
  · exact h.graph_ne
  · intro id hid
    rw [hsize]
    rcases hmem hid with hold | rfl
    · exact Nat.lt_succ_of_lt (h.table_lt id hold)
    · exact Nat.lt_succ_self _
  · exact fun index scan hscan => h.inUse_later hlater hscan
  · exact h.graph_mem
  · exact h.children_lt
  · exact h.owned_graph
  · intro index id howned id' hid
    rcases hmem hid with hold | rfl
    · exact h.owned_table index id howned id' hold
    · exact Nat.ne_of_lt (h.owned_lt howned)
  · exact h.owned_ne

/-- A graph that is added has two new tables. -/
theorem exists_addGraph (world : World) (name : String) (vertexSchema edgeSchema : Schema)
    (rows : List GraphRow) :
    ∃ graph store, (world.addGraph name vertexSchema edgeSchema rows).2.2 =
        { world with store, graphs := world.graphs.push graph } ∧
      graph.vertexTable = world.store.tables.size ∧
      graph.edgeTable = world.store.tables.size + 1 ∧ world.store.Later store ∧
      world.store.tables.size + 1 < store.tables.size := by
  let fresh := Graph.new name vertexSchema edgeSchema world.store
  obtain ⟨hlater, hvertices, hedges⟩ := addGraphRows_keeps fresh.1 fresh.2 rows
  have hfresh : world.store.Later fresh.2 :=
    (Store.Later.add world.store (.empty (name ++ "_vertexes") vertexSchema)).trans (.add _ _)
  have hvertexTable : fresh.1.vertexTable = world.store.tables.size := rfl
  have hedgeTable : fresh.1.edgeTable = world.store.tables.size + 1 := by
    simp [fresh, Graph.new, Store.add]
  have hsize : fresh.2.tables.size = world.store.tables.size + 2 := by
    simp [fresh, Graph.new, Store.add]
  refine ⟨_, _, rfl, hvertices.trans hvertexTable, hedges.trans hedgeTable, hfresh.trans hlater, ?_⟩
  exact Nat.lt_of_lt_of_le (by omega) hlater.size_le

/-- A new graph shares no table with another one or with a scan. -/
theorem Sound.addGraph (h : Sound world) (name : String) (vertexSchema edgeSchema : Schema)
    (rows : List GraphRow) :
    Sound (world.addGraph name vertexSchema edgeSchema rows).2.2 := by
  obtain ⟨made, store, hmade, hvertices, hedges, hlater, hlt⟩ :=
    exists_addGraph world name vertexSchema edgeSchema rows
  rw [hmade]
  have hmem {graph : Graph} (hgraph : graph ∈ world.graphs.push made) :
      graph ∈ world.graphs ∨ graph = made := Array.mem_push.mp hgraph
  constructor
  · intro graph hgraph
    show graph.vertexTable < store.tables.size ∧ graph.edgeTable < store.tables.size
    rcases hmem hgraph with hold | rfl
    · exact h.graph_lt_later hlater hold
    · rw [hvertices, hedges]
      exact ⟨Nat.lt_of_succ_lt hlt, hlt⟩
  · intro graph hgraph other hother
    rcases hmem hgraph with hold | rfl <;> rcases hmem hother with hold' | rfl
    · exact h.graph_ne graph hold other hold'
    · rw [hedges]
      exact Nat.ne_of_lt (Nat.lt_succ_of_lt (h.graph_lt graph hold).1)
    · rw [hvertices]
      exact Nat.ne_of_gt (h.graph_lt other hold').2
    · rw [hvertices, hedges]
      exact Nat.ne_of_lt (Nat.lt_succ_self _)
  · exact fun id hid => h.table_lt_later hlater hid
  · exact fun index scan hscan => h.inUse_later hlater hscan
  · intro index scan hscan graph hgraph
    exact Array.mem_push_of_mem _ (h.graph_mem index scan hscan graph hgraph)
  · exact h.children_lt
  · intro index id howned graph hgraph
    rcases hmem hgraph with hold | rfl
    · exact h.owned_graph index id howned graph hold
    · have hid : id < world.store.tables.size := h.owned_lt howned
      rw [hvertices, hedges]
      exact ⟨Nat.ne_of_lt hid, Nat.ne_of_lt (Nat.lt_succ_of_lt hid)⟩
  · exact h.owned_table
  · exact h.owned_ne

theorem scan?_push (world : World) (store : Store) (made : Option Scan) (index : Nat) :
    scan? { world with store, scans := world.scans.push made } index =
      if index = world.scans.size then made else world.scan? index := by
  simp only [scan?, Array.getElem?_push]
  split_ifs <;> rfl

/-- What a new scan owns is a new table. -/
theorem owned_of_accepted {node : ScanNode} {store ready : Store} {scan : Scan}
    (h : Scan.Accepted node store scan ready) :
    store.Later ready ∧ ∀ id, scan.output = .owned id → id = store.tables.size := by
  cases hstages : node.isPassThrough with
  | true =>
      obtain ⟨haliased, rfl⟩ := h.aliased hstages
      refine ⟨.refl _, fun id howned => ?_⟩
      rw [haliased] at howned
      cases howned
  | false =>
      obtain ⟨table, -, houtput, rfl⟩ := h.owned hstages
      refine ⟨.add store _, fun id howned => ?_⟩
      rw [houtput] at howned
      cases howned
      rfl

/-- The source of a plan that refers to what there is exists. -/
theorem Sound.source_lt (h : Sound world) {node : ScanNode} (hbinds : world.Binds (.scan node))
    {source : TableId} (hsource : node.source = .ok source) :
    source < world.store.tables.size := by
  obtain ⟨hgraph, hchildren⟩ := hbinds
  rcases ScanNode.source_cases hsource with ⟨-, hread⟩ | ⟨-, graph, hnode, rfl⟩
  · rw [hread] at hchildren
    exact hchildren source List.mem_cons_self
  · exact (h.graph_lt graph (hgraph graph hnode)).1

/-- A world with one more scan has that one and those from before. -/
theorem scan?_push_cases {store : Store} {made scan : Scan} {index : Nat}
    (h : scan? { world with store, scans := world.scans.push (some made) } index = some scan) :
    (index = world.scans.size ∧ scan = made) ∨ world.scan? index = some scan := by
  rw [scan?_push] at h
  split_ifs at h with heq
  · exact .inl ⟨heq, (Option.some.inj h).symm⟩
  · exact .inr h

theorem owns_push_cases {store : Store} {made : Scan} {index : Nat} {id fresh : TableId}
    (hfresh : ∀ id, made.output = .owned id → id = fresh)
    (h : Owns { world with store, scans := world.scans.push (some made) } index id) :
    (index = world.scans.size ∧ id = fresh) ∨ world.Owns index id := by
  obtain ⟨scan, hscan, howned⟩ := h
  rcases scan?_push_cases hscan with ⟨heq, rfl⟩ | hold
  · exact .inl ⟨heq, hfresh id howned⟩
  · exact .inr ⟨scan, hold, howned⟩

/-- A scan that is accepted owns no table but a new one. -/
theorem Sound.accept (h : Sound world) {node : ScanNode} (hbinds : world.Binds (.scan node))
    {made : Scan} {ready : Store} (hinit : Scan.init (.scan node) world.store = .ok (made, ready)) :
    Sound { world with store := ready, scans := world.scans.push (some made) } := by
  have haccepted := Scan.accepted_of_init hinit
  obtain ⟨hlater, hfresh⟩ := owned_of_accepted haccepted
  have hnode := haccepted.node_eq
  constructor
  · exact fun graph hgraph => h.graph_lt_later hlater hgraph
  · exact h.graph_ne
  · exact fun id hid => h.table_lt_later hlater hid
  · intro index scan hscan
    rcases scan?_push_cases hscan with ⟨-, rfl⟩ | hold
    · rw [hnode]
      exact Scan.inUse_of_init hinit (h.source_lt hbinds haccepted.source_eq)
    · exact h.inUse_later hlater hold
  · intro index scan hscan
    rcases scan?_push_cases hscan with ⟨-, rfl⟩ | hold
    · rw [hnode]
      exact hbinds.1
    · exact h.graph_mem index scan hold
  · intro index scan id hscan howned
    rcases scan?_push_cases hscan with ⟨-, rfl⟩ | hold
    · rw [hnode, hfresh id howned]
      exact hbinds.2
    · exact h.children_lt index scan id hold howned
  · intro index id howned graph hgraph
    rcases owns_push_cases hfresh howned with ⟨-, rfl⟩ | hold
    · obtain ⟨hvertices, hedges⟩ := h.graph_lt graph hgraph
      exact ⟨Nat.ne_of_gt hvertices, Nat.ne_of_gt hedges⟩
    · exact h.owned_graph index id hold graph hgraph
  · intro index id howned table htable
    rcases owns_push_cases hfresh howned with ⟨-, rfl⟩ | hold
    · exact Nat.ne_of_gt (h.table_lt table htable)
    · exact h.owned_table index id hold table htable
  · intro index other id howned howned'
    rcases owns_push_cases hfresh howned with ⟨hindex, hid⟩ | hold <;>
      rcases owns_push_cases hfresh howned' with ⟨hother, hid'⟩ | hold'
    · rw [hindex, hother]
    · exact absurd hid (Nat.ne_of_lt (h.owned_lt hold'))
    · exact absurd hid' (Nat.ne_of_lt (h.owned_lt hold))
    · exact h.owned_ne index other id hold hold'

/-- A plan that is added is refused, or it is accepted. -/
theorem Sound.addScan (h : Sound world) {plan : PlanNode} (hbinds : world.Binds plan) :
    Sound (world.addScan plan).2 := by
  rw [World.addScan]
  rcases hinit : Scan.init plan world.store with e | ⟨made, ready⟩
  · refine h.of_scans (.refl _) rfl rfl fun index now hnow => ?_
    rw [show scan? _ index = _ from scan?_push world world.store none index] at hnow
    split_ifs at hnow
    exact ⟨now, hnow, rfl, rfl, h.inUse index now hnow⟩
  cases plan with
  | projection | window | aggregate => cases hinit
  | scan node => exact h.accept hbinds hinit

/-! ## All steps -/

/-- **Every step keeps a world sound.** -/
theorem Sound.step (h : Sound world) (hstep : Step world next) : Sound next := by
  cases hstep with
  | table table => exact h.addTable table
  | graph name vertexSchema edgeSchema rows => exact h.addGraph name vertexSchema edgeSchema rows
  | scan plan hbinds => exact h.addScan hbinds
  | use store hlater => exact h.use hlater
  | execute hscan context params => exact h.execute hscan context params
  | metrics change =>
      exact h.of_scans (.refl _) rfl rfl fun index scan hscan =>
        ⟨scan, hscan, rfl, rfl, h.inUse index scan hscan⟩

/-- **Every world that can come about is sound.** -/
theorem Reachable.sound (h : Reachable world) : Sound world := by
  induction h with
  | refl => exact sound_empty
  | tail _ hstep ih => exact ih.step hstep

/-! ## Handles -/

/-- A step keeps every scan but for the run of its aggregation. -/
theorem Step.scan_eq (hworld : Sound world) (hstep : Step world next) {index : Nat} {scan : Scan}
    (hscan : world.scan? index = some scan) :
    ∃ now, next.scan? index = some now ∧ now = { scan with machine := now.machine } := by
  have hlt := lt_of_scan? hscan
  cases hstep with
  | table table => exact ⟨scan, hscan, rfl⟩
  | graph name vertexSchema edgeSchema rows => exact ⟨scan, hscan, rfl⟩
  | scan plan hbinds =>
      refine ⟨scan, ?_, rfl⟩
      rw [World.addScan]
      rcases Scan.init plan world.store with e | ⟨made, ready⟩
      · exact (scan?_push world world.store none index).trans (by rw [if_neg (Nat.ne_of_lt hlt), hscan])
      · exact (scan?_push world ready (some made) index).trans
          (by rw [if_neg (Nat.ne_of_lt hlt), hscan])
  | use store hlater => exact ⟨scan, hscan, rfl⟩
  | @execute other executed hexecuted context params =>
      rw [scan?_execute hexecuted]
      by_cases heq : index = other
      · obtain rfl : scan = executed := by
          rw [heq, hexecuted] at hscan
          exact (Option.some.inj hscan).symm
        rw [if_pos heq]
        exact ⟨_, rfl, ((hworld.inUse index scan hscan).effect context params).2.1⟩
      · rw [if_neg heq]
        exact ⟨scan, hscan, rfl⟩
  | metrics change => exact ⟨scan, hscan, rfl⟩

/-- Adding a scan keeps the graphs and the tables. -/
theorem later_addScan (world : World) (plan : PlanNode) :
    (world.addScan plan).2.graphs = world.graphs ∧
      world.store.Later (world.addScan plan).2.store := by
  rw [World.addScan]
  rcases hinit : Scan.init plan world.store with e | ⟨made, ready⟩
  · exact ⟨rfl, .refl _⟩
  cases plan with
  | projection | window | aggregate => cases hinit
  | scan node => exact ⟨rfl, (owned_of_accepted (Scan.accepted_of_init hinit)).1⟩

/-- Scans can be added in any order, as long as they refer to what there was before them. -/
theorem Reachable.addScans (h : Reachable world) {nodes : List ScanNode}
    (hbinds : ∀ node ∈ nodes, world.Binds (.scan node)) :
    Reachable (nodes.foldl (fun world node => (world.addScan (.scan node)).2) world) := by
  induction nodes generalizing world with
  | nil => exact h
  | cons node nodes ih =>
      rw [List.forall_mem_cons] at hbinds
      obtain ⟨hgraphs, hlater⟩ := world.later_addScan (.scan node)
      refine ih (h.tail (.scan world (.scan node) hbinds.1)) fun other hother => ?_
      obtain ⟨hgraph, hchildren⟩ := hbinds.2 other hother
      refine ⟨fun graph hmem => hgraphs ▸ hgraph graph hmem, fun child hmem => ?_⟩
      exact Nat.lt_of_lt_of_le (hchildren child hmem) hlater.size_le

/-- **The plan, the source and the output of a scan never change.** -/
theorem scan_later {later : World} (hworld : Reachable world) (hleads : Leads world later)
    {index : Nat} {scan : Scan} (hscan : world.scan? index = some scan) :
    ∃ now, later.scan? index = some now ∧ now = { scan with machine := now.machine } := by
  induction hleads with
  | refl => exact ⟨scan, hscan, rfl⟩
  | tail hsofar hstep ih =>
      obtain ⟨middle, hmiddle, hsame⟩ := ih
      have hreachable : Reachable _ := hworld.trans hsofar
      obtain ⟨now, hnow, hlast⟩ := hstep.scan_eq hreachable.sound hmiddle
      refine ⟨now, hnow, ?_⟩
      rw [hlast, hsame]

end World

end GraphScan
