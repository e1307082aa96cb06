import GraphScan.Scan.Execute

/-!
# Worlds

A world holds everything that a client can name: graphs, tables, scans and the metrics.  Tables of
graphs and outputs of scans live in the same store as the client's own tables, so that each can be
read, changed and held through any of its names.

* `TableRef` — the names of a table.
* `World.execute` — runs a scan, keeps its effects and routes its events.
* `World.attempt` — the same, or what is left where the process breaks off over the probe.
-/

namespace GraphScan

/-- **A name of a table.** -/
inductive TableRef where
  /-- A table of the client's own. -/
  | own (index : Nat)
  | vertices (graph : Nat)
  | edges (graph : Nat)
  /-- The output of a scan, which may be the table of another name. -/
  | output (scan : Nat)
deriving DecidableEq, Repr

/-- **Graphs, tables, scans and metrics.**  Each is known by its number; a scan whose plan was
refused has a number too. -/
structure World where
  store : Store
  graphs : Array Graph
  tables : Array TableId
  scans : Array (Option Scan)
  metrics : Metrics

namespace World

def empty : World :=
  ⟨.empty, #[], #[], #[], {}⟩

def scan? (world : World) (index : Nat) : Option Scan :=
  (world.scans[index]?).join

def resolve (world : World) : TableRef → Option TableId
  | .own index => world.tables[index]?
  | .vertices graph => (world.graphs[graph]?).map Graph.vertexTable
  | .edges graph => (world.graphs[graph]?).map Graph.edgeTable
  | .output scan => (world.scan? scan).map fun scan => scan.output.table

/-! ## Making things -/

def addTable (world : World) (table : Table) : World :=
  let (id, store) := world.store.add table
  { world with store, tables := world.tables.push id }

/-- A row for a graph. -/
inductive GraphRow where
  | vertex (row : Row)
  | edge (row : Row)
deriving DecidableEq, Repr

/-- Adds a row to a graph, as a vertex or as an edge. -/
def addGraphRow (graph : Graph) (store : Store) :
    GraphRow → Except EngineError Int64 × Graph × Store
  | .vertex row => graph.addVertex store row
  | .edge row => graph.addEdge store row

/-- Adds rows to a graph in order, whatever becomes of each. -/
def addGraphRows (graph : Graph) (store : Store) :
    List GraphRow → List (Except EngineError Int64) × Graph × Store
  | [] => ([], graph, store)
  | row :: rows =>
    let (outcome, graph, store) := addGraphRow graph store row
    let (outcomes, graph, store) := addGraphRows graph store rows
    (outcome :: outcomes, graph, store)

/-- **Adds a graph** and its rows, with the outcome of each row. -/
def addGraph (world : World) (name : String) (vertexSchema edgeSchema : Schema)
    (rows : List GraphRow) : List (Except EngineError Int64) × Graph × World :=
  let (graph, store) := Graph.new name vertexSchema edgeSchema world.store
  let (outcomes, graph, store) := addGraphRows graph store rows
  (outcomes, graph, { world with store, graphs := world.graphs.push graph })

/-- **Adds a scan.**  A refused plan takes up a number as well. -/
def addScan (world : World) (plan : PlanNode) : Except EngineError Scan × World :=
  match Scan.init plan world.store with
  | .ok (scan, store) => (.ok scan, { world with store, scans := world.scans.push (some scan) })
  | .error e => (.error e, { world with scans := world.scans.push none })

/-! ## Tables -/

/-- Applies a change to a table. -/
def changeTable (world : World) (id : TableId)
    (change : SharedTable → Except EngineError Unit × SharedTable) :
    Except EngineError Unit × World :=
  let (outcome, shared) := change (world.store.get id)
  (outcome, { world with store := world.store.set id shared })

/-- Consumes rows from the front of a table. -/
def consume (world : World) (id : TableId) (count : Option Nat) :
    Except EngineError (List Row) × World :=
  let (outcome, store) := world.store.consume id count
  (outcome, { world with store })

def release (world : World) : World :=
  { world with store := world.store.release }

/-- Fetches attributes of elements of a graph from the graph itself. -/
def fetch (world : World) (graph : Graph) (element : ElementKind) (ids : List Int64)
    (attributes : List String) : Except EngineError Table :=
  Fetcher.loopback.fetch ⟨element, .forHost 0, ids, attributes⟩ (.take graph world.store)

/-! ## Executions -/

/-- **Runs a scan**, keeps what it did and routes its events. -/
def execute (world : World) (index : Nat) (scan : Scan) (context : Context)
    (params : List Value) : Execution × World :=
  let execution := scan.execute context params world.store
  (execution, { world with
    store := execution.store
    scans := world.scans.setIfInBounds index (some execution.scan)
    metrics := world.metrics.recordAll execution.events })

def withMetrics (world : World) (change : Metrics → Metrics) : World :=
  { world with metrics := change world.metrics }

/-- **Attempts to run a scan.**  If the process breaks off over the probe there is no outcome.  The
execution has announced itself by then, and closes without having touched a row. -/
def attempt (world : World) (index : Nat) (scan : Scan) (context : Context)
    (params : List Value) : Option Execution × World :=
  match scan.breakdown context with
  | some graph =>
    (none, world.withMetrics fun metrics =>
      metrics.recordAll [.scanStart graph.name, .scanFinish graph.name 0 0])
  | none =>
    let (execution, world) := world.execute index scan context params
    (some execution, world)

end World

end GraphScan
