import GraphScan.Meter
import GraphScan.Table.Shared

/-!
# Graphs

A graph has a table of vertices and a table of edges, and keeps a record of every vertex and edge
it was given.  The records outlive the rows: a scan that consumes the vertex table leaves them as
they are.

* `Graph.addVertex`, `Graph.addEdge` — insert a row and record it.
* `Graph.file_of_error` — a row that is refused changes nothing.
* `Vertex.fanOut`, `Vertex.fanIn` — how many edges leave and enter a vertex, up to `maxDegree`.
  A loop counts in both.
-/

namespace GraphScan

structure Vertex where
  id : Int64
  fanOut : Nat
  fanIn : Nat
deriving DecidableEq, Repr

structure Edge where
  id : Int64
  source : Int64
  target : Int64
deriving DecidableEq, Repr

/-- Degrees stay at this value once they get there. -/
def maxDegree : Nat :=
  UInt32.size - 1

/-- **A graph**: its tables by number, and its records, the latest first. -/
structure Graph where
  name : String
  vertexTable : TableId
  edgeTable : TableId
  vertices : List Vertex
  edges : List Edge
deriving DecidableEq, Repr, Inhabited

namespace Graph

/-- A new graph, with two new tables. -/
def new (name : String) (vertexSchema edgeSchema : Schema) (store : Store) : Graph × Store :=
  let (vertexTable, store) := store.add (.empty (name ++ "_vertexes") vertexSchema)
  let (edgeTable, store) := store.add (.empty (name ++ "_edges") edgeSchema)
  (⟨name, vertexTable, edgeTable, [], []⟩, store)

/-! ## Records -/

def vertex? (graph : Graph) (id : Int64) : Option Vertex :=
  graph.vertices.find? fun vertex => vertex.id == id

def edge? (graph : Graph) (id : Int64) : Option Edge :=
  graph.edges.find? fun edge => edge.id == id

/-- Counts an edge on its end points. -/
def countEdge (edge : Edge) (vertex : Vertex) : Vertex :=
  { vertex with
    fanOut := if vertex.id = edge.source then saturatingAdd maxDegree vertex.fanOut 1
      else vertex.fanOut
    fanIn := if vertex.id = edge.target then saturatingAdd maxDegree vertex.fanIn 1
      else vertex.fanIn }

def recordVertex (graph : Graph) (id : Int64) : Graph :=
  { graph with vertices := ⟨id, 0, 0⟩ :: graph.vertices }

def recordEdge (graph : Graph) (edge : Edge) : Graph :=
  { graph with edges := edge :: graph.edges, vertices := graph.vertices.map (countEdge edge) }

/-! ## Adding rows -/

def readId (row : Row) (id : IdColumn) : Except EngineError Int64 :=
  match row[id.index]? with
  | some (.int n) => .ok n
  | found => .error (.idNotInteger id found)

/-- The vertex that a row stands for.  Its id is in the first column, and has to be new. -/
def readVertex (graph : Graph) (row : Row) : Except EngineError Int64 := do
  let id ← readId row .vertex
  if (graph.vertex? id).isSome then .error (.duplicateElement graph.name .vertex id) else .ok id

/-- An end point has to be on record. -/
def checkEndpoint (graph : Graph) (edge vertex : Int64) : Except EngineError Unit :=
  if (graph.vertex? vertex).isSome then .ok ()
  else .error (.unknownEndpoint graph.name edge vertex)

/-- The edge that a row stands for.  Its id and end points are in the first three columns, and the id
has to be new. -/
def readEdge (graph : Graph) (row : Row) : Except EngineError Edge := do
  let id ← readId row .edge
  let source ← readId row .edgeSource
  let target ← readId row .edgeTarget
  if (graph.edge? id).isSome then .error (.duplicateElement graph.name .edge id)
  else
    graph.checkEndpoint id source
    graph.checkEndpoint id target
    .ok ⟨id, source, target⟩

/-- Files a row in a table.  If it is taken there, the graph has the records `next` afterwards. -/
def file (graph : Graph) (store : Store) (table : TableId) (row : Row)
    (next : Except EngineError (Int64 × Graph)) : Except EngineError Int64 × Graph × Store :=
  match next with
  | .error e => (.error e, graph, store)
  | .ok (id, next) =>
    match store.insert table row with
    | (.error e, store) => (.error e, graph, store)
    | (.ok (), store) => (.ok id, next, store)

/-- **Adds a vertex.** -/
def addVertex (graph : Graph) (store : Store) (row : Row) :
    Except EngineError Int64 × Graph × Store :=
  graph.file store graph.vertexTable row
    ((graph.readVertex row).map fun id => (id, graph.recordVertex id))

/-- **Adds an edge.** -/
def addEdge (graph : Graph) (store : Store) (row : Row) :
    Except EngineError Int64 × Graph × Store :=
  graph.file store graph.edgeTable row
    ((graph.readEdge row).map fun edge => (edge.id, graph.recordEdge edge))

/-- **A row that is refused changes nothing**, neither the records nor any table. -/
theorem file_of_error {graph : Graph} {store : Store} {table : TableId} {row : Row}
    {next : Except EngineError (Int64 × Graph)} {e : EngineError}
    (h : (graph.file store table row next).1 = .error e) :
    graph.file store table row next = (.error e, graph, store) := by
  cases next with
  | error e' => simpa [file] using h
  | ok added =>
      simp only [file] at h ⊢
      rcases hinsert : store.insert table row with ⟨e' | _, later⟩
      · obtain rfl : e' = e := by simpa [hinsert] using h
        have hrefused := Store.insert_of_error (congrArg Prod.fst hinsert)
        rw [← hinsert, hrefused]
      · simp [hinsert] at h

end Graph

end GraphScan
