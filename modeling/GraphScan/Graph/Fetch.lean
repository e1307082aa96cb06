import GraphScan.Config.Basic
import GraphScan.Graph.Basic

/-!
# Fetching attributes

Attributes of vertices and edges are fetched from the node that holds them.  A fetcher sees the
graph and its two tables as they are, and answers with a table of its own; it can change nothing.

* `Fetcher.loopback` — answers from the graph that it is shown.
* `Probe.run` — the diagnostic probe before a scan.  Its failures are noted and never returned.
* `Probe.overflows` — whether a probe asks for more ids than can be laid out at all.
-/

namespace GraphScan

/-! ## Nodes -/

/-- **The identity of one host's partition**: the host in the low 32 bits, above it a mark. -/
structure NodeId where
  raw : Nat
deriving DecidableEq, Repr

namespace NodeId

/-- The mark, in bit 32. -/
def mark : Nat := 1 <<< 32

def forHost (host : Nat) : NodeId := ⟨mark + host⟩

def host (node : NodeId) : Nat := node.raw % mark

def render (node : NodeId) : String := toString node.raw

end NodeId

/-! ## Fetchers -/

/-- What a fetcher is shown: a graph and its tables. -/
structure Snapshot where
  graph : Graph
  vertices : SharedTable
  edges : SharedTable

namespace Snapshot

/-- A graph as it stands in a store. -/
def take (graph : Graph) (store : Store) : Snapshot :=
  ⟨graph, store.get graph.vertexTable, store.get graph.edgeTable⟩

def table (snapshot : Snapshot) : ElementKind → SharedTable
  | .vertex => snapshot.vertices
  | .edge => snapshot.edges

end Snapshot

/-- A request for attributes of some elements.  No attributes means all. -/
structure FetchRequest where
  element : ElementKind
  destination : NodeId
  ids : List Int64
  attributes : List String
deriving DecidableEq, Repr

/-- **A source of attributes.** -/
structure Fetcher where
  fetch : FetchRequest → Snapshot → Except EngineError Table

/-! ## Answering from the graph at hand -/

namespace Fetcher

/-- The columns of attribute names, in their order. -/
def columnsOf (element : ElementKind) (source : Table) :
    List String → Except EngineError (List Nat)
  | [] => .ok []
  | name :: names =>
    match source.schema.indexOf? name with
    | some index => do
      let rest ← columnsOf element source names
      .ok (index :: rest)
    | none => .error (.attributeMissing element name source.name)

/-- Whether the first cell of a row is one of some ids. -/
def hasId (ids : List Int64) (row : Row) : Bool :=
  match row.head? with
  | some (.int id) => ids.contains id
  | _ => false

/-- The cells of a row at some positions. -/
def pick (columns : List Nat) (row : Row) : Row :=
  columns.map fun index => (row[index]?).getD .null

/-- Inserts rows one after the other, up to the first that is refused. -/
def insertAll (table : Table) : List Row → Except EngineError Table
  | [] => .ok table
  | row :: rows =>
    match table.insert row with
    | (.ok (), table) => insertAll table rows
    | (.error e, _) => .error e

/-- **Selects the rows with the given ids and projects them to the given attributes.** -/
def select (element : ElementKind) (source : Table) (ids : List Int64) (attributes : List String) :
    Except EngineError Table := do
  let columns ←
    if attributes.isEmpty then .ok (List.range source.schema.width)
    else columnsOf element source attributes
  let schema : Schema := ⟨columns.filterMap source.schema.column?⟩
  let rows := (source.rows.toList.filter (hasId ids)).map (pick columns)
  insertAll (.empty (source.name ++ "_fetched") schema) rows

/-- **The fetcher that answers from the graph it is shown**, whatever the destination. -/
def loopback : Fetcher where
  fetch request snapshot := do
    let source ← (snapshot.table request.element).read
    select request.element source request.ids request.attributes

end Fetcher

/-! ## The probe -/

/-- A request and what came of it. -/
structure FetchCall where
  request : FetchRequest
  outcome : Except EngineError Table

def FetchCall.answered (call : FetchCall) : Bool :=
  match call.outcome with
  | .ok _ => true
  | .error _ => false

namespace Probe

/-- The greatest number of ids a probe can ask for. -/
def maxIds : Nat :=
  (1 <<< 63) - 1

/-- The greatest number of ids in one block of memory, which has less than `2 ^ 63` bytes; an id takes
eight. -/
def capacity : Nat :=
  ((1 <<< 63) - 1) / 8

/-- **Whether the ids that a probe asks for cannot be laid out.**  They are, before the first request
is made, in one block for each list, and the process breaks off where a block would be too large.
Whether it has so much memory is another matter. -/
def overflows (config : ProbeConfig) : Bool :=
  decide (capacity < min config.probeCount maxIds)

/-- **What a probe asks for**: the even vertex ids from `0` on, and the edge ids from `0` on. -/
def requests (config : ProbeConfig) : List FetchRequest :=
  let destination := NodeId.forHost config.destinationHost
  let count := min config.probeCount maxIds
  let ids := List.range count
  [⟨.vertex, destination, ids.map fun i => Int64.ofNat (i * 2), config.vertexAttributes⟩,
    ⟨.edge, destination, ids.map Int64.ofNat, config.edgeAttributes⟩]

/-- **Issues the requests**, both of them whatever becomes of the first. -/
def run (config : ProbeConfig) (fetcher : Fetcher) (snapshot : Snapshot) : List FetchCall :=
  (requests config).map fun request => ⟨request, fetcher.fetch request snapshot⟩

end Probe

end GraphScan
