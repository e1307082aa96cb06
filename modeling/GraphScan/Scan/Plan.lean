import GraphScan.Aggregate.Machine
import GraphScan.Graph.Basic

/-!
# Scans

A scan reads the vertex table of a graph or, as a subquery, the output of another scan.  Its stages
are fused: rows are filtered, cut, projected and aggregated on their way, with no table in between.

* `ScanNode` — a scan as a plan states it.
* `Output` — where the rows end up.  A scan without stages hands on its source itself.
* `Scan.init` — checks a plan and fixes source and output for all executions.
-/

namespace GraphScan

/-! ## Plans -/

/-- **A scan in a plan.** -/
structure ScanNode where
  id : Nat
  graph : Option Graph
  /-- The tables that the scan may read as a subquery; it needs exactly one. -/
  children : List TableId
  subquery : Bool
  /-- Whether the planner has proved that there are no rows. -/
  emptyScan : Bool
  predicate : Option Expr
  projection : Option Projection
  window : Option WindowSpec
  aggregate : Option AggregateNode
  /-- The schema of the output. -/
  schema : Schema

namespace ScanNode

def label (node : ScanNode) : String :=
  "VertexScan[" ++ toString node.id ++ "]"

/-- **Whether there is nothing to do with the rows.** -/
def isPassThrough (node : ScanNode) : Bool :=
  node.predicate.isNone && node.projection.isNone && node.window.isNone && node.aggregate.isNone

def source (node : ScanNode) : Except EngineError TableId :=
  if node.subquery then
    match node.children with
    | [child] => .ok child
    | children => .error (.plan node.label (.subqueryChildCount children.length))
  else
    match node.graph with
    | some graph => .ok graph.vertexTable
    | none => .error (.plan node.label .missingGraphView)

/-- A projection needs a column for each expression and each degree, and a graph to look the
degrees up in. -/
def checkProjection (node : ScanNode) : Except EngineError Unit :=
  match node.projection with
  | none => .ok ()
  | some projection =>
    if projection.width ≠ projection.exprs.length + Projection.degreeColumns then
      .error (.plan node.label (.projectionWidth projection.exprs.length projection.width))
    else if node.graph.isNone then .error (.plan node.label .missingDegreeSource)
    else .ok ()

end ScanNode

/-- **A node of a plan.**  Only scans can be run on their own. -/
inductive PlanNode where
  | scan (node : ScanNode)
  | projection (node : Projection)
  | window (node : WindowSpec)
  | aggregate (node : AggregateNode)

def PlanNode.label : PlanNode → String
  | .scan _ => "VertexScan"
  | .projection _ => "Projection"
  | .window _ => "Limit"
  | .aggregate _ => "Aggregate"

/-! ## Outputs -/

/-- **Where the rows of a scan end up.** -/
inductive Output where
  /-- The source itself, which the scan does not write. -/
  | aliased (table : TableId)
  /-- A table of the scan's own. -/
  | owned (table : TableId)
deriving DecidableEq, Repr

namespace Output

def table : Output → TableId
  | .aliased table => table
  | .owned table => table

def isAliased : Output → Bool
  | .aliased _ => true
  | .owned _ => false

/-- **The table to write to**; an aliased output cannot be written. -/
def writable : Output → Except EngineError TableId
  | .owned table => .ok table
  | .aliased _ => .error .aliasedOutput

end Output

/-! ## Scans ready to run -/

/-- **A scan with its tables bound.** -/
structure Scan where
  node : ScanNode
  source : TableId
  output : Output
  /-- The aggregation, if the scan has one. -/
  machine : Option Machine

namespace Scan

def label (scan : Scan) : String :=
  scan.node.label

/-- The output of a scan of a source: the source itself, or a new table of the same name. -/
def bindOutput (node : ScanNode) (source : TableId) (store : Store) :
    Except EngineError (Output × Store) :=
  if node.isPassThrough then .ok (.aliased source, store)
  else do
    let table ← (store.get source).read
    let (output, store) := store.add (.empty table.name node.schema)
    .ok (.owned output, store)

/-- **Checks a plan and binds its tables.** -/
def init (plan : PlanNode) (store : Store) : Except EngineError (Scan × Store) :=
  match plan with
  | .scan node => do
    let source ← node.source
    node.checkProjection
    let (output, store) ← bindOutput node source store
    .ok (⟨node, source, output, node.aggregate.map Machine.ofNode⟩, store)
  | other => .error (.plan "VertexScan" (.wrongNodeShape other.label))

end Scan

end GraphScan
