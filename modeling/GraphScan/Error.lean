import GraphScan.Plan.Basic
import GraphScan.Value.Text

/-!
# Errors

`EngineError` lists what can go wrong, one constructor per cause.  `EngineError.report` says how a
cause is classified, where it belongs and how it is worded:

* `ErrorKind` — whether the plan, the data, a missing object or an unsupported operation is at
  fault.  Only an invariant violation is a defect of the configuration.
* `ErrorOrigin` — the part of the engine that noticed.
* `PlanDefect` — the reason why a plan cannot be run, kept as data beside the message.
-/

namespace GraphScan

/-! ## Classification -/

inductive ErrorKind where
  | invalidParameter
  | invariantViolation
  | notFound
  | unsupported
deriving DecidableEq, Repr

def ErrorKind.label : ErrorKind → String
  | .invalidParameter => "invalid_parameter"
  | .invariantViolation => "invariant_violation"
  | .notFound => "not_found"
  | .unsupported => "unsupported"

/-- The part of the engine that noticed an error. -/
inductive ErrorOrigin where
  | aggregate
  | executor
  | expression
  | graph
  | plan
  | remote
  | table
deriving DecidableEq, Repr

def ErrorOrigin.label : ErrorOrigin → String
  | .aggregate => "aggregate"
  | .executor => "executor"
  | .expression => "expression"
  | .graph => "graph"
  | .plan => "plan"
  | .remote => "remote"
  | .table => "table"

/-- **Why a plan cannot be run.** -/
inductive PlanDefect where
  /-- The node is not a scan. -/
  | wrongNodeShape (found : String)
  /-- The scan reads neither a subquery nor a graph. -/
  | missingGraphView
  /-- A subquery scan reads exactly one table. -/
  | subqueryChildCount (found : Nat)
  /-- A projection declares a column per expression and two for the degrees. -/
  | projectionWidth (expressions columns : Nat)
  /-- Degrees can only be looked up in a graph. -/
  | missingDegreeSource
deriving DecidableEq, Repr

def PlanDefect.message : PlanDefect → String
  | .wrongNodeShape found => s!"plan node is a {found}, expected a vertex scan"
  | .missingGraphView => "scan is not a subquery and has no target graph view"
  | .subqueryChildCount found => s!"subquery scan requires exactly one child, found {found}"
  | .projectionWidth expressions columns =>
    s!"projection declares {expressions} expressions but {columns} output columns " ++
      "(expected expressions + 2)"
  | .missingDegreeSource => "inline projection needs a graph view for degree lookups"

/-! ## Reports -/

/-- **A classified, worded error.** -/
structure ErrorReport where
  kind : ErrorKind
  origin : ErrorOrigin
  message : String
  defect : Option PlanDefect
deriving DecidableEq, Repr

namespace ErrorReport

/-- The message after the origin and the kind. -/
def withClass (report : ErrorReport) : String :=
  report.origin.label ++ ":" ++ report.kind.label ++ ": " ++ report.message

/-- Whether the plan or its setup is at fault, so that running it again cannot help. -/
def isConfigurationDefect (report : ErrorReport) : Bool :=
  report.kind == .invariantViolation

end ErrorReport

/-! ## Causes -/

/-- The calls that drive an aggregation once it has been set up. -/
inductive AggregateCall where
  | feed
  | finish
deriving DecidableEq, Repr

def AggregateCall.label : AggregateCall → String
  | .feed => "feed"
  | .finish => "finish"

/-- The two kinds of element of a graph. -/
inductive ElementKind where
  | vertex
  | edge
deriving DecidableEq, Repr

def ElementKind.label : ElementKind → String
  | .vertex => "vertex"
  | .edge => "edge"

/-- The id columns of a graph's tables: whose id it is. -/
inductive IdColumn where
  | vertex
  | edge
  | edgeSource
  | edgeTarget
deriving DecidableEq, Repr

def IdColumn.index : IdColumn → Nat
  | .vertex => 0
  | .edge => 0
  | .edgeSource => 1
  | .edgeTarget => 2

def IdColumn.label : IdColumn → String
  | .vertex => "vertex"
  | .edge => "edge"
  | .edgeSource => "edge source"
  | .edgeTarget => "edge target"

/-- **What can go wrong.** -/
inductive EngineError where
  -- expressions
  | columnOutOfRange (index width : Nat)
  | incomparable (left right : Kind)
  | divisionByZero
  | integerOverflow (left : Int64) (op : ArithOp) (right : Int64)
  | arithmeticUndefined (op : ArithOp) (left right : Kind)
  | notBoolean (connective : Connective) (found : Kind)
  -- rows and tables
  | cellOutOfRange (index width : Nat)
  | rowWidth (table : String) (expected found : Nat)
  | cellType (table : String) (index : Nat) (column : Column) (found : Kind)
  | tableHeldExclusively
  | tableHeld
  -- graphs
  | idNotInteger (id : IdColumn) (found : Option Value)
  | duplicateElement (graph : String) (element : ElementKind) (id : Int64)
  | unknownEndpoint (graph : String) (edge vertex : Int64)
  | vertexIdNotInteger (graph : String) (found : Option Kind)
  | vertexMissing (graph : String) (id : Int64)
  -- plans
  | plan (operator : String) (defect : PlanDefect)
  | negativeBound (value : Int64) (role : BoundRole)
  | boundNotInteger (role : BoundRole) (index : Nat) (found : Kind)
  | boundUnbound (role : BoundRole) (index : Nat)
  -- scans
  | aliasedOutput
  | scratchWidth (operator : String) (columns written : Nat)
  -- aggregations
  | aggregateInputMissing (kind : AggregateKind)
  | aggregateNotNumeric (kind : AggregateKind) (found : Kind)
  | aggregateIncomparable (kind : AggregateKind) (left right : Kind)
  | sumUndefined (total added : Value)
  | aggregateNotStarted (call : AggregateCall)
  | aggregateFinished (call : AggregateCall)
  | aggregateUnbound (strategy : String)
  | groupSlotLost (slot : Nat)
  -- attribute fetches
  | attributeMissing (element : ElementKind) (name table : String)
  | reported (report : ErrorReport)
deriving DecidableEq, Repr

namespace EngineError

/-- The report of a cause that carries no plan defect. -/
def plainReport (kind : ErrorKind) (origin : ErrorOrigin) (message : String) : ErrorReport :=
  ⟨kind, origin, message, none⟩

/-- **How a cause is classified and worded.** -/
def report : EngineError → ErrorReport
  | columnOutOfRange index width =>
    plainReport .invariantViolation .executor
      s!"column reference {index} out of range for tuple width {width}"
  | incomparable left right =>
    plainReport .unsupported .expression
      ("cannot compare " ++ left.label ++ " with " ++ right.label)
  | divisionByZero => plainReport .invalidParameter .expression "integer division by zero"
  | integerOverflow left op right =>
    plainReport .invalidParameter .expression
      ("integer overflow in " ++ toString left.toInt ++ " " ++ op.label ++ " " ++
        toString right.toInt)
  | arithmeticUndefined op left right =>
    plainReport .unsupported .expression
      ("arithmetic " ++ op.label ++ " is not defined for " ++ left.label ++ " and " ++
        right.label)
  | notBoolean connective found =>
    plainReport .unsupported .expression
      (connective.label ++ " operand must be boolean, got " ++ found.label)
  | cellOutOfRange index width =>
    plainReport .invariantViolation .table
      s!"tuple column {index} out of range for width {width}"
  | rowWidth table expected found =>
    plainReport .invariantViolation .table
      s!"table '{table}' expects {expected} columns, tuple has {found}"
  | cellType table index column found =>
    plainReport .invariantViolation .table
      (s!"table '{table}' column {index} (" ++ column.name ++ ") is " ++ column.type.label ++
        ", got " ++ found.label)
  | tableHeldExclusively =>
    plainReport .invariantViolation .table "table is exclusively borrowed by an active scan"
  | tableHeld =>
    plainReport .invariantViolation .table
      "table is already borrowed; concurrent scans of one table are not supported"
  | idNotInteger id found =>
    plainReport .invariantViolation .graph
      (id.label ++ " id in column " ++ toString id.index ++ " must be an integer, got " ++
        Value.describeFound found)
  | duplicateElement graph element id =>
    plainReport .invariantViolation .graph
      (s!"graph '{graph}' already contains " ++ element.label ++ " " ++ toString id.toInt)
  | unknownEndpoint graph edge vertex =>
    plainReport .notFound .graph
      ("edge " ++ toString edge.toInt ++ " references unknown vertex " ++
        toString vertex.toInt ++ s!" in graph '{graph}'")
  | vertexIdNotInteger graph found =>
    plainReport .invariantViolation .graph
      (s!"vertex id column of graph '{graph}' must be an integer, got " ++
        (found.map Kind.label).getD "nothing")
  | vertexMissing graph id =>
    plainReport .invariantViolation .graph
      ("vertex " ++ toString id.toInt ++ s!" is not present in graph '{graph}'")
  | plan operator defect =>
    ⟨.invariantViolation, .plan, operator ++ ": " ++ defect.message, some defect⟩
  | negativeBound value role =>
    plainReport .invalidParameter .plan
      ("negative parameter " ++ toString value.toInt ++ " for " ++ role.label)
  | boundNotInteger role index found =>
    plainReport .invalidParameter .plan
      (role.label ++ s!" parameter {index} must be an integer, got " ++ found.label)
  | boundUnbound role index =>
    plainReport .invalidParameter .plan (role.label ++ s!" parameter {index} is not bound")
  | aliasedOutput =>
    plainReport .invariantViolation .executor
      "attempted to write into an output table that aliases the scan source"
  | scratchWidth operator columns written =>
    plainReport .invariantViolation .executor
      s!"{operator}: scratch tuple has {columns} columns, projection writes {written}"
  | aggregateInputMissing kind =>
    plainReport .invariantViolation .aggregate
      (kind.label ++ " aggregate has no input expression")
  | aggregateNotNumeric kind found =>
    plainReport .unsupported .aggregate
      (kind.keyword ++ " requires a numeric input, got " ++ found.label)
  | aggregateIncomparable kind left right =>
    plainReport .unsupported .aggregate
      (kind.keyword ++ " cannot compare " ++ left.label ++ " with " ++ right.label)
  | sumUndefined total added =>
    plainReport .invalidParameter .aggregate
      ("SUM overflow or non-numeric input adding " ++ added.render ++ " to " ++ total.render)
  | aggregateNotStarted call =>
    plainReport .invariantViolation .aggregate
      ("inline aggregate " ++ call.label ++ " called before init")
  | aggregateFinished call =>
    plainReport .invariantViolation .aggregate
      ("inline aggregate " ++ call.label ++ " called after finish")
  | aggregateUnbound strategy =>
    plainReport .invariantViolation .aggregate s!"{strategy} aggregate has no emitter"
  | groupSlotLost slot =>
    plainReport .invariantViolation .aggregate s!"hash aggregate lost group slot {slot}"
  | attributeMissing element name table =>
    plainReport .notFound .remote
      (element.label ++ s!" attribute '{name}' not found in '{table}'")
  | reported report => report

end EngineError

/-! ## Outcomes -/

/-- Outcomes are compared by what they give or by their errors.  The priority puts this instance
before the one that a larger library brings. -/
instance (priority := 1100) decidableEqOutcome {ε α : Type} [DecidableEq ε] [DecidableEq α] :
    DecidableEq (Except ε α)
  | .ok a, .ok b => if h : a = b then isTrue (h ▸ rfl) else isFalse fun he => h (Except.ok.inj he)
  | .error d, .error e =>
    if h : d = e then isTrue (h ▸ rfl) else isFalse fun he => h (Except.error.inj he)
  | .ok _, .error _ => isFalse nofun
  | .error _, .ok _ => isFalse nofun

/-- What succeeds in two parts has succeeded in both. -/
theorem exists_of_bind_eq_ok {α β : Type} {first : Except EngineError α}
    {second : α → Except EngineError β} {result : β} (h : first >>= second = .ok result) :
    ∃ between, first = .ok between ∧ second between = .ok result := by
  cases first with
  | error e => cases h
  | ok between => exact ⟨between, rfl, h⟩

/-- What succeeds as the image of something is the image of a success. -/
theorem exists_of_map_eq_ok {α β : Type} {outcome : Except EngineError α} {f : α → β} {result : β}
    (h : outcome.map f = .ok result) : ∃ found, outcome = .ok found ∧ f found = result := by
  cases outcome with
  | error e => cases h
  | ok found => exact ⟨found, rfl, Except.ok.inj h⟩

end GraphScan
