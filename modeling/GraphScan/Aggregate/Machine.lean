import GraphScan.Aggregate.Hashed
import GraphScan.Aggregate.Serial

/-!
# Aggregation machines

A machine aggregates by the strategy of its node.  A run is one `init`, a `feed` for each row, and
one `finish`; a run that was given up is dropped by the next `init`.

`Session` is a machine at work on the tables of a store.  It writes to the table of the last start
that succeeded, and counts on the meter of that start.
-/

namespace GraphScan

/-- **An aggregation in one of its two forms.** -/
inductive Machine where
  | serial (s : Serial)
  | hashed (h : Hashed)

namespace Machine

def ofNode (node : AggregateNode) : Machine :=
  match node.strategy with
  | .serial => .serial (.new node)
  | .partialOrder sorted => .hashed (.withRuns node sorted)
  | .hash => .hashed (.new node)

/-- **Starts a run.** -/
def init (machine : Machine) (params : List Value) (width : Nat) :
    Except EngineError Row × Machine :=
  match machine with
  | .serial s =>
    let (outcome, s) := s.init params width
    (outcome, .serial s)
  | .hashed h =>
    let (outcome, h) := h.init params width
    (outcome, .hashed h)

/-- **Takes a row**, and tells whether more are wanted. -/
def feed (machine : Machine) (row : Row) (outlet : Outlet) :
    Except EngineError Demand × Machine × Outlet :=
  match machine with
  | .serial s =>
    let (outcome, s, outlet) := s.feed row outlet
    (outcome, .serial s, outlet)
  | .hashed h =>
    let (outcome, h, outlet) := h.feed row outlet
    (outcome, .hashed h, outlet)

/-- **Ends a run** and emits what is left. -/
def finish (machine : Machine) (outlet : Outlet) : Except EngineError Unit × Machine × Outlet :=
  match machine with
  | .serial s =>
    let (outcome, s, outlet) := s.finish outlet
    (outcome, .serial s, outlet)
  | .hashed h =>
    let (outcome, h, outlet) := h.finish outlet
    (outcome, .hashed h, outlet)

end Machine

/-! ## Sessions -/

/-- What a start hands over to the machine: the table to write to, and the meter to count on. -/
structure Binding where
  table : TableId
  meter : MeterId
deriving DecidableEq, Repr

/-- **A machine at work**, on the tables and the meters that there are. -/
structure Session where
  machine : Machine
  store : Store
  /-- What the last start that succeeded has handed over. -/
  bound : Option Binding
  meters : Meters

namespace Session

def new (node : AggregateNode) (store : Store) (meters : Meters) : Session :=
  ⟨.ofNode node, store, none, meters⟩

/-- The outlet of the machine.  Before the first start there is none, and the machine refuses every
call that would need one. -/
def outlet (session : Session) : Outlet :=
  match session.bound with
  | some binding => ⟨session.store.get binding.table, session.meters.get binding.meter⟩
  | none => ⟨default, default⟩

def settle (session : Session) (machine : Machine) (outlet : Outlet) : Session :=
  { session with
    machine
    store := match session.bound with
      | some binding => session.store.set binding.table outlet.shared
      | none => session.store
    meters := match session.bound with
      | some binding => session.meters.set binding.meter outlet.meter
      | none => session.meters }

/-- **Starts a run** on a table and on a meter.  If the start fails the machine stays bound to those
that it had. -/
def init (session : Session) (params : List Value) (width : Nat) (table : TableId)
    (meter : MeterId) : Except EngineError Row × Session :=
  match session.machine.init params width with
  | (.ok scratch, machine) => (.ok scratch, { session with machine, bound := some ⟨table, meter⟩ })
  | (.error e, machine) => (.error e, { session with machine })

/-- **Takes a row.** -/
def feed (session : Session) (row : Row) : Except EngineError Demand × Session :=
  let (outcome, machine, outlet) := session.machine.feed row session.outlet
  (outcome, session.settle machine outlet)

/-- **Ends a run.** -/
def finish (session : Session) : Except EngineError Unit × Session :=
  let (outcome, machine, outlet) := session.machine.finish session.outlet
  (outcome, session.settle machine outlet)

end Session

end GraphScan
