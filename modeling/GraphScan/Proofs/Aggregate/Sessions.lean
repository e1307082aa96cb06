import GraphScan.Proofs.Aggregate.Twin

/-!
# Sessions call by call

The calls of a session can come in any order, and go on after errors.  Between them others use the
tables: they insert and consume rows, hold tables and release them.

* `Session.Call`, `Session.perform` — one call, or something that others do.
* `Session.trace` — **what shows of a session**: after every call its answer, the tables and the
  meters.
* `Session.Alike` — two sessions that differ in the form of their machine only.
* `Session.trace_serial` — **a serial aggregation cannot be told from a hashed one** whose runs are
  delimited by the whole key.
-/

namespace GraphScan

namespace Session

/-- **A call of a session**, or what others do to the tables in between. -/
inductive Call where
  | init (params : List Value) (width : Nat) (table : TableId) (meter : MeterId)
  | feed (row : Row)
  | finish
  | others (change : Store → Store)

/-- What a call answers.  Others get no answer from the session. -/
inductive Answer where
  | started (outcome : Except EngineError Row)
  | fed (outcome : Except EngineError Demand)
  | finished (outcome : Except EngineError Unit)
  | silent
deriving DecidableEq

def perform (session : Session) : Call → Answer × Session
  | .init params width table meter =>
    let (outcome, session) := session.init params width table meter
    (.started outcome, session)
  | .feed row =>
    let (outcome, session) := session.feed row
    (.fed outcome, session)
  | .finish =>
    let (outcome, session) := session.finish
    (.finished outcome, session)
  | .others change => (.silent, { session with store := change session.store })

/-- **What shows after a call**: its answer, all tables, and the work counted on all meters so far. -/
structure Sight where
  answer : Answer
  store : Store
  meters : Meters
deriving DecidableEq

/-- **What shows of a session** over a series of calls. -/
def trace (session : Session) : List Call → List Sight
  | [] => []
  | call :: calls =>
    let (answer, session) := session.perform call
    ⟨answer, session.store, session.meters⟩ :: session.trace calls

/-! ## Sessions alike -/

/-- **Two sessions in the same state** but for the form of their machine, which is serial in one and
hashed in the other. -/
structure Alike (first second : Session) : Prop where
  machines : ∃ s h, first.machine = .serial s ∧ second.machine = .hashed h ∧ Twin s h
  store_eq : second.store = first.store
  bound_eq : second.bound = first.bound
  meters_eq : second.meters = first.meters

namespace Alike

variable {first second : Session} {s : Serial} {h : Hashed}

theorem outlet_eq (ha : Alike first second) : second.outlet = first.outlet := by
  rw [outlet, outlet, ha.store_eq, ha.bound_eq, ha.meters_eq]

/-- Machines that stay in the same state and leave the same outlet leave alike sessions. -/
theorem settle (ha : Alike first second) (ht : Twin s h) (outlet : Outlet) :
    Alike (first.settle (.serial s) outlet) (second.settle (.hashed h) outlet) := by
  rw [Session.settle, Session.settle, ha.store_eq, ha.bound_eq, ha.meters_eq]
  exact ⟨⟨s, h, rfl, rfl, ht⟩, rfl, rfl, rfl⟩

theorem init (ha : Alike first second) (params : List Value) (width : Nat) (table : TableId)
    (meter : MeterId) :
    (first.init params width table meter).1 = (second.init params width table meter).1 ∧
      Alike (first.init params width table meter).2 (second.init params width table meter).2 := by
  obtain ⟨s, h, hserial, hhashed, ht⟩ := ha.machines
  obtain ⟨hout, hnext⟩ := ht.init params width
  simp only [Session.init, hserial, hhashed, Machine.init]
  rcases hs : s.init params width with ⟨outcome, s'⟩
  rcases hh : h.init params width with ⟨outcome', h'⟩
  rw [hs, hh] at hout hnext
  obtain rfl : outcome = outcome' := hout
  cases outcome with
  | error e => exact ⟨rfl, ⟨s', h', rfl, rfl, hnext⟩, ha.store_eq, ha.bound_eq, ha.meters_eq⟩
  | ok scratch => exact ⟨rfl, ⟨s', h', rfl, rfl, hnext⟩, ha.store_eq, rfl, ha.meters_eq⟩

theorem feed (ha : Alike first second) (row : Row) :
    (first.feed row).1 = (second.feed row).1 ∧ Alike (first.feed row).2 (second.feed row).2 := by
  obtain ⟨s, h, hserial, hhashed, ht⟩ := ha.machines
  obtain ⟨hout, hnext, houtlet⟩ := ht.feed row first.outlet
  simp only [Session.feed, hserial, hhashed, Machine.feed, ha.outlet_eq]
  refine ⟨hout, ?_⟩
  rw [← houtlet]
  exact ha.settle hnext _

theorem finish (ha : Alike first second) :
    first.finish.1 = second.finish.1 ∧ Alike first.finish.2 second.finish.2 := by
  obtain ⟨s, h, hserial, hhashed, ht⟩ := ha.machines
  obtain ⟨hout, hnext, houtlet⟩ := ht.finish first.outlet
  simp only [Session.finish, hserial, hhashed, Machine.finish, ha.outlet_eq]
  refine ⟨hout, ?_⟩
  rw [← houtlet]
  exact ha.settle hnext _

/-- **Every call** gets the same answer in alike sessions, and leaves them alike. -/
theorem perform (ha : Alike first second) (call : Call) :
    (first.perform call).1 = (second.perform call).1 ∧
      Alike (first.perform call).2 (second.perform call).2 := by
  cases call with
  | init params width table meter =>
      obtain ⟨hout, hnext⟩ := ha.init params width table meter
      exact ⟨congrArg Answer.started hout, hnext⟩
  | feed row =>
      obtain ⟨hout, hnext⟩ := ha.feed row
      exact ⟨congrArg Answer.fed hout, hnext⟩
  | finish =>
      obtain ⟨hout, hnext⟩ := ha.finish
      exact ⟨congrArg Answer.finished hout, hnext⟩
  | others change =>
      exact ⟨rfl, ha.machines, congrArg change ha.store_eq, ha.bound_eq, ha.meters_eq⟩

/-- **Alike sessions show the same.**  The induction is on the calls to come. -/
theorem trace (ha : Alike first second) (calls : List Call) :
    first.trace calls = second.trace calls := by
  induction calls generalizing first second with
  | nil => rfl
  | cons call calls ih =>
      obtain ⟨hanswer, hnext⟩ := ha.perform call
      simp only [Session.trace, hanswer, hnext.store_eq, hnext.meters_eq, ih hnext]

end Alike

/-! ## Serial and fully sorted -/

/-- **A serial aggregation shows what a hashed one does whose runs are delimited by the whole key**:
whatever the calls, every answer, every table and every count of work are the same. -/
theorem trace_serial (node : AggregateNode) {sorted : Nat} (hsorted : node.groupBy.length ≤ sorted)
    (store : Store) (meters : Meters) (calls : List Call) :
    Session.trace ⟨.serial (.new node), store, none, meters⟩ calls =
      Session.trace ⟨.hashed (.withRuns node sorted), store, none, meters⟩ calls := by
  have halike : Alike ⟨.serial (.new node), store, none, meters⟩
      ⟨.hashed (.withRuns node sorted), store, none, meters⟩ :=
    ⟨⟨_, _, rfl, rfl, .new node hsorted⟩, rfl, rfl, rfl⟩
  exact halike.trace calls

/-! ### An example: sums that go wrong -/

/-- The first sums by the first column, as many as the parameter says. -/
def firstSums : AggregateNode :=
  ⟨.serial, [.column 0], [⟨.sum, some (.column 1)⟩], none, some ⟨some (.parameter 0), none⟩,
    ⟨[⟨"k", .int⟩, ⟨"total", .int⟩]⟩⟩

def sumStore : Store :=
  ⟨#[.unheld (.empty "sums" firstSums.schema)]⟩

def sumMeters : Meters :=
  ⟨#[.new 1 1 true]⟩

/-- Others hold a table, or release it. -/
def holdSums (hold : Hold) (store : Store) : Store :=
  store.set 0 { store.get 0 with hold }

/-- Calls in the wrong order: a row before the start, a start without its parameter, a text among the
numbers, a key that ends a group while the table is held, a row after the last that is wanted, a
second end. -/
def sumCalls : List Call :=
  [.feed [.int 1, .int 1], .init [] 2 0 0, .init [.int 2] 2 0 0, .feed [.int 1, .int 1],
    .feed [.int 1, .text "a"], .others (holdSums .readers), .feed [.int 2, .int 5],
    .others (holdSums .free), .feed [.int 2, .int 6], .feed [.int 3, .int 7],
    .feed [.int 1, .int 8], .finish, .finish]

/-- Both forms give these answers.  The sum that the held table refused has used up a place. -/
theorem trace_serial_sumCalls :
    firstSums.groupBy.length ≤ 3 ∧
      Session.trace ⟨.serial (.new firstSums), sumStore, none, sumMeters⟩ sumCalls =
        Session.trace ⟨.hashed (.withRuns firstSums 3), sumStore, none, sumMeters⟩ sumCalls ∧
      (Session.trace ⟨.hashed (.withRuns firstSums 3), sumStore, none, sumMeters⟩ sumCalls).map
          Sight.answer =
        [.fed (.error (.aggregateNotStarted .feed)), .started (.error (.boundUnbound .limit 0)),
          .started (.ok [.null, .null]), .fed (.ok .more),
          .fed (.error (.sumUndefined (.int 1) (.text "a"))), .silent, .fed (.error .tableHeld),
          .silent, .fed (.ok .more), .fed (.ok .enough), .fed (.ok .more), .finished (.ok ()),
          .finished (.error (.aggregateFinished .finish))] :=
  ⟨by decide, trace_serial firstSums (by decide) sumStore _ sumCalls, rfl⟩

end Session

end GraphScan
