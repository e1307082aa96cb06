import GraphScan.Expr.Eval
import GraphScan.Plan.Window

/-!
# Gates

A gate stands between the rows that arrive and those that go on.  It applies a predicate and lets
pass a window of the matches.

* The predicate comes first: a row that it rejects, or fails on, counts for nothing.
* The first `skip` matches are dropped.
* Only then do matches count towards the limit and pass.

A gate can also be closed from outside, for good.
-/

namespace GraphScan

/-- **A gate** and what is left of its window. -/
structure Gate where
  predicate : Option Expr
  limit : Option Nat
  /-- The matches still to be dropped. -/
  skip : Nat
  /-- The rows that have passed. -/
  passed : Nat
  /-- Whether it was closed from outside. -/
  closed : Bool
deriving Inhabited

namespace Gate

/-- A gate that no row has reached yet. -/
def new (predicate : Option Expr) (window : Window) : Gate :=
  ⟨predicate, window.limit, window.offset, 0, false⟩

def isOpen (gate : Gate) : Bool :=
  !gate.closed && match gate.limit with
    | some limit => decide (gate.passed < limit)
    | none => true

/-- Whether a row matches; a gate without a predicate takes every row as a match. -/
def isMatch (gate : Gate) (row : Row) : Except EngineError Bool :=
  match gate.predicate with
  | some predicate => do
    let verdict ← predicate.eval row
    .ok verdict.isTrue
  | none => .ok true

/-- Counts a match, and tells whether it passes. -/
def countMatch (gate : Gate) : Bool × Gate :=
  if 0 < gate.skip then (false, { gate with skip := gate.skip - 1 })
  else if gate.isOpen then (true, { gate with passed := gate.passed + 1 })
  else (false, gate)

/-- **Offers a row**: whether it passes, and the gate after it.  If the predicate fails the gate is
as before. -/
def offer (gate : Gate) (row : Row) : Except EngineError (Bool × Gate) := do
  let matched ← gate.isMatch row
  .ok (if matched then gate.countMatch else (false, gate))

def close (gate : Gate) : Gate :=
  { gate with closed := true }

/-! ## What an offer does -/

@[simp] theorem isOpen_close (gate : Gate) : gate.close.isOpen = false := by
  simp [isOpen, close]

/-- A match passes exactly if nothing is left to drop and the gate is open. -/
theorem countMatch_fst (gate : Gate) :
    gate.countMatch.1 = (decide (gate.skip = 0) && gate.isOpen) := by
  rw [countMatch]
  by_cases hskip : gate.skip = 0
  · cases hopen : gate.isOpen <;> simp [hskip]
  · simp [hskip, Nat.pos_of_ne_zero hskip]

/-- The rows that have passed are counted one by one. -/
theorem passed_countMatch (gate : Gate) :
    gate.countMatch.2.passed = gate.passed + gate.countMatch.1.toNat := by
  rw [countMatch]
  split
  · simp
  · split <;> simp

theorem offer_of_isMatch_false {gate : Gate} {row : Row} (h : gate.isMatch row = .ok false) :
    gate.offer row = .ok (false, gate) := by
  simp [offer, h, bind, Except.bind]

theorem offer_of_isMatch_true {gate : Gate} {row : Row} (h : gate.isMatch row = .ok true) :
    gate.offer row = .ok gate.countMatch := by
  simp [offer, h, bind, Except.bind]

end Gate

end GraphScan
