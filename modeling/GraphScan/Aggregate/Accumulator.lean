import GraphScan.Error
import GraphScan.Value.Order

/-!
# Accumulators

An accumulator folds the inputs of one aggregate column over the rows of one group.  Every
function but the row count passes over nulls.

* `Accumulator.update` — folds in one input; the row count takes none.
* `Accumulator.result` — the value of the column.

A sum of integers is exact or fails; it never wraps.  An extremum needs inputs that have an order.
-/

namespace GraphScan

/-- **The state of an aggregate column within a group.** -/
inductive Accumulator where
  | avg (total : Binary64) (inputs : Nat)
  | count (n : Nat)
  | countStar (n : Nat)
  | max (best : Option Value)
  | min (best : Option Value)
  | sum (total : Option Value)
deriving DecidableEq, Repr

namespace Accumulator

def new : AggregateKind → Accumulator
  | .avg => .avg .zero 0
  | .count => .count 0
  | .countStar => .countStar 0
  | .max => .max none
  | .min => .min none
  | .sum => .sum none

/-- The better of the value kept so far and a candidate, where `wanted` is how a better candidate
compares with the value kept. -/
def better (kind : AggregateKind) (wanted : Ordering) (best : Option Value) (candidate : Value) :
    Except EngineError Value :=
  match best with
  | none => .ok candidate
  | some kept =>
    match candidate.compare? kept with
    | some order => .ok (if order = wanted then candidate else kept)
    | none => .error (.aggregateIncomparable kind candidate.kind kept.kind)

def addTo (total : Option Value) (value : Value) : Except EngineError Value :=
  match total with
  | none =>
    if value.isNumeric then .ok value else .error (.aggregateNotNumeric .sum value.kind)
  | some total =>
    match total.add? value with
    | some next => .ok next
    | none => .error (.sumUndefined total value)

/-- Folds in a value that is not null. -/
def absorb (value : Value) : Accumulator → Except EngineError Accumulator
  | .avg total inputs =>
    match value.toNumber? with
    | some x => .ok (.avg (total.add x) (inputs + 1))
    | none => .error (.aggregateNotNumeric .avg value.kind)
  | .count n => .ok (.count (n + 1))
  | .countStar n => .ok (.countStar (n + 1))
  | .max best => do .ok (.max (some (← better .max .gt best value)))
  | .min best => do .ok (.min (some (← better .min .lt best value)))
  | .sum total => do .ok (.sum (some (← addTo total value)))

/-- **Folds in one row's input.**  The row count counts the row whatever its input; the other
functions ignore a null and a missing input. -/
def update (input : Option Value) : Accumulator → Except EngineError Accumulator
  | .countStar n => .ok (.countStar (n + 1))
  | acc =>
    match input with
    | none | some .null => .ok acc
    | some value => acc.absorb value

/-- **The value of the column**; null where there was nothing to fold, except for counts. -/
def result : Accumulator → Value
  | .avg total inputs => if inputs = 0 then .null else .float (total.div (.ofNat inputs))
  | .count n | .countStar n => .int (Integer.ofCount n)
  | .max best | .min best => best.getD .null
  | .sum total => total.getD .null

end Accumulator

end GraphScan
