import GraphScan.Error

/-!
# Resolving windows

A window is stated by fixed counts or by parameters of the execution.  Resolving it gives the
counts; a parameter has to be bound to an integer that is not negative.  The limit is looked at
first.
-/

namespace GraphScan

/-- **A window over rows**: skip `offset` of them, then pass at most `limit`. -/
structure Window where
  limit : Option Nat
  offset : Nat
deriving DecidableEq, Repr

namespace Window

/-- The window through which everything passes. -/
def everything : Window := ⟨none, 0⟩

end Window

/-- The count that a bound stands for. -/
def Bound.resolve (bound : Bound) (role : BoundRole) (params : List Value) :
    Except EngineError Nat :=
  match bound with
  | .literal count => .ok count
  | .parameter index =>
    match params[index]? with
    | some (.int n) =>
      if 0 ≤ n.toInt then .ok n.toInt.toNat else .error (.negativeBound n role)
    | some other => .error (.boundNotInteger role index other.kind)
    | none => .error (.boundUnbound role index)

/-- **The window that a specification stands for** under the given parameters. -/
def WindowSpec.resolve (spec : WindowSpec) (params : List Value) : Except EngineError Window := do
  let limit ← match spec.limit with
    | some bound => do .ok (some (← bound.resolve .limit params))
    | none => .ok none
  let offset ← match spec.offset with
    | some bound => bound.resolve .offset params
    | none => .ok 0
  .ok ⟨limit, offset⟩

/-- The window of a stage that may have none. -/
def WindowSpec.resolveOptional (spec : Option WindowSpec) (params : List Value) :
    Except EngineError Window :=
  match spec with
  | some spec => spec.resolve params
  | none => .ok .everything

end GraphScan
