/-!
# Progress meters

A meter counts units of work and reports at regular intervals.  Whoever does part of the work
counts on the same meter, through a handle of its own.

* `Meter.tick` — counts one unit; at every multiple of the interval a report is made.
* `Panel` — a meter and the handles on it.  All handles read the same count.
* `Meters` — several meters, each known by its number.
-/

namespace GraphScan

/-- A count that stays at its greatest value once it gets there. -/
def saturatingAdd (greatest a b : Nat) : Nat :=
  min greatest (a + b)

def maxCount : Nat :=
  UInt64.size - 1

/-- A report: the operator, and the units that it has processed. -/
structure ProgressReport where
  operator : Nat
  processed : Nat
deriving DecidableEq, Repr

/-- **A progress meter.** -/
structure Meter where
  operator : Nat
  /-- The units from one report to the next. -/
  interval : Nat
  /-- The units up to the next report. -/
  remaining : Nat
  processed : Nat
  /-- Whether anyone receives the reports. -/
  heard : Bool
  /-- The reports made, the oldest first. -/
  reports : Array ProgressReport
deriving DecidableEq, Repr, Inhabited

namespace Meter

/-- A meter for an operator.  An interval of zero counts as one. -/
def new (operator interval : Nat) (heard : Bool) : Meter :=
  let interval := max interval 1
  ⟨operator, interval, interval, 0, heard, #[]⟩

def tick (meter : Meter) : Meter :=
  let processed := saturatingAdd maxCount meter.processed 1
  if 1 < meter.remaining then
    { meter with processed, remaining := meter.remaining - 1 }
  else
    let reports :=
      if meter.heard then meter.reports.push ⟨meter.operator, processed⟩ else meter.reports
    { meter with processed, remaining := meter.interval, reports }

@[simp] theorem interval_tick (meter : Meter) : meter.tick.interval = meter.interval := by
  rw [tick]
  split <;> rfl

end Meter

/-! ## Handles -/

/-- **A meter and the number of handles on it.** -/
structure Panel where
  meter : Meter
  handles : Nat
deriving DecidableEq, Repr

namespace Panel

/-- A meter with one handle. -/
def new (meter : Meter) : Panel := ⟨meter, 1⟩

def tick (panel : Panel) (handle : Nat) : Panel :=
  if handle < panel.handles then { panel with meter := panel.meter.tick } else panel

def clone (panel : Panel) (handle : Nat) : Panel :=
  if handle < panel.handles then { panel with handles := panel.handles + 1 } else panel

def readings (panel : Panel) : List Nat :=
  List.replicate panel.handles panel.meter.processed

end Panel

/-! ## Several meters -/

abbrev MeterId := Nat

/-- **The meters of a session.**  All handles on a meter go by its number. -/
structure Meters where
  meters : Array Meter
deriving DecidableEq, Inhabited

namespace Meters

def get (meters : Meters) (id : MeterId) : Meter :=
  meters.meters.getD id default

/-- The meters with another one under a number that is in use. -/
def set (meters : Meters) (id : MeterId) (meter : Meter) : Meters :=
  ⟨meters.meters.setIfInBounds id meter⟩

/-- A meter that was set is read back under its number; the others are as before. -/
theorem get_set_of_ne {id other : MeterId} (h : id ≠ other) (meters : Meters) (meter : Meter) :
    (meters.set id meter).get other = meters.get other := by
  simp [get, set, h]

/-- Writing back what was read changes nothing. -/
theorem set_get (meters : Meters) (id : MeterId) : meters.set id (meters.get id) = meters := by
  obtain ⟨meters⟩ := meters
  simp only [set, get, Meters.mk.injEq]
  by_cases hid : id < meters.size
  · simp [Array.setIfInBounds, hid]
  · simp [Array.setIfInBounds, hid]

end Meters

end GraphScan
