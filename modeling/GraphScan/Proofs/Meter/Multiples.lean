import GraphScan.Meter
import Mathlib.Logic.Function.Iterate

/-!
# When a meter reports

A meter reports when its count reaches a multiple of its interval, and at no other time.  It does
not matter through which of its handles the units come.

* `Meter.due` — the reports due after a number of units.
* `Meter.counted` — a meter after a number of units, in closed form.
* `Meter.iterate_tick_new` — **counting unit by unit comes to the closed form**, as long as the count
  is one that a meter can show.
* `Panel.run` — any sequence of calls through any number of handles.
* `Panel.run_new` — **whatever the sequence**, the meter has counted the units of its ticks.
-/

namespace GraphScan

namespace Meter

/-! ## One meter -/

/-- **The reports due after a number of units**, one for each multiple of the interval.  An interval
of zero counts as one. -/
def due (operator interval units : Nat) : Array ProgressReport :=
  let step := max interval 1
  ((List.range (units / step)).map fun j => ⟨operator, (j + 1) * step⟩).toArray

/-- **A meter that has counted a number of units.** -/
def counted (operator interval : Nat) (heard : Bool) (units : Nat) : Meter :=
  let step := max interval 1
  ⟨operator, step, step - units % step, units, heard,
    if heard then due operator interval units else #[]⟩

@[simp] theorem due_zero (operator interval : Nat) : due operator interval 0 = #[] := by
  simp [due]

theorem counted_zero (operator interval : Nat) (heard : Bool) :
    counted operator interval heard 0 = new operator interval heard := by
  simp [counted, new]

/-- Between two multiples nothing becomes due. -/
theorem due_succ_of_lt {operator interval units : Nat}
    (h : units % max interval 1 + 1 < max interval 1) :
    due operator interval (units + 1) = due operator interval units := by
  have hndvd : ¬ max interval 1 ∣ units + 1 := by
    rw [Nat.dvd_iff_mod_eq_zero, ← Nat.mod_add_mod, Nat.mod_eq_of_lt h]
    exact Nat.succ_ne_zero _
  simp only [due, Nat.succ_div_of_not_dvd hndvd]

/-- At a multiple the report of this very count becomes due. -/
theorem due_succ_of_eq {operator interval units : Nat}
    (h : units % max interval 1 + 1 = max interval 1) :
    due operator interval (units + 1) =
      (due operator interval units).push ⟨operator, units + 1⟩ := by
  have hcount : (units / max interval 1 + 1) * max interval 1 = units + 1 := by
    calc (units / max interval 1 + 1) * max interval 1
        = max interval 1 * (units / max interval 1) + max interval 1 := by
          rw [Nat.succ_mul, Nat.mul_comm]
      _ = max interval 1 * (units / max interval 1) + (units % max interval 1 + 1) := by rw [h]
      _ = units + 1 := by rw [← Nat.add_assoc, Nat.div_add_mod]
  have hdvd : max interval 1 ∣ units + 1 := ⟨_, hcount.symm.trans (Nat.mul_comm _ _)⟩
  simp only [due, Nat.succ_div_of_dvd hdvd, List.range_succ, List.map_append, List.map_cons,
    List.map_nil, hcount, List.push_toArray]

/-- One more unit. -/
theorem tick_counted (operator interval : Nat) (heard : Bool) {units : Nat} (h : units < maxCount) :
    (counted operator interval heard units).tick = counted operator interval heard (units + 1) := by
  have hprocessed : saturatingAdd maxCount units 1 = units + 1 :=
    Nat.min_eq_right (Nat.succ_le_of_lt h)
  have hmod : units % max interval 1 < max interval 1 :=
    Nat.mod_lt _ (Nat.lt_of_lt_of_le Nat.zero_lt_one (Nat.le_max_right _ _))
  rcases Nat.lt_or_eq_of_le (Nat.succ_le_of_lt hmod) with hmore | hlast
  · have hnext : (units + 1) % max interval 1 = units % max interval 1 + 1 := by
      rw [← Nat.mod_add_mod, Nat.mod_eq_of_lt hmore]
    have hremaining : 1 < max interval 1 - units % max interval 1 := Nat.lt_sub_of_add_lt (by omega)
    simp only [tick, counted, hprocessed, if_pos hremaining, due_succ_of_lt hmore, hnext,
      Nat.sub_add_eq]
  · have hnext : (units + 1) % max interval 1 = 0 := by
      rw [← Nat.mod_add_mod, ← Nat.succ_eq_add_one, hlast, Nat.mod_self]
    have hremaining : ¬ 1 < max interval 1 - units % max interval 1 := by omega
    simp only [tick, counted, hprocessed, if_neg hremaining, due_succ_of_eq hlast, hnext,
      Nat.sub_zero]
    cases heard <;> rfl

/-- **A new meter after any number of units.** -/
theorem iterate_tick_new (operator interval : Nat) (heard : Bool) {units : Nat}
    (h : units ≤ maxCount) :
    tick^[units] (new operator interval heard) = counted operator interval heard units := by
  induction units with
  | zero => exact (counted_zero operator interval heard).symm
  | succ units ih =>
      rw [Function.iterate_succ_apply', ih (Nat.le_of_succ_le h), tick_counted _ _ _ h]

end Meter

/-! ## Any number of handles -/

namespace Panel

/-- **A call through a handle.** -/
inductive Call where
  | tick (handle : Nat)
  /-- One more handle on the same meter. -/
  | clone (handle : Nat)

def call (panel : Panel) : Call → Panel
  | .tick handle => panel.tick handle
  | .clone handle => panel.clone handle

/-- Calls in any order. -/
def run (panel : Panel) (calls : List Call) : Panel :=
  calls.foldl call panel

/-- The units that a call counts: one for a tick through a handle that exists. -/
def unit (panel : Panel) : Call → Nat
  | .tick handle => if handle < panel.handles then 1 else 0
  | .clone _ => 0

/-- **The units that calls count**, one after the other. -/
def units (panel : Panel) : List Call → Nat
  | [] => 0
  | call :: calls => panel.unit call + (panel.call call).units calls

/-- A call counts its units on the meter, and closes no handle. -/
theorem call_spec (panel : Panel) (call : Call) :
    (panel.call call).meter = Meter.tick^[panel.unit call] panel.meter ∧
      panel.handles ≤ (panel.call call).handles := by
  cases call with
  | tick handle =>
      by_cases hhandle : handle < panel.handles <;> simp [Panel.call, tick, unit, hhandle]
  | clone handle =>
      by_cases hhandle : handle < panel.handles <;> simp [Panel.call, clone, unit, hhandle]

/-- So do all calls. -/
theorem run_spec (panel : Panel) (calls : List Call) :
    (panel.run calls).meter = Meter.tick^[panel.units calls] panel.meter ∧
      panel.handles ≤ (panel.run calls).handles := by
  induction calls generalizing panel with
  | nil => exact ⟨rfl, Nat.le_refl _⟩
  | cons call calls ih =>
      obtain ⟨hmeter, hhandles⟩ := ih (panel.call call)
      obtain ⟨hfirst, hkept⟩ := panel.call_spec call
      refine ⟨?_, Nat.le_trans hkept hhandles⟩
      show ((panel.call call).run calls).meter = _
      rw [hmeter, hfirst, units, Nat.add_comm, Function.iterate_add_apply]

/-- **Whatever the order of the calls**, the meter has counted their units, and there is a handle to
read it from. -/
theorem run_new (operator interval : Nat) (heard : Bool) {calls : List Call}
    (h : (new (.new operator interval heard)).units calls ≤ maxCount) :
    let panel := (new (.new operator interval heard)).run calls
    panel.meter =
        .counted operator interval heard ((new (.new operator interval heard)).units calls) ∧
      0 < panel.handles := by
  obtain ⟨hmeter, hhandles⟩ := (new (.new operator interval heard)).run_spec calls
  exact ⟨hmeter.trans (Meter.iterate_tick_new operator interval heard h), hhandles⟩

end Panel

end GraphScan
