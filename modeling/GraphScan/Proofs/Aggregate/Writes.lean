import GraphScan.Aggregate.Machine
import GraphScan.Proofs.Table.Fit
import Mathlib.Logic.Function.Iterate

/-!
# What an aggregation writes

An aggregation touches its outlet in one way only: it appends finished rows, and each of them
counts as a unit of work.

* `Outlet.receiveAll` — an outlet after rows have been delivered to it.
* `SharedTable.face` — all that an insertion can tell of a table.  The rows that are in it already
  are not part of it.
* `Blind` — **a call that does nothing but append rows**.  The rows, the outcome and the new state
  may depend on the face of the table, never on its rows and never on the meter.
* `Machine.feed_blind`, `Machine.finish_blind` — the calls of a machine are of this kind, by one
  lemma for each of the functions they are made of.
* `Writes` — the same said of one table at a time.
-/

namespace GraphScan

variable {β γ σ τ : Type}

/-- **The outlet after rows have been delivered to it**: they are in the table, and counted. -/
def Outlet.receiveAll (outlet : Outlet) (rows : List Row) : Outlet :=
  ⟨outlet.shared.appendAll rows, Meter.tick^[rows.length] outlet.meter⟩

@[simp] theorem Outlet.receiveAll_nil (outlet : Outlet) : outlet.receiveAll [] = outlet := rfl

@[simp] theorem Outlet.shared_receiveAll (outlet : Outlet) (rows : List Row) :
    (outlet.receiveAll rows).shared = outlet.shared.appendAll rows := rfl

theorem Outlet.receiveAll_append (outlet : Outlet) (rows others : List Row) :
    (outlet.receiveAll rows).receiveAll others = outlet.receiveAll (rows ++ others) := by
  rw [receiveAll, receiveAll, receiveAll, SharedTable.appendAll_appendAll, List.length_append, Nat.add_comm,
    Function.iterate_add_apply]

/-- A row is delivered exactly where it can be inserted. -/
theorem Outlet.deliver_eq_ok_iff {outlet next : Outlet} {row : Row} :
    outlet.deliver row = (.ok (), next) ↔
      outlet.shared.hold = .free ∧ outlet.shared.table.schema.Fits row ∧
        next = outlet.receiveAll [row] := by
  rw [deliver]
  rcases hinsert : outlet.shared.insert row with ⟨e | _, shared⟩
  · constructor
    · intro h
      simp at h
    · rintro ⟨hfree, hfits, -⟩
      have hok := SharedTable.insert_eq_ok_iff.mpr ⟨hfree, hfits, rfl⟩
      rw [hinsert] at hok
      cases hok
  · obtain ⟨hfree, hfits, rfl⟩ := SharedTable.insert_eq_ok_iff.mp hinsert
    simp [hfree, hfits, receiveAll, eq_comm]

/-- **A row that cannot be delivered changes nothing**, and does not count. -/
theorem Outlet.deliver_of_error {outlet : Outlet} {row : Row} {e : EngineError}
    (h : (outlet.deliver row).1 = .error e) : outlet.deliver row = (.error e, outlet) := by
  rw [deliver] at h ⊢
  rcases hinsert : outlet.shared.insert row with ⟨e' | _, shared⟩
  · obtain rfl : e' = e := by simpa [hinsert] using h
    rw [SharedTable.insert_of_error (congrArg Prod.fst hinsert)] at hinsert
    cases hinsert
    rfl
  · simp [hinsert] at h

/-! ## What an insertion can tell of a table -/

/-- **The face of a table**: how it is held, its name and its schema. -/
structure Face where
  hold : Hold
  name : String
  schema : Schema

/-- Whether a table with this face takes a row. -/
def Face.check (face : Face) (row : Row) : Except EngineError Unit :=
  match face.hold with
  | .free => (Table.empty face.name face.schema).check row
  | _ => .error .tableHeld

namespace SharedTable

def face (shared : SharedTable) : Face :=
  ⟨shared.hold, shared.table.name, shared.table.schema⟩

@[simp] theorem face_appendAll (shared : SharedTable) (rows : List Row) :
    (shared.appendAll rows).face = shared.face := by
  simp [face]

/-- **An insertion looks at the face only**, and appends the row if it is admitted. -/
theorem insert_eq (shared : SharedTable) (row : Row) :
    shared.insert row =
      match shared.face.check row with
      | .ok () => (.ok (), shared.appendAll [row])
      | .error e => (.error e, shared) := by
  obtain ⟨table, hold⟩ := shared
  cases hold with
  | free =>
      simp only [insert, write, face, Face.check, Table.insert]
      rw [show (Table.empty table.name table.schema).check row = table.check row from rfl]
      cases table.check row <;> rfl
  | readers => rfl
  | writer => rfl

theorem fst_insert (shared : SharedTable) (row : Row) :
    (shared.insert row).1 = shared.face.check row := by
  rw [insert_eq]
  cases shared.face.check row <;> rfl

end SharedTable

/-! ## Calls that only append -/

/-- **A call that only appends rows to its outlet.**  Which rows, with what outcome and what new
state, depends on nothing but the face of the table. -/
def Blind (call : Outlet → Except EngineError β × σ × Outlet) : Prop :=
  ∀ face, ∃ outcome state rows, ∀ outlet : Outlet, outlet.shared.face = face →
    call outlet = (outcome, state, outlet.receiveAll rows)

namespace Blind

theorem of_eq {call other : Outlet → Except EngineError β × σ × Outlet} (h : Blind other)
    (heq : ∀ outlet, call outlet = other outlet) : Blind call := by
  rwa [funext heq]

theorem pure (outcome : Except EngineError β) (state : σ) :
    Blind fun outlet => (outcome, state, outlet) :=
  fun _ => ⟨outcome, state, [], fun _ _ => rfl⟩

theorem map {call : Outlet → Except EngineError β × σ × Outlet} (h : Blind call)
    (f : Except EngineError β → Except EngineError γ) (g : σ → τ) :
    Blind fun outlet => (f (call outlet).1, g (call outlet).2.1, (call outlet).2.2) := by
  intro face
  obtain ⟨outcome, state, rows, heq⟩ := h face
  refine ⟨f outcome, g state, rows, fun outlet hface => ?_⟩
  simp only [heq outlet hface]

/-- A call followed by another one if more is wanted.  The rows of the first have not changed the
face that the second one sees. -/
theorem andThen {call : Outlet → Except EngineError Demand × σ × Outlet} (h : Blind call)
    {next : σ → Outlet → Except EngineError Demand × σ × Outlet}
    (hnext : ∀ state, Blind (next state)) :
    Blind fun outlet =>
      match call outlet with
      | (.ok .more, state, outlet) => next state outlet
      | stopped => stopped := by
  intro face
  obtain ⟨outcome, state, rows, heq⟩ := h face
  match outcome with
  | .ok .more =>
      obtain ⟨outcome', state', rows', heq'⟩ := hnext state face
      refine ⟨outcome', state', rows ++ rows', fun outlet hface => ?_⟩
      simp only [heq outlet hface, ← Outlet.receiveAll_append]
      exact heq' _ (by simpa using hface)
  | .ok .enough =>
      refine ⟨.ok .enough, state, rows, fun outlet hface => ?_⟩
      simp only [heq outlet hface]
  | .error e =>
      refine ⟨.error e, state, rows, fun outlet hface => ?_⟩
      simp only [heq outlet hface]

end Blind

/-- **A call that only appends rows to its outlet**, for each table on its own.  Which rows, with
what outcome and what new state, does not depend on the meter. -/
def Writes (call : Outlet → Except EngineError β × σ × Outlet) : Prop :=
  ∀ shared, ∃ outcome state rows, ∀ meter,
    call ⟨shared, meter⟩ = (outcome, state, Outlet.receiveAll ⟨shared, meter⟩ rows)

theorem Blind.writes {call : Outlet → Except EngineError β × σ × Outlet} (h : Blind call) :
    Writes call := by
  intro shared
  obtain ⟨outcome, state, rows, heq⟩ := h shared.face
  exact ⟨outcome, state, rows, fun meter => heq ⟨shared, meter⟩ rfl⟩

/-- **The meter does not show.**  On outlets with the same table the outcomes, the states and the
tables afterwards are the same. -/
theorem Writes.congr {call : Outlet → Except EngineError β × σ × Outlet} (h : Writes call)
    {first second : Outlet} (hshared : first.shared = second.shared) :
    (call first).1 = (call second).1 ∧ (call first).2.1 = (call second).2.1 ∧
      (call first).2.2.shared = (call second).2.2.shared := by
  obtain ⟨shared, meter⟩ := first
  obtain ⟨_, meter'⟩ := second
  obtain rfl : shared = _ := hshared
  obtain ⟨outcome, state, rows, heq⟩ := h shared
  simp [heq]

/-! ## Emission -/

/-- Delivering a row that passed the gate appends it, or fails on every table of the same face
alike. -/
theorem Gate.emit_blind (gate : Gate) (group : Group) : Blind (gate.emit group) := by
  intro face
  simp only [emit]
  by_cases hopen : gate.isOpen = true
  · simp only [if_pos hopen]
    match gate.offer group.row with
    | .error e => exact ⟨.error e, gate, [], fun _ _ => rfl⟩
    | .ok (false, gate) => exact ⟨.ok gate.demand, gate, [], fun _ _ => rfl⟩
    | .ok (true, gate) =>
        simp only [Outlet.deliver, SharedTable.insert_eq]
        cases hcheck : face.check group.row with
        | error e =>
            refine ⟨.error e, gate, [], ?_⟩
            rintro outlet rfl
            simp only [hcheck, Outlet.receiveAll_nil]
        | ok =>
            refine ⟨.ok gate.demand, gate, [group.row], ?_⟩
            rintro outlet rfl
            simp only [hcheck]
            rfl
  · simp only [if_neg hopen]
    exact ⟨.ok .enough, gate, [], fun _ _ => rfl⟩

theorem Gate.emitAll_blind (gate : Gate) (groups : List Group) :
    Blind fun outlet => gate.emitAll outlet groups := by
  induction groups generalizing gate with
  | nil => exact .pure (.ok Demand.more) gate
  | cons group groups ih =>
      refine ((gate.emit_blind group).andThen ih).of_eq fun outlet => ?_
      rw [emitAll]
      rcases gate.emit group outlet with ⟨_ | _ | _, gate, outlet⟩ <;> rfl

theorem Gate.emitAll_writes (gate : Gate) (groups : List Group) :
    Writes fun outlet => gate.emitAll outlet groups :=
  (gate.emitAll_blind groups).writes

/-! ## Serial aggregation -/

namespace Serial

theorem emit_blind (s : Serial) (group : Group) : Blind (s.emit group) := by
  show Blind fun outlet => s.emit group outlet
  simp only [emit]
  cases s.gate with
  | none => exact .pure _ s
  | some gate => exact (gate.emit_blind group).map id fun gate => { s with gate := some gate }

theorem closeOther_blind (s : Serial) (key : GroupKey) : Blind (s.closeOther key) := by
  show Blind fun outlet => s.closeOther key outlet
  simp only [closeOther]
  cases s.current with
  | none => exact .pure _ s
  | some group =>
      by_cases hkey : group.key = key
      · simp only [if_pos hkey]
        exact .pure _ s
      · simp only [if_neg hkey]
        exact emit_blind _ group

theorem feed_blind (s : Serial) (row : Row) : Blind (s.feed row) := by
  show Blind fun outlet => s.feed row outlet
  simp only [feed]
  cases s.phase.check .feed with
  | error e => exact .pure _ s
  | ok =>
      cases Expr.evalEach row s.node.groupBy with
      | error e => exact .pure _ s
      | ok key =>
          refine ((s.closeOther_blind key).andThen fun s =>
            .pure (s.collect key row).1 (s.collect key row).2).of_eq fun outlet => ?_
          dsimp only
          rcases s.closeOther key outlet with ⟨_ | _ | _, s, outlet⟩ <;> rfl

theorem finish_blind (s : Serial) : Blind s.finish := by
  show Blind fun outlet => s.finish outlet
  simp only [finish]
  cases s.phase.check .finish with
  | error e => exact .pure _ s
  | ok =>
      cases s.pending with
      | none => cases s.gate <;> exact .pure _ _
      | some group => exact (emit_blind _ group).map _ id

end Serial

/-! ## Hashed aggregation -/

namespace Hashed

theorem flush_blind (h : Hashed) : Blind h.flush := by
  show Blind fun outlet => h.flush outlet
  simp only [flush]
  cases h.gate with
  | none => exact .pure _ h
  | some gate =>
      exact (gate.emitAll_blind h.groups.toList).map id
        fun gate => { h with gate := some gate, index := [], groups := #[] }

theorem enterRun_blind (h : Hashed) (run : GroupKey) : Blind (h.enterRun run) := by
  show Blind fun outlet => h.enterRun run outlet
  simp only [enterRun]
  by_cases hwidth : h.runWidth = 0
  · simp only [if_pos hwidth]
    exact .pure _ h
  · simp only [if_neg hwidth]
    cases h.startsRun run with
    | false => exact .pure _ _
    | true =>
        refine (h.flush_blind.andThen fun h =>
          .pure (.ok .more) { h with run := some run }).of_eq fun outlet => ?_
        rcases h.flush outlet with ⟨_ | _ | _, h, outlet⟩ <;> rfl

theorem feed_blind (h : Hashed) (row : Row) : Blind (h.feed row) := by
  show Blind fun outlet => h.feed row outlet
  simp only [feed]
  cases h.phase.check .feed with
  | error e => exact .pure _ h
  | ok =>
      cases Expr.evalEach row h.node.groupBy with
      | error e => exact .pure _ h
      | ok key =>
          refine ((h.enterRun_blind (key.take h.runWidth)).andThen fun h =>
            .pure (h.collect key row).1 (h.collect key row).2).of_eq fun outlet => ?_
          dsimp only
          rcases h.enterRun (key.take h.runWidth) outlet with ⟨_ | _ | _, h, outlet⟩ <;> rfl

theorem finish_blind (h : Hashed) : Blind h.finish := by
  show Blind fun outlet => h.finish outlet
  simp only [finish]
  cases h.phase.check .finish with
  | error e => exact .pure _ h
  | ok => exact (flush_blind _).map _ id

end Hashed

/-! ## Machines -/

namespace Machine

/-- **Feeding a machine only appends rows.** -/
theorem feed_blind (machine : Machine) (row : Row) : Blind (machine.feed row) := by
  cases machine with
  | serial s => exact (s.feed_blind row).map id Machine.serial
  | hashed h => exact (h.feed_blind row).map id Machine.hashed

/-- **Ending a machine only appends rows.** -/
theorem finish_blind (machine : Machine) : Blind machine.finish := by
  cases machine with
  | serial s => exact s.finish_blind.map id Machine.serial
  | hashed h => exact h.finish_blind.map id Machine.hashed

theorem feed_writes (machine : Machine) (row : Row) : Writes (machine.feed row) :=
  (machine.feed_blind row).writes

theorem finish_writes (machine : Machine) : Writes machine.finish :=
  machine.finish_blind.writes

end Machine

end GraphScan
