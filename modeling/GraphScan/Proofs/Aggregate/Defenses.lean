import GraphScan.Proofs.Aggregate.Twin
import GraphScan.Proofs.Typing.Expr

/-!
# Defensive checks of an aggregation

Some errors can only be raised by a check that repeats what has been settled before: that the plan is
sound, that an aggregation has been started and not ended, that it has a place to write to, that the
group in its index is there.  An aggregation that has been started never raises one of them, whatever
rows it is fed.

* `EngineError.isDefensive` — **the errors of such checks**.
* `Spared` — an outcome that is no such error.  `Spared.bind` composes such outcomes.
* `Expr.eval_spared` — no expression raises one, on any row.
* `Hashed.Running` — **the invariant of a hashed aggregation that has been started**: it runs, it has a
  gate, and every slot in its index is that of a group.
* `Machine.complete_spared` — **an aggregation that has been started** raises no such error, up to its
  end.
-/

namespace GraphScan

variable {α β : Type}

/-! ## The errors of defensive checks -/

/-- **Whether an error is one of a defensive check**: of a plan, of an output that must not be written,
of a scratch row, or of the state of an aggregation.  A report that somebody else made up would be out
of place as well. -/
def EngineError.isDefensive : EngineError → Bool
  | .plan _ _ | .aliasedOutput | .cellOutOfRange _ _ => true
  | .aggregateNotStarted _ | .aggregateFinished _ | .aggregateUnbound _ | .groupSlotLost _ => true
  | .reported _ => true
  | _ => false

/-- An error of any other check carries no defect of a plan. -/
theorem EngineError.defect_eq_none {e : EngineError} (h : e.isDefensive = false) :
    e.report.defect = none := by
  cases e with
  | plan operator defect => cases h
  | reported report => cases h
  | _ => rfl

/-- **Whether an outcome is spared** the errors of defensive checks. -/
def Spared : Except EngineError α → Prop
  | .ok _ => True
  | .error e => e.isDefensive = false

namespace Spared

theorem bind {outcome : Except EngineError α} {next : α → Except EngineError β}
    (h : Spared outcome) (hnext : ∀ value, Spared (next value)) : Spared (outcome >>= next) := by
  cases outcome with
  | error e => exact h
  | ok value => exact hnext value

theorem map {outcome : Except EngineError α} (h : Spared outcome) (f : α → β) :
    Spared (outcome.map f) := by
  cases outcome with
  | error e => exact h
  | ok value => trivial

theorem of_error {outcome : Except EngineError α} {e : EngineError} (h : Spared outcome)
    (herror : outcome = .error e) : e.isDefensive = false := by
  rwa [herror] at h

end Spared

/-! ## Expressions -/

/-- The faults of an expression are none of them. -/
theorem Expr.Fault.isDefensive {expr : Expr} {width : Nat} {e : EngineError}
    (h : expr.Fault width e) : e.isDefensive = false := by
  cases h with
  | column index h => rfl
  | operand h =>
      cases e with
      | incomparable | divisionByZero | integerOverflow | arithmeticUndefined | notBoolean => rfl
      | _ => cases h

namespace Expr

/-- **No expression raises an error of a defensive check**, on any row. -/
theorem eval_spared (row : Row) (expr : Expr) : Spared (expr.eval row) := by
  have hmeets := eval_meets row.conforms_types expr
  cases heval : expr.eval row with
  | ok value => trivial
  | error e =>
      rw [heval] at hmeets
      exact hmeets.isDefensive

theorem evalEach_spared (row : Row) (exprs : List Expr) : Spared (evalEach row exprs) := by
  induction exprs with
  | nil => trivial
  | cons expr exprs ih =>
      rw [evalEach]
      exact (eval_spared row expr).bind fun _ => ih.bind fun _ => trivial

end Expr

/-! ## Groups -/

namespace Accumulator

theorem better_spared (kind : AggregateKind) (wanted : Ordering) (best : Option Value)
    (candidate : Value) : Spared (better kind wanted best candidate) := by
  cases best with
  | none => trivial
  | some kept =>
      simp only [better]
      cases candidate.compare? kept <;> trivial

theorem addTo_spared (total : Option Value) (value : Value) : Spared (addTo total value) := by
  cases total with
  | none =>
      rw [addTo]
      split_ifs <;> trivial
  | some total =>
      simp only [addTo]
      cases total.add? value <;> trivial

theorem absorb_spared (value : Value) (acc : Accumulator) : Spared (acc.absorb value) := by
  cases acc with
  | avg total inputs =>
      rw [absorb]
      cases value.toNumber? <;> trivial
  | count n | countStar n => trivial
  | max best => exact (better_spared .max .gt best value).bind fun _ => trivial
  | min best => exact (better_spared .min .lt best value).bind fun _ => trivial
  | sum total => exact (addTo_spared total value).bind fun _ => trivial

theorem update_spared (input : Option Value) (acc : Accumulator) : Spared (acc.update input) := by
  unfold update
  split
  · trivial
  · split
    · trivial
    · trivial
    · exact absorb_spared _ _

end Accumulator

namespace Group

theorem input_spared (aggregate : AggregateExpr) (row : Row) : Spared (input aggregate row) := by
  obtain ⟨kind, expr⟩ := aggregate
  cases expr with
  | none => cases kind <;> trivial
  | some expr =>
      cases kind with
      | countStar => trivial
      | _ => exact (Expr.eval_spared row expr).map some

theorem foldRow_spared (row : Row) (aggregates : List AggregateExpr) (accs : List Accumulator) :
    Spared (foldRow row aggregates accs).1 := by
  induction aggregates generalizing accs with
  | nil => trivial
  | cons aggregate aggregates ih =>
      cases accs with
      | nil => trivial
      | cons acc accs =>
          have hinput := input_spared aggregate row
          rw [foldRow]
          cases hvalue : input aggregate row with
          | error e => exact hinput.of_error hvalue
          | ok value =>
              have hupdate := acc.update_spared value
              dsimp only
              cases hacc : acc.update value with
              | error e => exact hupdate.of_error hacc
              | ok next => exact ih accs

theorem update_spared (group : Group) (aggregates : List AggregateExpr) (row : Row) :
    Spared (group.update aggregates row).1 :=
  foldRow_spared row aggregates group.accumulators

end Group

/-! ## Delivery -/

theorem SharedTable.insert_spared (shared : SharedTable) (row : Row) :
    Spared (shared.insert row).1 := by
  rw [fst_insert, Face.check]
  cases shared.face.hold with
  | free =>
      simp only [Table.check]
      split
      · rfl
      · split <;> trivial
  | readers => rfl
  | writer => rfl

namespace Gate

theorem isMatch_spared (gate : Gate) (row : Row) : Spared (gate.isMatch row) := by
  rw [isMatch]
  cases gate.predicate with
  | none => trivial
  | some predicate => exact (Expr.eval_spared row predicate).bind fun _ => trivial

theorem offer_spared (gate : Gate) (row : Row) : Spared (gate.offer row) :=
  (gate.isMatch_spared row).bind fun _ => trivial

theorem emit_spared (gate : Gate) (group : Group) (outlet : Outlet) :
    Spared (gate.emit group outlet).1 := by
  have hoffer := gate.offer_spared group.row
  rw [emit]
  split_ifs
  · dsimp only
    rcases hout : gate.offer group.row with e | ⟨_ | _, next⟩
    · exact hoffer.of_error hout
    · trivial
    · have hinsert := outlet.shared.insert_spared group.row
      rw [Outlet.deliver]
      rcases hrow : outlet.shared.insert group.row with ⟨e | _, shared⟩
      · exact hinsert.of_error (congrArg Prod.fst hrow)
      · trivial
  · trivial

theorem emitAll_spared (gate : Gate) (outlet : Outlet) (groups : List Group) :
    Spared (gate.emitAll outlet groups).1 := by
  induction groups generalizing gate outlet with
  | nil => trivial
  | cons group groups ih =>
      have hemit := gate.emit_spared group outlet
      rw [emitAll]
      rcases hcall : gate.emit group outlet with ⟨_ | _ | _, next, after⟩ <;> rw [hcall] at hemit
      · exact hemit
      · exact ih next after
      · trivial

end Gate

/-! ## Hashed aggregation -/

namespace Hashed

/-- **The state of a hashed aggregation that has been started**: it runs, it has a gate, and each slot
in its index is the slot of a group. -/
structure Running (h : Hashed) : Prop where
  phase_eq : h.phase = .running
  gate_eq : ∃ gate, h.gate = some gate
  index : ∀ key slot, h.index.lookup key = some slot → slot < h.groups.size

variable {h : Hashed}

/-- Emitting the groups empties the index with them. -/
theorem flush_spared (hr : h.Running) (outlet : Outlet) :
    Spared (h.flush outlet).1 ∧ (h.flush outlet).2.1.Running := by
  obtain ⟨gate, hgate⟩ := hr.gate_eq
  rw [flush_of_gate hgate]
  exact ⟨gate.emitAll_spared outlet _, hr.phase_eq, ⟨_, rfl⟩, by simp⟩

theorem enterRun_spared (hr : h.Running) (run : GroupKey) (outlet : Outlet) :
    Spared (h.enterRun run outlet).1 ∧ (h.enterRun run outlet).2.1.Running := by
  rw [enterRun]
  split_ifs
  · exact ⟨trivial, hr⟩
  · have hflush := flush_spared hr outlet
    rcases hcall : h.flush outlet with ⟨_ | _ | _, next, after⟩ <;> rw [hcall] at hflush
    · exact hflush
    · exact ⟨trivial, { hflush.2 with }⟩
    · exact hflush
  · exact ⟨trivial, { hr with }⟩

/-- The slot of a key is that of a group, old or new. -/
theorem slotOf_running (hr : h.Running) (key : GroupKey) :
    (h.slotOf key).2.Running ∧ (h.slotOf key).1 < (h.slotOf key).2.groups.size := by
  rw [slotOf]
  cases hlookup : h.index.lookup key with
  | some slot => exact ⟨hr, hr.index key slot hlookup⟩
  | none =>
      refine ⟨⟨hr.phase_eq, hr.gate_eq, ?_⟩, by simp⟩
      intro other slot hslot
      rw [List.lookup_cons] at hslot
      rw [Array.size_push]
      split at hslot
      · have hsize : h.groups.size = slot := Option.some.inj hslot
        omega
      · exact Nat.lt_succ_of_lt (hr.index other slot hslot)

/-- **No group is lost.** -/
theorem collect_spared (hr : h.Running) (key : GroupKey) (row : Row) :
    Spared (h.collect key row).1 ∧ (h.collect key row).2.Running := by
  obtain ⟨hnext, hslot⟩ := slotOf_running hr key
  rw [collect]
  rcases hcall : h.slotOf key with ⟨slot, next⟩
  rw [hcall] at hnext hslot
  dsimp only at hnext hslot ⊢
  have hgroup : next.groups[slot]? = some next.groups[slot] := Array.getElem?_eq_getElem hslot
  simp only [hgroup]
  refine ⟨(Group.update_spared _ _ _).map _, hnext.phase_eq, hnext.gate_eq, ?_⟩
  simpa using hnext.index

/-- **A row** keeps the invariant, whatever becomes of it. -/
theorem feed_spared (hr : h.Running) (row : Row) (outlet : Outlet) :
    Spared (h.feed row outlet).1 ∧ (h.feed row outlet).2.1.Running := by
  have hvalues := Expr.evalEach_spared row h.node.groupBy
  simp only [feed, hr.phase_eq, Phase.check]
  cases hkey : Expr.evalEach row h.node.groupBy with
  | error e => exact ⟨hvalues.of_error hkey, hr⟩
  | ok key =>
      have henter := enterRun_spared hr (key.take h.runWidth) outlet
      dsimp only
      rcases hcall : h.enterRun (key.take h.runWidth) outlet with ⟨_ | _ | _, next, after⟩ <;>
        rw [hcall] at henter
      · exact henter
      · exact collect_spared henter.2 key row
      · exact henter

theorem finish_spared (hr : h.Running) (outlet : Outlet) : Spared (h.finish outlet).1 := by
  obtain ⟨gate, hgate⟩ := hr.gate_eq
  rw [(finish_of_gate hr.phase_eq hgate outlet).1]
  exact (gate.emitAll_spared outlet _).map _

/-- **All rows, and the end.**  The induction is on the rows; `Running` is what one of them hands on to
the next. -/
theorem complete_spared (hr : h.Running) (rows : List Row) (outlet : Outlet) :
    Spared ((Machine.hashed h).complete rows outlet).1 := by
  induction rows generalizing h outlet with
  | nil => exact finish_spared hr outlet
  | cons row rows ih =>
      have hfeed := feed_spared hr row outlet
      rcases hcall : h.feed row outlet with ⟨_ | _ | _, next, after⟩ <;> rw [hcall] at hfeed
      · rw [Machine.complete_cons_of_error (Machine.feed_of_hashed hcall)]
        exact hfeed.1
      · rw [Machine.complete_cons_of_more (Machine.feed_of_hashed hcall)]
        exact ih hfeed.2 after
      · rw [Machine.complete_cons_of_enough (Machine.feed_of_hashed hcall)]
        exact finish_spared hfeed.2 after

end Hashed

/-! ## Starts -/

theorem Bound.resolve_spared (bound : Bound) (role : BoundRole) (params : List Value) :
    Spared (bound.resolve role params) := by
  cases bound with
  | literal count => trivial
  | parameter index =>
      simp only [resolve]
      match params[index]? with
      | some (.int n) =>
          dsimp only
          split_ifs <;> trivial
      | some (.bool _) | some (.float _) | some (.text _) | some .null => rfl
      | none => rfl

theorem WindowSpec.resolveOptional_spared (spec : Option WindowSpec) (params : List Value) :
    Spared (resolveOptional spec params) := by
  cases spec with
  | none => trivial
  | some spec =>
      obtain ⟨limit, offset⟩ := spec
      have hbound (bound : Bound) (role : BoundRole) := bound.resolve_spared role params
      cases limit with
      | none =>
          cases offset with
          | none => trivial
          | some offset => exact (hbound offset .offset).bind fun _ => trivial
      | some limit =>
          refine (hbound limit .limit).bind fun _ => ?_
          cases offset with
          | none => trivial
          | some offset => exact (hbound offset .offset).bind fun _ => trivial

/-- A hashed aggregation that has been started runs, whatever it has been through before. -/
theorem Hashed.running_of_init {h : Hashed} {params : List Value} {width : Nat} {scratch : Row}
    (hinit : (h.init params width).1 = .ok scratch) : (h.init params width).2.Running := by
  simp only [init] at hinit ⊢
  cases hgate : h.node.gate params with
  | error e => simp [hgate] at hinit
  | ok gate => exact ⟨rfl, ⟨gate, rfl⟩, by simp⟩

namespace Machine

variable {machine : Machine} {params : List Value} {width : Nat} {scratch : Row}

theorem init_spared (machine : Machine) (params : List Value) (width : Nat) :
    Spared (machine.init params width).1 := by
  have hgate : Spared (machine.node.gate params) :=
    (WindowSpec.resolveOptional_spared machine.node.window params).bind fun _ => trivial
  cases machine with
  | serial s =>
      simp only [init, Serial.init]
      cases hout : s.node.gate params with
      | error e => exact hgate.of_error hout
      | ok gate => trivial
  | hashed h =>
      simp only [init, Hashed.init]
      cases hout : h.node.gate params with
      | error e => exact hgate.of_error hout
      | ok gate => trivial

/-- **An aggregation that has been started** raises no error of a defensive check, whatever rows it is
fed and whatever it has been through before. -/
theorem complete_spared (hinit : (machine.init params width).1 = .ok scratch) (rows : List Row)
    (outlet : Outlet) : Spared ((machine.init params width).2.complete rows outlet).1 := by
  cases machine with
  | hashed h => exact Hashed.complete_spared (Hashed.running_of_init hinit) rows outlet
  | serial s =>
      -- Once it is started, the serial aggregation has a hashed twin.
      obtain ⟨hstart, htwin⟩ := Twin.of_init hinit
      show Spared ((Machine.serial (s.init params width).2).complete rows outlet).1
      rw [(htwin.complete rows outlet).1]
      exact Hashed.complete_spared (Hashed.running_of_init hstart) rows outlet

end Machine

end GraphScan
