import GraphScan.Proofs.Aggregate.Restart
import GraphScan.Proofs.Gate.Calls
import Mathlib.Algebra.Ring.Nat

/-!
# Enough is enough

A driver that is told that no more is wanted may stop or go on, and what it does then no longer
matters.  The answers do not show this: an aggregation that has said "enough" takes rows, opens
groups and may answer "more" again.  It is the gate that remembers.

* `Gate.Spends` — **how a gate changes while rows are delivered**: each of them has passed it, and
  a gate that is not open stays as it is.
* `Machine.feed_spends`, `Machine.finish_spends` — the calls of a machine spend its gate, by one
  lemma for each of the functions they are made of.
* `Session.inserted` — how many rows a session inserts over a series of turns.
* `Session.after_spends` — the invariant over any turns, until a start succeeds.
* `Session.driven` — a driver, which decides after each answer how to go on.
* `Session.enough_is_final` — **after "enough" nothing is written, the limit is never exceeded, and
  a driver that stops leaves what one that goes on leaves.**
-/

namespace GraphScan

/-! ## Gates -/

namespace Gate

variable {gate next last : Gate} {group : Group} {outlet : Outlet} {count more : Nat}

/-- **From one gate to a later one**, with so many rows delivered in between. -/
structure Spends (gate : Gate) (count : Nat) (next : Gate) : Prop where
  limit : next.limit = gate.limit
  passed : gate.passed + count ≤ next.passed
  within : ∀ limit ∈ gate.limit, gate.passed ≤ limit → next.passed ≤ limit
  shut : gate.isOpen = false → next = gate

namespace Spends

theorem refl (gate : Gate) : gate.Spends 0 gate :=
  ⟨rfl, Nat.le_refl _, fun _ _ h => h, fun _ => rfl⟩

theorem trans (h : gate.Spends count next) (h' : next.Spends more last) :
    gate.Spends (count + more) last where
  limit := h'.limit.trans h.limit
  passed := by
    have hfirst := h.passed
    have hsecond := h'.passed
    omega
  within := fun limit hlimit hle => h'.within limit (h.limit ▸ hlimit) (h.within limit hlimit hle)
  shut := fun hshut => by
    obtain rfl := h.shut hshut
    exact h'.shut hshut

theorem mono (h : gate.Spends count next) (hle : more ≤ count) : gate.Spends more next :=
  ⟨h.limit, by have hpassed := h.passed; omega, h.within, h.shut⟩

/-- Through a gate that is not open nothing is delivered. -/
theorem count_eq_zero (h : gate.Spends count next) (hshut : gate.isOpen = false) : count = 0 := by
  have hpassed := h.passed
  rw [h.shut hshut] at hpassed
  omega

end Spends

/-- **A match spends the place of one row** if it passes. -/
theorem countMatch_spends (hopen : gate.isOpen = true) :
    gate.Spends gate.countMatch.1.toNat gate.countMatch.2 where
  limit := limit_countMatch gate
  passed := Nat.le_of_eq (passed_countMatch gate).symm
  within := fun _ hlimit hle => passed_countMatch_le hlimit hle
  shut := fun hshut => by simp [hopen] at hshut

/-- An offer spends a place exactly if the row passes. -/
theorem offer_spends {row : Row} {passes : Bool} (hopen : gate.isOpen = true)
    (hoffer : gate.offer row = .ok (passes, next)) : gate.Spends passes.toNat next := by
  cases hmatch : gate.isMatch row with
  | error e => simp [offer, hmatch, bind, Except.bind] at hoffer
  | ok found =>
      cases found with
      | false =>
          rw [offer_of_isMatch_false hmatch] at hoffer
          cases hoffer
          exact .refl gate
      | true =>
          rw [offer_of_isMatch_true hmatch, Except.ok.injEq] at hoffer
          have hspends := countMatch_spends hopen
          rwa [hoffer] at hspends

/-- Only a gate that is not open has enough. -/
theorem demand_eq_enough_iff : gate.demand = .enough ↔ gate.isOpen = false := by
  rw [demand]
  cases gate.isOpen <;> simp

/-- **What a call leaves that began with this gate**: no more rows are delivered than the gate has
let pass, and if the call says that it is enough the gate is not open any more. -/
structure Serves (gate : Gate) (outlet : Outlet) (answer : Except EngineError Demand) (next : Gate)
    (after : Outlet) : Prop where
  delivered : ∃ rows, after = outlet.receiveAll rows ∧ gate.Spends rows.length next
  enough : answer = .ok .enough → next.isOpen = false

namespace Serves

/-- A call that does not come to the gate. -/
theorem idle {answer : Except EngineError Demand} (gate : Gate) (outlet : Outlet)
    (h : answer ≠ .ok .enough) : gate.Serves outlet answer gate outlet :=
  ⟨⟨[], rfl, .refl gate⟩, fun henough => absurd henough h⟩

theorem trans {first second : Except EngineError Demand} {between after : Outlet}
    (h : gate.Serves outlet first next between) (h' : next.Serves between second last after) :
    gate.Serves outlet second last after := by
  obtain ⟨rows, rfl, hspends⟩ := h.delivered
  obtain ⟨others, rfl, hrest⟩ := h'.delivered
  refine ⟨⟨rows ++ others, Outlet.receiveAll_append outlet rows others, ?_⟩, h'.enough⟩
  rw [List.length_append]
  exact hspends.trans hrest

end Serves

/-- **Offering a group.**  A row that the table refuses has passed the gate all the same. -/
theorem emit_serves (gate : Gate) (group : Group) (outlet : Outlet) :
    gate.Serves outlet (gate.emit group outlet).1 (gate.emit group outlet).2.1
      (gate.emit group outlet).2.2 := by
  rw [emit]
  cases hopen : gate.isOpen with
  | false => exact ⟨⟨[], rfl, .refl gate⟩, fun _ => hopen⟩
  | true =>
      rw [if_pos rfl]
      dsimp only
      cases hoffer : gate.offer group.row with
      | error e => exact .idle gate outlet (by simp)
      | ok result =>
          obtain ⟨passes, next⟩ := result
          have hspends := offer_spends hopen hoffer
          have henough (h : (Except.ok next.demand : Except EngineError Demand) = .ok .enough) :
              next.isOpen = false := demand_eq_enough_iff.mp (Except.ok.inj h)
          cases passes with
          | false => exact ⟨⟨[], rfl, hspends⟩, henough⟩
          | true =>
              rcases hdeliver : outlet.deliver group.row with ⟨e | _, after⟩
              · rw [Outlet.deliver_of_error (congrArg Prod.fst hdeliver)] at hdeliver
                cases hdeliver
                exact ⟨⟨[], rfl, hspends.mono (Nat.zero_le _)⟩, by simp⟩
              · obtain ⟨-, -, rfl⟩ := Outlet.deliver_eq_ok_iff.mp hdeliver
                exact ⟨⟨[group.row], rfl, hspends⟩, henough⟩

theorem emitAll_serves (gate : Gate) (outlet : Outlet) (groups : List Group) :
    gate.Serves outlet (gate.emitAll outlet groups).1 (gate.emitAll outlet groups).2.1
      (gate.emitAll outlet groups).2.2 := by
  induction groups generalizing gate outlet with
  | nil => exact .idle gate outlet (by simp [emitAll])
  | cons group groups ih =>
      have hemit := gate.emit_serves group outlet
      rw [emitAll]
      rcases hgroup : gate.emit group outlet with ⟨_ | _ | _, next, between⟩
      all_goals rw [hgroup] at hemit
      · exact hemit
      · exact hemit.trans (ih next between)
      · exact hemit

end Gate

/-! ## Serial aggregation -/

variable {gate : Gate} {row : Row} {outlet : Outlet}

namespace Serial

variable {s : Serial}

theorem emit_serves (s : Serial) (hgate : s.gate = some gate) (group : Group) (outlet : Outlet) :
    ∃ next, (s.emit group outlet).2.1.gate = some next ∧
      gate.Serves outlet (s.emit group outlet).1 next (s.emit group outlet).2.2 := by
  rw [emit, hgate]
  exact ⟨_, rfl, gate.emit_serves group outlet⟩

theorem closeOther_serves (hgate : s.gate = some gate) (key : GroupKey) (outlet : Outlet) :
    ∃ next, (s.closeOther key outlet).2.1.gate = some next ∧
      gate.Serves outlet (s.closeOther key outlet).1 next (s.closeOther key outlet).2.2 := by
  rw [closeOther]
  cases s.current with
  | none => exact ⟨gate, hgate, .idle gate outlet (by simp)⟩
  | some group =>
      dsimp only
      split
      · exact ⟨gate, hgate, .idle gate outlet (by simp)⟩
      · exact emit_serves { s with current := none } hgate group outlet

/-- Folding a row into its group leaves the gate alone, and never says that it is enough. -/
theorem collect_ne_enough (s : Serial) (key : GroupKey) (row : Row) :
    (s.collect key row).1 ≠ .ok .enough := by
  rw [collect]
  rcases (s.current.getD _).update s.node.aggregates row with ⟨_ | _, group⟩ <;>
    simp [Except.map]

theorem feed_serves (hgate : s.gate = some gate) (row : Row) (outlet : Outlet) :
    ∃ next, (s.feed row outlet).2.1.gate = some next ∧
      gate.Serves outlet (s.feed row outlet).1 next (s.feed row outlet).2.2 := by
  rw [feed]
  cases s.phase.check .feed with
  | error e => exact ⟨gate, hgate, .idle gate outlet (by simp)⟩
  | ok =>
      cases Expr.evalEach row s.node.groupBy with
      | error e => exact ⟨gate, hgate, .idle gate outlet (by simp)⟩
      | ok key =>
          dsimp only
          obtain ⟨next, hnext, hserves⟩ := closeOther_serves hgate key outlet
          rcases hclose : s.closeOther key outlet with ⟨_ | _ | _, s', between⟩
          all_goals rw [hclose] at hnext hserves
          · exact ⟨next, hnext, hserves⟩
          · exact ⟨next, hnext, hserves.trans (.idle next between (collect_ne_enough s' key row))⟩
          · exact ⟨next, hnext, hserves⟩

theorem finish_delivers (hgate : s.gate = some gate) (outlet : Outlet) :
    ∃ next rows, (s.finish outlet).2.1.gate = some next ∧
      (s.finish outlet).2.2 = outlet.receiveAll rows ∧ gate.Spends rows.length next := by
  rw [finish]
  cases s.phase.check .finish with
  | error e => exact ⟨gate, [], hgate, rfl, .refl gate⟩
  | ok =>
      dsimp only
      cases s.pending with
      | none =>
          simp only [hgate]
          exact ⟨gate, [], rfl, rfl, .refl gate⟩
      | some group =>
          obtain ⟨next, hnext, hserves⟩ :=
            emit_serves { s with phase := .finished, current := none } hgate group outlet
          obtain ⟨rows, hrows⟩ := hserves.delivered
          exact ⟨next, rows, hnext, hrows⟩

end Serial

/-! ## Hashed aggregation -/

namespace Hashed

variable {h : Hashed}

theorem flush_serves (hgate : h.gate = some gate) (outlet : Outlet) :
    ∃ next, (h.flush outlet).2.1.gate = some next ∧
      gate.Serves outlet (h.flush outlet).1 next (h.flush outlet).2.2 := by
  rw [flush, hgate]
  exact ⟨_, rfl, gate.emitAll_serves outlet h.groups.toList⟩

theorem enterRun_serves (hgate : h.gate = some gate) (run : GroupKey) (outlet : Outlet) :
    ∃ next, (h.enterRun run outlet).2.1.gate = some next ∧
      gate.Serves outlet (h.enterRun run outlet).1 next (h.enterRun run outlet).2.2 := by
  rw [enterRun]
  split
  · exact ⟨gate, hgate, .idle gate outlet (by simp)⟩
  · split
    · obtain ⟨next, hnext, hserves⟩ := flush_serves hgate outlet
      rcases hflush : h.flush outlet with ⟨_ | _ | _, h', after⟩
      all_goals rw [hflush] at hnext hserves
      all_goals exact ⟨next, hnext, hserves⟩
    · exact ⟨gate, hgate, .idle gate outlet (by simp)⟩

theorem gate_slotOf (h : Hashed) (key : GroupKey) : (h.slotOf key).2.gate = h.gate := by
  rw [slotOf]
  cases h.index.lookup key <;> rfl

/-- Folding a row into its group leaves the gate alone, and never says that it is enough. -/
theorem collect_ne_enough (h : Hashed) (key : GroupKey) (row : Row) :
    (h.collect key row).1 ≠ .ok .enough ∧ (h.collect key row).2.gate = h.gate := by
  have hgate := h.gate_slotOf key
  rw [collect]
  rcases hslot : h.slotOf key with ⟨slot, h'⟩
  rw [hslot] at hgate
  dsimp only
  cases h'.groups[slot]? with
  | none => exact ⟨by simp, hgate⟩
  | some group =>
      dsimp only
      rcases group.update h'.node.aggregates row with ⟨_ | _, group⟩ <;>
        exact ⟨by simp [Except.map], hgate⟩

theorem feed_serves (hgate : h.gate = some gate) (row : Row) (outlet : Outlet) :
    ∃ next, (h.feed row outlet).2.1.gate = some next ∧
      gate.Serves outlet (h.feed row outlet).1 next (h.feed row outlet).2.2 := by
  rw [feed]
  cases h.phase.check .feed with
  | error e => exact ⟨gate, hgate, .idle gate outlet (by simp)⟩
  | ok =>
      cases Expr.evalEach row h.node.groupBy with
      | error e => exact ⟨gate, hgate, .idle gate outlet (by simp)⟩
      | ok key =>
          dsimp only
          obtain ⟨next, hnext, hserves⟩ := enterRun_serves hgate (key.take h.runWidth) outlet
          rcases hrun : h.enterRun (key.take h.runWidth) outlet with ⟨_ | _ | _, h', between⟩
          all_goals rw [hrun] at hnext hserves
          · exact ⟨next, hnext, hserves⟩
          · obtain ⟨hanswer, hsame⟩ := h'.collect_ne_enough key row
            exact ⟨next, hsame.trans hnext, hserves.trans (.idle next between hanswer)⟩
          · exact ⟨next, hnext, hserves⟩

theorem finish_delivers (hgate : h.gate = some gate) (outlet : Outlet) :
    ∃ next rows, (h.finish outlet).2.1.gate = some next ∧
      (h.finish outlet).2.2 = outlet.receiveAll rows ∧ gate.Spends rows.length next := by
  rw [finish]
  cases h.phase.check .finish with
  | error e => exact ⟨gate, [], hgate, rfl, .refl gate⟩
  | ok =>
      have hensured : (ensureGroup { h with phase := .finished }).gate = some gate := by
        rw [ensureGroup]
        split <;> exact hgate
      obtain ⟨next, hnext, hserves⟩ := flush_serves hensured outlet
      obtain ⟨rows, hrows⟩ := hserves.delivered
      exact ⟨next, rows, hnext, hrows⟩

end Hashed

/-! ## Machines -/

namespace Machine

/-- The gate of the current run. -/
def gate? : Machine → Option Gate
  | .serial s => s.gate
  | .hashed h => h.gate

variable {machine : Machine}

/-- **Feeding a machine spends its gate.** -/
theorem feed_serves (hgate : machine.gate? = some gate) (row : Row) (outlet : Outlet) :
    ∃ next, (machine.feed row outlet).2.1.gate? = some next ∧
      gate.Serves outlet (machine.feed row outlet).1 next (machine.feed row outlet).2.2 := by
  cases machine with
  | serial s => exact s.feed_serves hgate row outlet
  | hashed h => exact h.feed_serves hgate row outlet

/-- **Ending a machine spends its gate.** -/
theorem finish_delivers (hgate : machine.gate? = some gate) (outlet : Outlet) :
    ∃ next rows, (machine.finish outlet).2.1.gate? = some next ∧
      (machine.finish outlet).2.2 = outlet.receiveAll rows ∧ gate.Spends rows.length next := by
  cases machine with
  | serial s => exact s.finish_delivers hgate outlet
  | hashed h => exact h.finish_delivers hgate outlet

/-- **A start that succeeds gives a new gate**, for the window that it has resolved; one that fails
keeps the gate that there is. -/
theorem gate?_init (machine : Machine) (params : List Value) (width : Nat) :
    (∃ window, WindowSpec.resolveOptional machine.node.window params = .ok window ∧
      (machine.init params width).1 = .ok (Row.nulls width) ∧
      (machine.init params width).2.gate? = some (.new machine.node.having window)) ∨
    (∃ e, (machine.init params width).1 = .error e ∧
      (machine.init params width).2.gate? = machine.gate?) := by
  cases hwindow : WindowSpec.resolveOptional machine.node.window params with
  | ok window =>
      have hgate : machine.node.gate params = .ok (.new machine.node.having window) := by
        rw [AggregateNode.gate, hwindow]
        rfl
      refine .inl ⟨window, rfl, ?_⟩
      cases machine <;> simp only [node] at hgate <;>
        simp [init, Serial.init, Hashed.init, hgate, gate?, node]
  | error e =>
      have hgate : machine.node.gate params = .error e := by
        rw [AggregateNode.gate, hwindow]
        rfl
      refine .inr ⟨e, ?_⟩
      cases machine <;> simp only [node] at hgate <;>
        simp [init, Serial.init, Hashed.init, hgate, gate?]

end Machine

/-! ## Rows in all tables -/

/-- A number in place of one that is not much smaller. -/
theorem sum_set_le {sizes : List Nat} {index size count : Nat}
    (h : ∀ old ∈ sizes[index]?, size ≤ old + count) :
    (sizes.set index size).sum ≤ sizes.sum + count := by
  induction sizes generalizing index with
  | nil => simp
  | cons first sizes ih =>
      cases index with
      | zero =>
          have hfirst := h first rfl
          simp only [List.set_cons_zero, List.sum_cons]
          omega
      | succ index =>
          have hrest : (sizes.set index size).sum ≤ sizes.sum + count := ih h
          simp only [List.set_cons_succ, List.sum_cons]
          omega
namespace Store

/-- The rows in all tables together. -/
def active (store : Store) : Nat :=
  (store.tables.toList.map fun shared => shared.table.active).sum

theorem active_set_le {store : Store} {id : TableId} {shared : SharedTable} {count : Nat}
    (h : shared.table.active ≤ (store.get id).table.active + count) :
    (store.set id shared).active ≤ store.active + count := by
  rw [active, active, set, Array.toList_setIfInBounds, List.map_set]
  refine sum_set_le fun size hsize => ?_
  rw [List.getElem?_map, Option.mem_def, Option.map_eq_some_iff] at hsize
  obtain ⟨old, hold, rfl⟩ := hsize
  rw [Array.getElem?_toList] at hold
  rwa [get, Array.getD_eq_getD_getElem?, hold] at h

theorem active_append_le (store : Store) (id : TableId) (rows : List Row) :
    (store.set id ((store.get id).appendAll rows)).active ≤ store.active + rows.length := by
  refine active_set_le (Nat.le_of_eq ?_)
  rw [Table.active, ← Array.length_toList]
  simp [Table.active]
end Store

/-! ## Sessions -/

namespace Session

variable {session : Session}

/-- How many rows a turn inserts.  What others do to the tables does not count. -/
def insertedBy (session : Session) : Turn → Nat
  | .call (.others _) | .meters _ => 0
  | .call call => (session.perform call).2.store.active - session.store.active

/-- **How many rows a session inserts** over a series of turns, into all tables together. -/
def inserted (session : Session) : List Turn → Nat
  | [] => 0
  | turn :: turns => session.insertedBy turn + (session.turn turn).2.inserted turns

/-- **No start succeeds** among some turns. -/
def Continues (session : Session) (turns : List Turn) : Prop :=
  ∀ sight ∈ session.watch turns, ∀ scratch, sight.answer ≠ .started (.ok scratch)

theorem continues_cons {turn : Turn} {turns : List Turn} :
    session.Continues (turn :: turns) ↔
      (∀ scratch, (session.turn turn).1 ≠ .started (.ok scratch)) ∧
        (session.turn turn).2.Continues turns := by
  rw [Continues, watch]
  exact List.forall_mem_cons

/-! ### What a call writes -/

/-- A session whose table has got rows, with the work counted. -/
def deliver (session : Session) (rows : List Row) : Session :=
  session.settle session.machine (session.outlet.receiveAll rows)

@[simp] theorem deliver_nil (session : Session) : session.deliver [] = session :=
  session.settle_outlet

theorem active_deliver_le (session : Session) (rows : List Row) :
    (session.deliver rows).store.active ≤ session.store.active + rows.length := by
  rw [deliver, settle, outlet]
  cases session.bound with
  | none => exact Nat.le_add_right _ _
  | some binding => exact session.store.active_append_le binding.table rows

/-- **What a call writes has passed the gate**, unless the call is a start that succeeds. -/
theorem perform_spends (call : Call) (hown : call.IsOwn)
    (hcontinues : ∀ scratch, (session.perform call).1 ≠ .started (.ok scratch))
    (hgate : session.machine.gate? = some gate) :
    ∃ next rows, (session.perform call).2.machine.gate? = some next ∧
      gate.Spends rows.length next ∧
      (session.perform call).2.store = (session.deliver rows).store ∧
      (session.perform call).2.meters = (session.deliver rows).meters := by
  cases call with
  | init params width table meter =>
      have hkept := session.machine.gate?_init params width
      simp only [perform, init] at hcontinues ⊢
      rcases hinit : session.machine.init params width with ⟨e | scratch, machine⟩
      all_goals rw [hinit] at hcontinues hkept
      · obtain ⟨-, -, hok, -⟩ | ⟨-, -, hsame⟩ := hkept
        · cases hok
        · refine ⟨gate, [], hsame.trans hgate, .refl gate, ?_, ?_⟩ <;> rw [deliver_nil]
      · exact absurd rfl (hcontinues scratch)
  | feed row =>
      obtain ⟨next, hnext, hserves⟩ := Machine.feed_serves hgate row session.outlet
      obtain ⟨rows, houtlet, hspends⟩ := hserves.delivered
      refine ⟨next, rows, hnext, hspends, ?_⟩
      simp only [perform, feed, houtlet]
      exact ⟨rfl, rfl⟩
  | finish =>
      obtain ⟨next, rows, hnext, houtlet, hspends⟩ := Machine.finish_delivers hgate session.outlet
      refine ⟨next, rows, hnext, hspends, ?_⟩
      simp only [perform, finish, houtlet]
      exact ⟨rfl, rfl⟩
  | others change => exact hown.elim

/-- **After "enough" a call writes nothing**, whatever it is. -/
theorem perform_of_shut (call : Call) (hown : call.IsOwn)
    (hgate : session.machine.gate? = some gate) (hshut : gate.isOpen = false) :
    (session.perform call).2.store = session.store ∧
      (session.perform call).2.meters = session.meters := by
  by_cases hcontinues : ∀ scratch, (session.perform call).1 ≠ .started (.ok scratch)
  · obtain ⟨next, rows, -, hspends, hstore, hmeters⟩ := perform_spends call hown hcontinues hgate
    obtain rfl : rows = [] := List.length_eq_zero_iff.mp (hspends.count_eq_zero hshut)
    rw [deliver_nil] at hstore hmeters
    exact ⟨hstore, hmeters⟩
  · -- A start writes nothing, even one that succeeds.
    cases call with
    | init params width table meter =>
        simp only [perform, init]
        rcases session.machine.init params width with ⟨_ | _, machine⟩ <;> exact ⟨rfl, rfl⟩
    | feed row => exact absurd (fun _ => by simp [perform]) hcontinues
    | finish => exact absurd (fun _ => by simp [perform]) hcontinues
    | others change => exact hown.elim

/-! ### What turns spend -/

theorem insertedBy_le (session : Session) (call : Call) :
    session.insertedBy (.call call) ≤
      (session.perform call).2.store.active - session.store.active := by
  cases call with
  | others change => exact Nat.zero_le _
  | _ => exact Nat.le_refl _

theorem turn_spends {turn : Turn}
    (hcontinues : ∀ scratch, (session.turn turn).1 ≠ .started (.ok scratch))
    (hgate : session.machine.gate? = some gate) :
    ∃ next, (session.turn turn).2.machine.gate? = some next ∧
      gate.Spends (session.insertedBy turn) next := by
  cases turn with
  | meters change => exact ⟨gate, hgate, .refl gate⟩
  | call call =>
      by_cases hown : call.IsOwn
      · obtain ⟨next, rows, hnext, hspends, hstore, -⟩ := perform_spends call hown hcontinues hgate
        have hcount := session.insertedBy_le call
        have hactive := session.active_deliver_le rows
        rw [hstore] at hcount
        exact ⟨next, hnext, hspends.mono (by omega)⟩
      · cases call with
        | others change => exact ⟨gate, hgate, .refl gate⟩
        | _ => exact absurd trivial hown

/-- **Over any turns, until a start succeeds**, the rows that a session inserts have passed one
gate. -/
theorem after_spends {turns : List Turn} (hcontinues : session.Continues turns)
    (hgate : session.machine.gate? = some gate) :
    ∃ next, (session.after turns).machine.gate? = some next ∧
      gate.Spends (session.inserted turns) next := by
  induction turns generalizing session gate with
  | nil => exact ⟨gate, hgate, .refl gate⟩
  | cons turn turns ih =>
      rw [continues_cons] at hcontinues
      obtain ⟨next, hnext, hspends⟩ := turn_spends hcontinues.1 hgate
      obtain ⟨last, hlast, hrest⟩ := ih hcontinues.2 hnext
      exact ⟨last, hlast, hspends.trans hrest⟩

/-! ### Drivers -/

/-- What a driver does next: feed another row, end the run, or leave it as it is. -/
inductive Reaction where
  | feed
  | finish
  | leave
deriving DecidableEq

/-- **A driver at work**: it feeds rows as long as its reaction to the answers says so, and ends the
run when there are no more. -/
def driven (react : Except EngineError Demand → Reaction) (session : Session) : List Row → Session
  | [] => session.finish.2
  | row :: rows =>
    let (answer, session) := session.feed row
    match react answer with
    | .feed => session.driven react rows
    | .finish => session.finish.2
    | .leave => session

/-- However the answer to a row is taken, nothing is written after it if nothing is written for the
rows behind it. -/
theorem driven_cons_of_shut {react : Except EngineError Demand → Reaction} {rows : List Row}
    (hgate : (session.feed row).2.machine.gate? = some gate) (hshut : gate.isOpen = false)
    (hrest : ((session.feed row).2.driven react rows).store = (session.feed row).2.store ∧
      ((session.feed row).2.driven react rows).meters = (session.feed row).2.meters) :
    (session.driven react (row :: rows)).store = (session.feed row).2.store ∧
      (session.driven react (row :: rows)).meters = (session.feed row).2.meters := by
  rw [driven]
  dsimp only
  cases react (session.feed row).1 with
  | feed => exact hrest
  | finish => exact perform_of_shut .finish trivial hgate hshut
  | leave => exact ⟨rfl, rfl⟩

/-- **Behind "enough" no driver writes anything.** -/
theorem driven_of_shut (react : Except EngineError Demand → Reaction) (rows : List Row)
    (hgate : session.machine.gate? = some gate) (hshut : gate.isOpen = false) :
    (session.driven react rows).store = session.store ∧
      (session.driven react rows).meters = session.meters := by
  induction rows generalizing session with
  | nil => exact perform_of_shut .finish trivial hgate hshut
  | cons row rows ih =>
      obtain ⟨hstore, hmeter⟩ := perform_of_shut (.feed row) trivial hgate hshut
      obtain ⟨next, count, hnext, hspends, -⟩ := perform_spends (.feed row) trivial nofun hgate
      rw [hspends.shut hshut] at hnext
      rw [← hstore, ← hmeter]
      exact driven_cons_of_shut hnext hshut (ih hnext)

/-- **It is all the same what a driver does at "enough"**, as long as it does the same at the other
answers. -/
theorem driven_congr {react other : Except EngineError Demand → Reaction}
    (hreact : ∀ answer, answer ≠ .ok .enough → react answer = other answer) (rows : List Row)
    (hgate : session.machine.gate? = some gate) :
    (session.driven react rows).store = (session.driven other rows).store ∧
      (session.driven react rows).meters = (session.driven other rows).meters := by
  induction rows generalizing session gate with
  | nil => exact ⟨rfl, rfl⟩
  | cons row rows ih =>
      obtain ⟨next, hnext, hserves⟩ := Machine.feed_serves hgate row session.outlet
      have hnext' : (session.feed row).2.machine.gate? = some next := hnext
      by_cases henough : (session.feed row).1 = .ok .enough
      · -- Both drivers leave everything as it is after this row.
        have hshut := hserves.enough henough
        obtain ⟨hstore, hmeter⟩ :=
          driven_cons_of_shut hnext' hshut (driven_of_shut react rows hnext' hshut)
        obtain ⟨hstore', hmeter'⟩ :=
          driven_cons_of_shut hnext' hshut (driven_of_shut other rows hnext' hshut)
        exact ⟨hstore.trans hstore'.symm, hmeter.trans hmeter'.symm⟩
      · rw [driven, driven]
        dsimp only
        rw [hreact _ henough]
        cases other (session.feed row).1 with
        | feed => exact ih hnext'
        | finish => exact ⟨rfl, rfl⟩
        | leave => exact ⟨rfl, rfl⟩

/-! ### Enough is enough -/

/-- The gate of a session that has just been started is a new one. -/
theorem gate?_init_after {node : AggregateNode} {store : Store} {meters : Meters}
    {history : List Turn} {params : List Value} {width : Nat} {table : TableId} {meter : MeterId}
    {scratch : Row}
    (hok : (((Session.new node store meters).after history).init params width table meter).1 =
      .ok scratch) :
    ∃ window, WindowSpec.resolveOptional node.window params = .ok window ∧
      (((Session.new node store meters).after history).init params width table meter).2.machine.gate? =
        some (.new node.having window) := by
  have hnode : ((Session.new node store meters).after history).machine.node = node := by
    rw [← Machine.node_blank, blank_after, Machine.node_blank]
    exact Machine.node_ofNode node
  have hinit := ((Session.new node store meters).after history).machine.gate?_init params width
  rw [hnode] at hinit
  rw [init] at hok ⊢
  obtain ⟨window, hwindow, hstarted, hgate⟩ | ⟨e, herror, -⟩ := hinit
  · refine ⟨window, hwindow, ?_⟩
    rcases hmachine : ((Session.new node store meters).after history).machine.init params width
      with ⟨_ | _, machine⟩
    all_goals rw [hmachine] at hstarted hgate
    · cases hstarted
    · exact hgate
  · rcases hmachine : ((Session.new node store meters).after history).machine.init params width
      with ⟨_ | _, machine⟩
    all_goals rw [hmachine] at hok herror
    · cases hok
    · cases herror

/-- **Enough is enough.**  After a start that succeeds, and until the next one that does, the
following holds however the session is used, also behind failures and behind starts that fail.

* At no time has it inserted more rows than its limit, in all tables together.
* Once a row has been answered with "enough", no call writes to any table or counts any work.

So two drivers that differ only in what they do at "enough" leave the same tables and the same
count, be it that one of them stops there and the other feeds all rows. -/
theorem enough_is_final (node : AggregateNode) (store : Store) (meters : Meters)
    (history : List Turn) {params : List Value} {width : Nat} {table : TableId} {meter : MeterId}
    {scratch : Row} :
    let used := (Session.new node store meters).after history
    let started := (used.init params width table meter).2
    (used.init params width table meter).1 = .ok scratch →
    ∃ window, WindowSpec.resolveOptional node.window params = .ok window ∧
      (∀ turns, started.Continues turns →
        (∀ limit ∈ window.limit, started.inserted turns ≤ limit) ∧
        ∀ row, ((started.after turns).feed row).1 = .ok .enough →
          ∀ later, ((started.after turns).feed row).2.Continues later →
          ∀ call : Call, call.IsOwn →
            let now := ((started.after turns).feed row).2.after later
            (now.perform call).2.store = now.store ∧ (now.perform call).2.meters = now.meters) ∧
      ∀ react other rows, (∀ answer, answer ≠ .ok .enough → react answer = other answer) →
        (started.driven react rows).store = (started.driven other rows).store ∧
          (started.driven react rows).meters = (started.driven other rows).meters := by
  intro used started hok
  obtain ⟨window, hwindow, hgate⟩ := gate?_init_after hok
  refine ⟨window, hwindow, fun turns hturns => ?_, fun react other rows hreact =>
    driven_congr hreact rows hgate⟩
  obtain ⟨gate, hgate, hspends⟩ := after_spends hturns hgate
  constructor
  · intro limit hlimit
    have hwithin := hspends.within limit hlimit (Nat.zero_le limit)
    have hpassed := hspends.passed
    omega
  · intro row henough later hlater call hown now
    obtain ⟨next, hnext, hserves⟩ := Machine.feed_serves hgate row (started.after turns).outlet
    have hshut := hserves.enough henough
    obtain ⟨last, hlast, hstill⟩ := after_spends hlater hnext
    rw [hstill.shut hshut] at hlast
    exact perform_of_shut call hown hlast hshut

/-- Two sums are wanted.  The driver that stops at "enough" and the one that feeds all rows leave
them alike in the table, and nothing else. -/
theorem enough_is_final_firstSums :
    let used := (Session.new firstSums sumStore sumMeters).after [.call (.feed [])]
    let started := (used.init [.int 2] 2 0 0).2
    let rows := [1, 2, 2, 3, 4, 1].map fun n => [Value.int n, .int 5]
    let stop (answer : Except EngineError Demand) : Reaction :=
      if answer = .ok .enough then .finish else .feed
    (used.init [.int 2] 2 0 0).1 = .ok [.null, .null] ∧
      (started.driven (fun _ => .feed) rows).store = (started.driven stop rows).store ∧
      ((started.driven stop rows).store.get 0).table.rows =
        #[[.int 1, .int 5], [.int 2, .int 10]] := by
  intro used started rows stop
  have hok : (used.init [.int 2] 2 0 0).1 = .ok [.null, .null] := rfl
  obtain ⟨window, -, -, hdrivers⟩ := enough_is_final firstSums sumStore sumMeters
    [.call (.feed [])] hok
  have hrows : ((started.driven stop rows).store.get 0).table.rows =
      #[[.int 1, .int 5], [.int 2, .int 10]] := by
    decide +kernel
  have hreact : ∀ answer, answer ≠ .ok .enough → Reaction.feed = stop answer :=
    fun answer hanswer => (if_neg hanswer).symm
  exact ⟨hok, (hdrivers (fun _ => .feed) stop rows hreact).1, hrows⟩

end Session

end GraphScan
