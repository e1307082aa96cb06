import GraphScan.Proofs.Aggregate.Writes

/-!
# Driving an aggregation

A machine is driven by one start, a feed for each row until one fails or no more are wanted, and
one end if nothing has failed.

* `feedAll` — the middle part, for anything that takes rows.  It tells how many rows were fed.
* `Machine.drive` — the whole of it.
* `Machine.blank` — a machine as it was before its first start; it is the same after every call, and
  so is `Machine.node`, what the machine carries out.
* `feedAll_related` — the simulation principle: two sinks in related states that answer every row
  alike and stay related are fed the same rows with the same outcome.
-/

namespace GraphScan

variable {σ τ : Type}

/-- **What feeding rows to a sink comes to.** -/
structure Feeding (σ : Type) where
  outcome : Except EngineError Demand
  /-- The number of rows fed.  The row that failed or was enough is the last of them. -/
  fed : Nat
  state : σ

/-- **How many rows were accepted**: those fed, but for the one that failed. -/
def Feeding.accepted (feeding : Feeding σ) : Nat :=
  match feeding.outcome with
  | .error _ => feeding.fed - 1
  | .ok _ => feeding.fed

/-- **Feeds rows to a sink** until one fails or no more are wanted. -/
def feedAll (feed : σ → Row → Except EngineError Demand × σ) (state : σ) : List Row → Feeding σ
  | [] => ⟨.ok .more, 0, state⟩
  | row :: rows =>
    match feed state row with
    | (.ok .more, state) =>
      let feeding := feedAll feed state rows
      { feeding with fed := feeding.fed + 1 }
    | (outcome, state) => ⟨outcome, 1, state⟩

theorem feedAll_cons_of_more {feed : σ → Row → Except EngineError Demand × σ} {state next : σ}
    {row : Row} (h : feed state row = (.ok .more, next)) (rows : List Row) :
    feedAll feed state (row :: rows) =
      { feedAll feed next rows with fed := (feedAll feed next rows).fed + 1 } := by
  simp only [feedAll, h]

theorem feedAll_cons_of_enough {feed : σ → Row → Except EngineError Demand × σ} {state next : σ}
    {row : Row} (h : feed state row = (.ok .enough, next)) (rows : List Row) :
    feedAll feed state (row :: rows) = ⟨.ok .enough, 1, next⟩ := by
  simp only [feedAll, h]

theorem feedAll_cons_of_error {feed : σ → Row → Except EngineError Demand × σ} {state next : σ}
    {row : Row} {e : EngineError} (h : feed state row = (.error e, next)) (rows : List Row) :
    feedAll feed state (row :: rows) = ⟨.error e, 1, next⟩ := by
  simp only [feedAll, h]

theorem feedAll_singleton (feed : σ → Row → Except EngineError Demand × σ) (state : σ) (row : Row) :
    feedAll feed state [row] = ⟨(feed state row).1, 1, (feed state row).2⟩ := by
  rcases h : feed state row with ⟨_ | _ | _, next⟩
  · exact feedAll_cons_of_error h []
  · exact feedAll_cons_of_more h []
  · exact feedAll_cons_of_enough h []

/-- Where more are wanted after some rows, others can follow. -/
theorem feedAll_append_of_more {feed : σ → Row → Except EngineError Demand × σ} {state : σ}
    {rows : List Row} (h : (feedAll feed state rows).outcome = .ok .more) (others : List Row) :
    feedAll feed state (rows ++ others) =
      { feedAll feed (feedAll feed state rows).state others with
        fed := (feedAll feed state rows).fed +
          (feedAll feed (feedAll feed state rows).state others).fed } := by
  induction rows generalizing state with
  | nil => simp [feedAll]
  | cons row rows ih =>
      rcases hrow : feed state row with ⟨_ | _ | _, next⟩
      · simp [feedAll_cons_of_error hrow] at h
      · rw [feedAll_cons_of_more hrow] at h
        rw [List.cons_append, feedAll_cons_of_more hrow, feedAll_cons_of_more hrow, ih h,
          Nat.add_right_comm]
      · simp [feedAll_cons_of_enough hrow] at h

/-- Related sinks that answer alike are fed alike. -/
theorem feedAll_related {feed : σ → Row → Except EngineError Demand × σ}
    {feed' : τ → Row → Except EngineError Demand × τ} {R : σ → τ → Prop}
    (hstep : ∀ s t row, R s t →
      (feed s row).1 = (feed' t row).1 ∧ R (feed s row).2 (feed' t row).2)
    {s : σ} {t : τ} (h : R s t) (rows : List Row) :
    (feedAll feed s rows).outcome = (feedAll feed' t rows).outcome ∧
      (feedAll feed s rows).fed = (feedAll feed' t rows).fed ∧
      R (feedAll feed s rows).state (feedAll feed' t rows).state := by
  induction rows generalizing s t with
  | nil => exact ⟨rfl, rfl, h⟩
  | cons row rows ih =>
      obtain ⟨hout, hrel⟩ := hstep s t row h
      rcases hs : feed s row with ⟨outcome, s'⟩
      rcases ht : feed' t row with ⟨outcome', t'⟩
      rw [hs, ht] at hout hrel
      obtain rfl : outcome = outcome' := hout
      match outcome with
      | .ok .more =>
          obtain ⟨hout', hfed', hrel'⟩ := ih hrel
          rw [feedAll_cons_of_more hs, feedAll_cons_of_more ht]
          exact ⟨hout', congrArg (· + 1) hfed', hrel'⟩
      | .ok .enough =>
          rw [feedAll_cons_of_enough hs, feedAll_cons_of_enough ht]
          exact ⟨rfl, rfl, hrel⟩
      | .error e =>
          rw [feedAll_cons_of_error hs, feedAll_cons_of_error ht]
          exact ⟨rfl, rfl, hrel⟩

theorem fed_feedAll_pos (feed : σ → Row → Except EngineError Demand × σ) (state : σ)
    (rows : List Row) :
    (feedAll feed state rows).outcome = .ok .more ∨ 0 < (feedAll feed state rows).fed := by
  cases rows with
  | nil => exact .inl rfl
  | cons row rows =>
      right
      rcases h : feed state row with ⟨_ | _ | _, next⟩
      · simp [feedAll_cons_of_error h]
      · simp [feedAll_cons_of_more h]
      · simp [feedAll_cons_of_enough h]

/-! ## What no call changes -/

namespace Serial

@[simp] theorem node_init (s : Serial) (params : List Value) (width : Nat) :
    (s.init params width).2.node = s.node := by
  simp only [init]
  cases s.node.gate params <;> rfl

@[simp] theorem node_emit (s : Serial) (group : Group) (outlet : Outlet) :
    (s.emit group outlet).2.1.node = s.node := by
  rw [emit]
  cases s.gate <;> rfl

@[simp] theorem node_closeOther (s : Serial) (key : GroupKey) (outlet : Outlet) :
    (s.closeOther key outlet).2.1.node = s.node := by
  rw [closeOther]
  cases s.current with
  | none => rfl
  | some group =>
      dsimp only
      split_ifs
      · rfl
      · exact node_emit _ group outlet

@[simp] theorem node_feed (s : Serial) (row : Row) (outlet : Outlet) :
    (s.feed row outlet).2.1.node = s.node := by
  rw [feed]
  cases s.phase.check .feed with
  | error e => rfl
  | ok =>
      cases Expr.evalEach row s.node.groupBy with
      | error e => rfl
      | ok key =>
          have hclose := s.node_closeOther key outlet
          rcases h : s.closeOther key outlet with ⟨_ | _ | _, closed, delivered⟩ <;>
            rw [h] at hclose <;> simpa [h, collect] using hclose

@[simp] theorem node_finish (s : Serial) (outlet : Outlet) :
    (s.finish outlet).2.1.node = s.node := by
  rw [finish]
  cases s.phase.check .finish with
  | error e => rfl
  | ok =>
      cases s.pending with
      | none => cases s.gate <;> rfl
      | some group => exact node_emit _ group outlet

end Serial

namespace Hashed

/-- **A hashed aggregation as it was before its first start.** -/
def blank (h : Hashed) : Hashed :=
  { h with phase := .created, gate := none, run := none, index := [], groups := #[] }

@[simp] theorem blank_init (h : Hashed) (params : List Value) (width : Nat) :
    (h.init params width).2.blank = h.blank := by
  simp only [init]
  cases h.node.gate params <;> rfl

@[simp] theorem blank_flush (h : Hashed) (outlet : Outlet) :
    (h.flush outlet).2.1.blank = h.blank := by
  rw [flush]
  cases h.gate <;> rfl

@[simp] theorem blank_enterRun (h : Hashed) (run : GroupKey) (outlet : Outlet) :
    (h.enterRun run outlet).2.1.blank = h.blank := by
  rw [enterRun]
  split_ifs
  · rfl
  · have hflush := h.blank_flush outlet
    rcases hf : h.flush outlet with ⟨_ | _ | _, next, delivered⟩ <;> rw [hf] at hflush <;>
      exact hflush
  · rfl

@[simp] theorem blank_slotOf (h : Hashed) (key : GroupKey) : (h.slotOf key).2.blank = h.blank := by
  rw [slotOf]
  cases h.index.lookup key <;> rfl

@[simp] theorem blank_collect (h : Hashed) (key : GroupKey) (row : Row) :
    (h.collect key row).2.blank = h.blank := by
  have hslot := h.blank_slotOf key
  rw [collect]
  rcases hkey : h.slotOf key with ⟨slot, next⟩
  rw [hkey] at hslot
  dsimp only
  split <;> exact hslot

@[simp] theorem blank_feed (h : Hashed) (row : Row) (outlet : Outlet) :
    (h.feed row outlet).2.1.blank = h.blank := by
  rw [feed]
  cases h.phase.check .feed with
  | error e => rfl
  | ok =>
      cases Expr.evalEach row h.node.groupBy with
      | error e => rfl
      | ok key =>
          have henter := h.blank_enterRun (key.take h.runWidth) outlet
          rcases hrun : h.enterRun (key.take h.runWidth) outlet with ⟨_ | _ | _, next, delivered⟩ <;>
            rw [hrun] at henter <;> simpa [hrun] using henter

@[simp] theorem blank_ensureGroup (h : Hashed) : h.ensureGroup.blank = h.blank := by
  rw [ensureGroup]
  split_ifs <;> rfl

@[simp] theorem blank_finish (h : Hashed) (outlet : Outlet) :
    (h.finish outlet).2.1.blank = h.blank := by
  rw [finish]
  cases h.phase.check .finish with
  | error e => rfl
  | ok =>
      simp only [blank_flush, blank_ensureGroup]
      rfl

end Hashed

namespace Machine

/-- **What a machine carries out.** -/
def node : Machine → AggregateNode
  | .serial s => s.node
  | .hashed h => h.node

/-- **A machine as it was before its first start.** -/
def blank : Machine → Machine
  | .serial s => .serial (.new s.node)
  | .hashed h => .hashed h.blank

@[simp] theorem node_blank (machine : Machine) : machine.blank.node = machine.node := by
  cases machine <;> rfl

@[simp] theorem node_ofNode (node : AggregateNode) : (ofNode node).node = node := by
  rw [ofNode]
  cases node.strategy <;> rfl

@[simp] theorem blank_ofNode (node : AggregateNode) : (ofNode node).blank = ofNode node := by
  rw [ofNode]
  cases node.strategy <;> rfl

@[simp] theorem blank_init (machine : Machine) (params : List Value) (width : Nat) :
    (machine.init params width).2.blank = machine.blank := by
  cases machine with
  | serial s => simp [init, blank]
  | hashed h => simp [init, blank]

@[simp] theorem blank_feed (machine : Machine) (row : Row) (outlet : Outlet) :
    (machine.feed row outlet).2.1.blank = machine.blank := by
  cases machine with
  | serial s => simp [feed, blank]
  | hashed h => simp [feed, blank]

@[simp] theorem blank_finish (machine : Machine) (outlet : Outlet) :
    (machine.finish outlet).2.1.blank = machine.blank := by
  cases machine with
  | serial s => simp [finish, blank]
  | hashed h => simp [finish, blank]

@[simp] theorem node_init (machine : Machine) (params : List Value) (width : Nat) :
    (machine.init params width).2.node = machine.node := by
  rw [← node_blank, blank_init, node_blank]

@[simp] theorem node_feed (machine : Machine) (row : Row) (outlet : Outlet) :
    (machine.feed row outlet).2.1.node = machine.node := by
  rw [← node_blank, blank_feed, node_blank]

@[simp] theorem node_finish (machine : Machine) (outlet : Outlet) :
    (machine.finish outlet).2.1.node = machine.node := by
  rw [← node_blank, blank_finish, node_blank]

/-- Whether a start succeeds is the same as at the first one. -/
theorem fst_init_blank (machine : Machine) (params : List Value) (width : Nat) :
    (machine.blank.init params width).1 = (machine.init params width).1 := by
  cases machine with
  | serial s =>
      simp only [blank, init, Serial.init, Serial.new]
      cases s.node.gate params <;> rfl
  | hashed h =>
      simp only [blank, init, Hashed.init, Hashed.blank]
      cases h.node.gate params <;> rfl

/-- **A start that succeeds is as good as the first one**: nothing is left of earlier runs. -/
theorem init_blank_of_ok {machine : Machine} {params : List Value} {width : Nat} {scratch : Row}
    (h : (machine.init params width).1 = .ok scratch) :
    machine.blank.init params width = machine.init params width := by
  cases machine with
  | serial s =>
      simp only [blank, init, Serial.init, Serial.new] at h ⊢
      cases hgate : s.node.gate params with
      | error e => simp [hgate] at h
      | ok gate => rfl
  | hashed hashed =>
      simp only [blank, init, Hashed.init, Hashed.blank] at h ⊢
      cases hgate : hashed.node.gate params with
      | error e => simp [hgate] at h
      | ok gate => rfl

/-! ## Drives -/

/-- Feeds rows to a machine at work on an outlet. -/
def feedAll (machine : Machine) (rows : List Row) (outlet : Outlet) :
    Feeding (Machine × Outlet) :=
  GraphScan.feedAll (fun state row => state.1.feed row state.2) (machine, outlet) rows

/-- Feeds rows to a machine and ends it unless it has failed. -/
def complete (machine : Machine) (rows : List Row) (outlet : Outlet) :
    Except EngineError Unit × Machine × Outlet :=
  let feeding := machine.feedAll rows outlet
  match feeding.outcome with
  | .error e => (.error e, feeding.state)
  | .ok _ => feeding.state.1.finish feeding.state.2

/-- **Drives a machine over rows**: starts it, feeds it until it fails or wants no more, and ends
it unless it has failed. -/
def drive (machine : Machine) (params : List Value) (width : Nat) (rows : List Row)
    (outlet : Outlet) : Except EngineError Unit × Machine × Outlet :=
  match machine.init params width with
  | (.error e, machine) => (.error e, machine, outlet)
  | (.ok _, machine) => machine.complete rows outlet

theorem complete_cons_of_more {machine next : Machine} {row : Row} {outlet after : Outlet}
    (h : machine.feed row outlet = (.ok .more, next, after)) (rows : List Row) :
    machine.complete (row :: rows) outlet = next.complete rows after := by
  rw [complete, complete, feedAll, feedAll_cons_of_more h, feedAll]

theorem complete_cons_of_enough {machine next : Machine} {row : Row} {outlet after : Outlet}
    (h : machine.feed row outlet = (.ok .enough, next, after)) (rows : List Row) :
    machine.complete (row :: rows) outlet = next.finish after := by
  rw [complete, feedAll, feedAll_cons_of_enough h]

theorem complete_cons_of_error {machine next : Machine} {row : Row} {outlet after : Outlet}
    {e : EngineError} (h : machine.feed row outlet = (.error e, next, after)) (rows : List Row) :
    machine.complete (row :: rows) outlet = (.error e, next, after) := by
  rw [complete, feedAll, feedAll_cons_of_error h]

/-- Where more are wanted after some rows, a row that fails ends the completion with its error. -/
theorem complete_concat_of_error {machine : Machine} {rows : List Row} {row : Row} {outlet : Outlet}
    {e : EngineError} (hmore : (machine.feedAll rows outlet).outcome = .ok .more)
    (herror : ((machine.feedAll rows outlet).state.1.feed row
      (machine.feedAll rows outlet).state.2).1 = .error e) :
    (machine.complete (rows ++ [row]) outlet).1 = .error e := by
  have hlast : (machine.feedAll (rows ++ [row]) outlet).outcome = .error e := by
    rw [feedAll, feedAll_append_of_more hmore, feedAll_singleton]
    exact herror
  simp only [complete, hlast]

theorem feed_of_hashed {h next : Hashed} {row : Row} {outlet after : Outlet}
    {outcome : Except EngineError Demand} (hfeed : h.feed row outlet = (outcome, next, after)) :
    (Machine.hashed h).feed row outlet = (outcome, .hashed next, after) := by
  simp only [feed, hfeed]

/-- A drive that succeeds has fed its rows without an error. -/
theorem feedAll_ne_error_of_drive {machine : Machine} {params : List Value} {width : Nat}
    {rows : List Row} {outlet : Outlet} (h : (machine.drive params width rows outlet).1 = .ok ())
    (e : EngineError) :
    ((machine.init params width).2.feedAll rows outlet).outcome ≠ .error e := by
  intro herror
  rw [drive] at h
  rcases hinit : machine.init params width with ⟨_ | _, next⟩
  · simp [hinit] at h
  · rw [hinit] at h herror
    simp [complete, herror] at h

end Machine

end GraphScan
