import GraphScan.Proofs.Aggregate.Defenses
import GraphScan.Proofs.Aggregate.Finality

/-!
# Coherent aggregations

What a hashed aggregation knows of its groups is in several places: the groups, the index from keys to
slots, and the leading key values of the run.  Within a call they part: groups are dropped when some of
them were never reached, the end has a group that is in no slot, and a row that cannot be folded leaves
its group behind.  Between two calls they agree, whatever the calls have come to.

* `Hashed.Coherent` — **the invariant between two calls**.
* `Hashed.Coherent.init`, `Hashed.Coherent.feed`, `Hashed.Coherent.finish` — every call keeps it, by one
  lemma for each of the functions it is made of.
* `Machine.Coherent` — the same for both forms: a serial aggregation is coherent if it has a coherent
  twin.
* `Machine.Coherent.init`, `Machine.Coherent.feed`, `Machine.Coherent.finish` — **what a call does to
  the phase of a coherent machine**, and that it fails at no defensive check.
-/

namespace GraphScan

/-! ## Index, groups and run -/

namespace Hashed

variable {h : Hashed}

/-- The keys of the groups, slot by slot. -/
def keys (h : Hashed) : List GroupKey :=
  h.groups.toList.map Group.key

/-- **The parts of a hashed aggregation agree.** -/
structure Coherent (h : Hashed) : Prop where
  /-- The index maps a key to a slot exactly if the group in this slot has the key. -/
  slot_iff : ∀ key slot, h.index.lookup key = some slot ↔ h.keys[slot]? = some key
  keys_nodup : h.keys.Nodup
  /-- If there are runs, all groups are of the run that the aggregation is in. -/
  run_eq : 0 < h.runWidth → ∀ key ∈ h.keys, h.run = some (key.take h.runWidth)
  /-- Between a start and the end there is a gate. -/
  bound : h.phase = .running → ∃ gate, h.gate = some gate

/-- Keys that an index tells apart are all different. -/
theorem nodup_of_lookup {index : List (GroupKey × Nat)} {keys : List GroupKey}
    (hindex : ∀ key slot, index.lookup key = some slot ↔ keys[slot]? = some key) : keys.Nodup := by
  refine List.pairwise_iff_getElem.mpr fun i j hi hj hij heq => ?_
  have hfirst := (hindex keys[i] i).mpr (List.getElem?_eq_getElem hi)
  have hsecond := (hindex keys[j] j).mpr (List.getElem?_eq_getElem hj)
  rw [heq, hsecond] at hfirst
  exact Nat.ne_of_gt hij (Option.some.inj hfirst)

namespace Coherent

/-- Without groups nothing can disagree. -/
theorem of_empty (hindex : h.index = []) (hgroups : h.groups = #[])
    (hbound : h.phase = .running → ∃ gate, h.gate = some gate) : h.Coherent := by
  have hkeys : h.keys = [] := by rw [keys, hgroups]; rfl
  refine ⟨?_, ?_, ?_, hbound⟩
  · simp [hindex, hkeys]
  · simp [hkeys]
  · simp [hkeys]

theorem withRuns (node : AggregateNode) (sorted : Nat) : (withRuns node sorted).Coherent :=
  of_empty rfl rfl nofun

/-- **A start** drops everything, even if it fails. -/
theorem init (hc : h.Coherent) (params : List Value) (width : Nat) :
    (h.init params width).2.Coherent := by
  simp only [Hashed.init]
  cases h.node.gate params with
  | ok gate => exact of_empty rfl rfl fun _ => ⟨gate, rfl⟩
  | error e => exact of_empty rfl rfl hc.bound

/-- Emitting the groups drops them, and the index with them, even if some are not reached. -/
theorem flush {gate : Gate} (hgate : h.gate = some gate) (outlet : Outlet) :
    (h.flush outlet).2.1.Coherent := by
  rw [flush_of_gate hgate]
  exact of_empty rfl rfl fun _ => ⟨_, rfl⟩

/-- **Entering a run** leaves no group of another one. -/
theorem enterRun (hc : h.Coherent) (hphase : h.phase = .running) (run : GroupKey) (outlet : Outlet) :
    (h.enterRun run outlet).2.1.Coherent ∧
      ((h.enterRun run outlet).1 = .ok .more → 0 < h.runWidth →
        (h.enterRun run outlet).2.1.run = some run) := by
  obtain ⟨gate, hgate⟩ := hc.bound hphase
  rw [Hashed.enterRun]
  split_ifs with hwidth hstarts
  · exact ⟨hc, fun _ hpos => absurd hwidth (Nat.ne_of_gt hpos)⟩
  · have hflush := flush hgate outlet
    rcases hcall : h.flush outlet with ⟨_ | _ | _, next, after⟩
    all_goals rw [hcall] at hflush
    · exact ⟨hflush, by simp⟩
    · -- Only the run is new, and there are no groups that could be of another one.
      have hnext : next = _ := (congrArg (fun result => result.2.1) hcall).symm
      rw [flush_of_gate hgate] at hnext
      exact ⟨of_empty (by rw [hnext]) (by rw [hnext]) hflush.bound, fun _ _ => rfl⟩
    · exact ⟨hflush, by simp⟩
  · refine ⟨⟨hc.slot_iff, hc.keys_nodup, fun hpos key hkey => ?_, hc.bound⟩, fun _ _ => rfl⟩
    have hrun := hc.run_eq hpos key hkey
    simp only [startsRun, hrun, decide_eq_true_eq, not_not] at hstarts
    exact congrArg some hstarts.symm

/-- **A new group** is of the run that its key leads. -/
theorem slotOf (hc : h.Coherent) {key : GroupKey}
    (hrun : 0 < h.runWidth → h.run = some (key.take h.runWidth)) : (h.slotOf key).2.Coherent := by
  rw [Hashed.slotOf]
  cases hlookup : h.index.lookup key with
  | some slot => exact hc
  | none =>
      have hkey : key ∉ h.keys := by
        intro hmem
        obtain ⟨slot, hslot⟩ := List.getElem?_of_mem hmem
        rw [← hc.slot_iff, hlookup] at hslot
        cases hslot
      let next : Hashed := { h with
        index := (key, h.groups.size) :: h.index
        groups := h.groups.push (.new key h.node.aggregates) }
      have hkeys : next.keys = h.keys ++ [key] := by simp [next, keys, Group.new]
      have hslots : ∀ other slot,
          next.index.lookup other = some slot ↔ next.keys[slot]? = some other := by
        have hsize : h.keys.length = h.groups.size := by simp [keys]
        rw [hkeys, show next.index = (key, h.keys.length) :: h.index by rw [hsize]]
        exact lookup_concat hc.slot_iff hkey
      show next.Coherent
      refine ⟨hslots, nodup_of_lookup hslots, fun hpos other hother => ?_, hc.bound⟩
      rw [hkeys, List.mem_append, List.mem_singleton] at hother
      rcases hother with hold | rfl
      · exact hc.run_eq hpos other hold
      · exact hrun hpos

/-- Groups of the same keys are as good, whatever they have folded. -/
theorem of_keys_eq (hc : h.Coherent) {groups : Array Group}
    (hkeys : groups.toList.map Group.key = h.keys) : Coherent { h with groups } :=
  ⟨fun key slot => by rw [hc.slot_iff, ← hkeys]; rfl, by rw [keys, hkeys]; exact hc.keys_nodup,
    fun hpos key hkey => hc.run_eq hpos key (hkeys ▸ hkey), hc.bound⟩

/-- **A row joins the group of its key**, or leaves the group behind as far as it was folded. -/
theorem collect (hc : h.Coherent) {key : GroupKey}
    (hrun : 0 < h.runWidth → h.run = some (key.take h.runWidth)) (row : Row) :
    (h.collect key row).2.Coherent := by
  have hslot := hc.slotOf hrun
  rw [Hashed.collect]
  rcases hcall : h.slotOf key with ⟨slot, next⟩
  rw [hcall] at hslot
  dsimp only
  cases hgroup : next.groups[slot]? with
  | none => exact hslot
  | some group =>
      refine hslot.of_keys_eq ?_
      obtain ⟨hlt, hkey⟩ : ∃ hlt : slot < next.keys.length, next.keys[slot] = group.key :=
        List.getElem?_eq_some_iff.mp (by simp [keys, hgroup])
      rw [Array.toList_setIfInBounds, List.map_set]
      show next.keys.set slot group.key = next.keys
      rw [← hkey, List.set_getElem_self]

/-- **A row** keeps the invariant, whatever becomes of it. -/
theorem feed (hc : h.Coherent) (row : Row) (outlet : Outlet) :
    (h.feed row outlet).2.1.Coherent := by
  rw [Hashed.feed]
  cases hphase : h.phase with
  | created | finished => exact hc
  | running =>
      simp only [Phase.check]
      cases Expr.evalEach row h.node.groupBy with
      | error e => exact hc
      | ok key =>
          obtain ⟨henter, hrun⟩ := hc.enterRun hphase (key.take h.runWidth) outlet
          have hwidth := congrArg Hashed.runWidth (h.blank_enterRun (key.take h.runWidth) outlet)
          dsimp only
          rcases hcall : h.enterRun (key.take h.runWidth) outlet with ⟨_ | _ | _, next, after⟩
          all_goals rw [hcall] at henter hrun hwidth
          · exact henter
          · have hsame : next.runWidth = h.runWidth := hwidth
            refine henter.collect (fun hpos => ?_) row
            rw [hsame] at hpos ⊢
            exact hrun rfl hpos
          · exact henter

/-- **The end** emits the groups, the one that is in no slot with them. -/
theorem finish (hc : h.Coherent) (outlet : Outlet) : (h.finish outlet).2.1.Coherent := by
  rw [Hashed.finish]
  cases hphase : h.phase with
  | created | finished => exact hc
  | running =>
      obtain ⟨gate, hgate⟩ := hc.bound hphase
      have hensured : (ensureGroup { h with phase := .finished }).gate = some gate := by
        rw [ensureGroup]
        split_ifs <;> exact hgate
      exact flush hensured outlet

/-- An aggregation that has been started and is coherent raises no error of a defensive check. -/
theorem running (hc : h.Coherent) (hphase : h.phase = .running) : h.Running := by
  refine ⟨hphase, hc.bound hphase, fun key slot hlookup => ?_⟩
  obtain ⟨hlt, -⟩ := List.getElem?_eq_some_iff.mp ((hc.slot_iff key slot).mp hlookup)
  simpa [keys] using hlt

end Coherent

/-! ## Phases -/

theorem phase_flush (h : Hashed) (outlet : Outlet) : (h.flush outlet).2.1.phase = h.phase := by
  rw [flush]
  cases h.gate <;> rfl

theorem phase_enterRun (h : Hashed) (run : GroupKey) (outlet : Outlet) :
    (h.enterRun run outlet).2.1.phase = h.phase := by
  have hflush := h.phase_flush outlet
  rw [enterRun]
  split_ifs
  · rfl
  · rcases hcall : h.flush outlet with ⟨_ | _ | _, next, after⟩
    all_goals rw [hcall] at hflush
    all_goals exact hflush
  · rfl

theorem phase_collect (h : Hashed) (key : GroupKey) (row : Row) :
    (h.collect key row).2.phase = h.phase := by
  have hslot : (h.slotOf key).2.phase = h.phase := by
    rw [slotOf]
    cases h.index.lookup key <;> rfl
  rw [collect]
  rcases hcall : h.slotOf key with ⟨slot, next⟩
  rw [hcall] at hslot
  dsimp only
  cases next.groups[slot]? <;> exact hslot

/-- A row leaves the phase, whatever becomes of it. -/
theorem phase_feed (h : Hashed) (row : Row) (outlet : Outlet) :
    (h.feed row outlet).2.1.phase = h.phase := by
  rw [feed]
  cases h.phase.check .feed with
  | error e => rfl
  | ok =>
      cases Expr.evalEach row h.node.groupBy with
      | error e => rfl
      | ok key =>
          have henter := h.phase_enterRun (key.take h.runWidth) outlet
          dsimp only
          rcases hcall : h.enterRun (key.take h.runWidth) outlet with ⟨_ | _ | _, next, after⟩
          all_goals rw [hcall] at henter
          · exact henter
          · exact (next.phase_collect key row).trans henter
          · exact henter

theorem phase_finish (h : Hashed) (hphase : h.phase = .running) (outlet : Outlet) :
    (h.finish outlet).2.1.phase = .finished := by
  simp only [finish, hphase, Phase.check, phase_flush]
  rw [ensureGroup]
  split_ifs <;> rfl

end Hashed

/-! ## Machines -/

namespace Machine

def phase : Machine → Phase
  | .serial s => s.phase
  | .hashed h => h.phase

/-- **A coherent machine.**  A serial aggregation is coherent as the twin of a hashed one. -/
def Coherent : Machine → Prop
  | .serial s => ∃ h, Twin s h ∧ h.Coherent
  | .hashed h => h.Coherent

/-- **A machine for a node as it is made**, in any of its forms. -/
inductive IsNew (node : AggregateNode) : Machine → Prop where
  | serial : IsNew node (.serial (.new node))
  | hashed (sorted : Nat) : IsNew node (.hashed (.withRuns node sorted))

theorem isNew_ofNode (node : AggregateNode) : IsNew node (ofNode node) := by
  rw [ofNode]
  cases node.strategy with
  | serial => exact .serial
  | partialOrder sorted => exact .hashed sorted
  | hash => exact .hashed 0

variable {node : AggregateNode} {machine : Machine}

theorem IsNew.phase_eq (h : machine.IsNew node) : machine.phase = .created := by
  cases h <;> rfl

theorem IsNew.coherent (h : machine.IsNew node) : machine.Coherent := by
  cases h with
  | serial => exact ⟨_, .new node (Nat.le_refl _), .withRuns node _⟩
  | hashed sorted => exact .withRuns node sorted

/-- **A call that does not pass the check of the phase** leaves everything as it is. -/
theorem feed_of_refused {e : EngineError} (hcheck : machine.phase.check .feed = .error e) (row : Row)
    (outlet : Outlet) : machine.feed row outlet = (.error e, machine, outlet) := by
  cases machine with
  | serial s => simp only [feed, Serial.feed, show s.phase.check .feed = .error e from hcheck]
  | hashed h => simp only [feed, Hashed.feed, show h.phase.check .feed = .error e from hcheck]

theorem finish_of_refused {e : EngineError} (hcheck : machine.phase.check .finish = .error e)
    (outlet : Outlet) : machine.finish outlet = (.error e, machine, outlet) := by
  cases machine with
  | serial s => simp only [finish, Serial.finish, show s.phase.check .finish = .error e from hcheck]
  | hashed h => simp only [finish, Hashed.finish, show h.phase.check .finish = .error e from hcheck]

/-- A start that succeeds begins a run; one that fails leaves the phase. -/
theorem phase_init (machine : Machine) (params : List Value) (width : Nat) :
    ((machine.init params width).1 = .ok (Row.nulls width) ∧
      (machine.init params width).2.phase = .running) ∨
    (∃ e, (machine.init params width).1 = .error e) ∧
      (machine.init params width).2.phase = machine.phase := by
  cases machine with
  | serial s =>
      simp only [init, Serial.init]
      cases s.node.gate params with
      | ok gate => exact .inl ⟨rfl, rfl⟩
      | error e => exact .inr ⟨⟨e, rfl⟩, rfl⟩
  | hashed h =>
      simp only [init, Hashed.init]
      cases h.node.gate params with
      | ok gate => exact .inl ⟨rfl, rfl⟩
      | error e => exact .inr ⟨⟨e, rfl⟩, rfl⟩

namespace Coherent

/-- Between a start and the end there is a gate. -/
theorem bound (hc : machine.Coherent) (hphase : machine.phase = .running) :
    ∃ gate, machine.gate? = some gate := by
  cases machine with
  | serial s =>
      obtain ⟨h, ht, -⟩ := hc
      exact Option.ne_none_iff_exists'.mp (ht.bound hphase)
  | hashed h => exact Hashed.Coherent.bound hc hphase

theorem init (hc : machine.Coherent) (params : List Value) (width : Nat) :
    (machine.init params width).2.Coherent := by
  cases machine with
  | serial s =>
      obtain ⟨h, ht, hh⟩ := hc
      exact ⟨_, (ht.init params width).2, hh.init params width⟩
  | hashed h => exact Hashed.Coherent.init hc params width

/-- **A row** keeps a machine coherent and in its phase.  While it runs, no defensive check fails. -/
theorem feed (hc : machine.Coherent) (row : Row) (outlet : Outlet) :
    (machine.feed row outlet).2.1.Coherent ∧
      (machine.feed row outlet).2.1.phase = machine.phase ∧
      (machine.phase = .running → Spared (machine.feed row outlet).1) := by
  cases machine with
  | serial s =>
      obtain ⟨h, ht, hh⟩ := hc
      obtain ⟨hout, hnext, -⟩ := ht.feed row outlet
      refine ⟨⟨_, hnext, hh.feed row outlet⟩, ?_, fun hphase => ?_⟩
      · exact hnext.phase_eq.symm.trans ((h.phase_feed row outlet).trans ht.phase_eq)
      · show Spared (s.feed row outlet).1
        rw [hout]
        exact (Hashed.feed_spared (hh.running (ht.phase_eq.trans hphase)) row outlet).1
  | hashed h =>
      refine ⟨Hashed.Coherent.feed hc row outlet, h.phase_feed row outlet, fun hphase => ?_⟩
      exact (Hashed.feed_spared (Hashed.Coherent.running hc hphase) row outlet).1

/-- **The end** keeps a machine coherent.  While it runs, it is ended by this and no defensive check
fails, even if the output takes none of the groups. -/
theorem finish (hc : machine.Coherent) (outlet : Outlet) :
    (machine.finish outlet).2.1.Coherent ∧
      (machine.phase = .running →
        (machine.finish outlet).2.1.phase = .finished ∧ Spared (machine.finish outlet).1) := by
  cases machine with
  | serial s =>
      obtain ⟨h, ht, hh⟩ := hc
      obtain ⟨hout, hnext, -⟩ := ht.finish outlet
      refine ⟨⟨_, hnext, hh.finish outlet⟩, fun hphase => ?_⟩
      have hrunning : h.phase = .running := ht.phase_eq.trans hphase
      refine ⟨hnext.phase_eq.symm.trans (h.phase_finish hrunning outlet), ?_⟩
      show Spared (s.finish outlet).1
      rw [hout]
      exact Hashed.finish_spared (hh.running hrunning) outlet
  | hashed h =>
      refine ⟨Hashed.Coherent.finish hc outlet, fun hphase => ⟨h.phase_finish hphase outlet, ?_⟩⟩
      exact Hashed.finish_spared (Hashed.Coherent.running hc hphase) outlet

end Coherent

end Machine

end GraphScan
