import GraphScan.Proofs.Aggregate.Drive
import GraphScan.Proofs.Aggregate.Emission
import GraphScan.Proofs.Aggregate.Grouping

/-!
# Collecting groups

A hashed aggregation keeps the groups of the current run: their keys in the order in which they were
first seen, an index from keys to groups, and in each group the rows of its key.

* `Hashed.Slots` — **the invariant of index and groups**.
* `Hashed.slotOf_slots`, `Hashed.collect_slots` — every key gets one slot, and a row goes to the slot
  of its key.
* `Hashed.Within` — the state between two rows of a run.
* `Hashed.feed_same`, `Hashed.feed_other` — what a row of the same run and a row of another run do
  to it.
-/

namespace GraphScan

variable {α β : Type}

/-- An element replaced in a list that is related to another one. -/
theorem forall₂_set {R S : α → β → Prop} {xs : List α} {ys : List β} {index : Nat} {x : α} {y : β}
    (h : List.Forall₂ R xs ys) (hindex : xs[index]? = some x) (hset : S x y)
    (hothers : ∀ other x y, other ≠ index → xs[other]? = some x → R x y → S x y) :
    List.Forall₂ S xs (ys.set index y) := by
  rw [List.forall₂_iff_get] at h ⊢
  refine ⟨by simpa using h.1, ?_⟩
  intro i hx hy
  rw [List.get_eq_getElem, List.get_eq_getElem, List.getElem_set]
  split_ifs with heq
  · subst heq
    have hget : xs[index] = x := by
      rw [List.getElem?_eq_getElem hx] at hindex
      exact Option.some.inj hindex
    rw [hget]
    exact hset
  · exact hothers i _ _ (Ne.symm heq) (List.getElem?_eq_getElem hx) (h.2 i hx (by simpa using hy))

namespace Hashed

variable {h : Hashed} {keys : List GroupKey} {rowsFor : GroupKey → List Row}

/-! ## Index and groups -/

/-- **The groups are those of the keys**, each of its rows, and the index knows the slot of each key
and no other. -/
structure Slots (h : Hashed) (keys : List GroupKey) (rowsFor : GroupKey → List Row) : Prop where
  groups : List.Forall₂
    (fun key group => Group.ofRows h.node.aggregates key (rowsFor key) = .ok group) keys
    h.groups.toList
  index : ∀ key slot, h.index.lookup key = some slot ↔ keys[slot]? = some key

/-- **A key that is new to the index gets the slot behind all others**, which keep theirs. -/
theorem lookup_concat {index : List (GroupKey × Nat)}
    (hindex : ∀ key slot, index.lookup key = some slot ↔ keys[slot]? = some key) {key : GroupKey}
    (hkey : key ∉ keys) (other : GroupKey) (slot : Nat) :
    ((key, keys.length) :: index).lookup other = some slot ↔ (keys ++ [key])[slot]? = some other := by
  rw [List.lookup_cons]
  by_cases hother : other = key
  · subst hother
    rw [beq_self_eq_true]
    simp only [Option.some.injEq]
    constructor
    · rintro rfl
      rw [List.getElem?_concat_length]
    · intro hslot
      rcases Nat.lt_trichotomy slot keys.length with hlt | heq | hgt
      · rw [List.getElem?_append_left hlt] at hslot
        exact absurd (List.mem_of_getElem? hslot) hkey
      · exact heq.symm
      · rw [List.getElem?_eq_none (by rw [List.length_append, List.length_singleton]; omega)] at hslot
        cases hslot
  · rw [beq_false_of_ne hother]
    dsimp only
    rw [hindex]
    rcases Nat.lt_trichotomy slot keys.length with hlt | heq | hgt
    · rw [List.getElem?_append_left hlt]
    · rw [heq, List.getElem?_eq_none (Nat.le_refl _), List.getElem?_concat_length]
      simp [Ne.symm hother]
    · rw [List.getElem?_eq_none (Nat.le_of_lt hgt), List.getElem?_eq_none (by
        rw [List.length_append, List.length_singleton]
        omega)]

/-- The slot of a key that has none yet is a new one, at the end. -/
theorem Slots.push (hslots : Slots h keys rowsFor) {key : GroupKey} (hkey : key ∉ keys)
    (hrows : rowsFor key = []) :
    Slots { h with
      index := (key, h.groups.size) :: h.index
      groups := h.groups.push (.new key h.node.aggregates) } (keys ++ [key]) rowsFor := by
  constructor
  · have hnew : Group.ofRows h.node.aggregates key (rowsFor key) =
        .ok (.new key h.node.aggregates) := by
      rw [hrows]
      exact Group.ofRows_eq_ok_iff.mpr ⟨rfl, Group.folds_nil h.node.aggregates key⟩
    rw [Array.toList_push]
    exact List.rel_append hslots.groups (.cons hnew .nil)
  · have hsize : keys.length = h.groups.size := by
      rw [hslots.groups.length_eq, Array.length_toList]
    rw [← hsize]
    exact lookup_concat hslots.index hkey

theorem Slots.group_at (hslots : Slots h keys rowsFor) {key : GroupKey} {slot : Nat}
    (hslot : keys[slot]? = some key) :
    ∃ group, h.groups[slot]? = some group ∧
      Group.ofRows h.node.aggregates key (rowsFor key) = .ok group := by
  obtain ⟨hlength, hgroups⟩ := List.forall₂_iff_get.mp hslots.groups
  obtain ⟨hlt, hkey⟩ := List.getElem?_eq_some_iff.mp hslot
  have hlt' : slot < h.groups.toList.length := by rwa [← hlength]
  have hgroup := hgroups slot hlt hlt'
  rw [List.get_eq_getElem, hkey] at hgroup
  refine ⟨_, ?_, hgroup⟩
  rw [List.get_eq_getElem, Array.getElem_toList]
  exact Array.getElem?_eq_getElem (by simpa using hlt')

/-- **Every key has a slot**, after those of the keys seen before it. -/
theorem slotOf_slots (hslots : Slots h keys rowsFor) {key : GroupKey}
    (hrows : key ∉ keys → rowsFor key = []) :
    ∃ index groups, (h.slotOf key).2 = { h with index, groups } ∧
      Slots (h.slotOf key).2 (if key ∈ keys then keys else keys ++ [key]) rowsFor ∧
      (if key ∈ keys then keys else keys ++ [key])[(h.slotOf key).1]? = some key := by
  rw [slotOf]
  cases hlookup : h.index.lookup key with
  | some slot =>
      have hslot := (hslots.index key slot).mp hlookup
      rw [if_pos (List.mem_of_getElem? hslot)]
      exact ⟨h.index, h.groups, rfl, hslots, hslot⟩
  | none =>
      have hkey : key ∉ keys := by
        intro hmem
        obtain ⟨slot, hslot⟩ := List.getElem?_of_mem hmem
        rw [← hslots.index, hlookup] at hslot
        cases hslot
      have hsize : h.groups.size = keys.length := by
        rw [hslots.groups.length_eq, Array.length_toList]
      rw [if_neg hkey]
      refine ⟨_, _, rfl, hslots.push hkey (hrows hkey), ?_⟩
      rw [hsize, List.getElem?_concat_length]

/-- **A row goes to the slot of its key**, unless it cannot be folded with the rows that are
there. -/
theorem collect_slots (hslots : Slots h keys rowsFor) {key : GroupKey}
    (hrows : key ∉ keys → rowsFor key = []) (row : Row) :
    (∃ index groups, (h.collect key row).2 = { h with index, groups }) ∧
      (((h.collect key row).1 = .ok .more ∧
        Slots (h.collect key row).2 (if key ∈ keys then keys else keys ++ [key])
          (fun other => if key = other then rowsFor other ++ [row] else rowsFor other)) ∨
      (∃ e, (h.collect key row).1 = .error e) ∧
        ∀ group, Group.ofRows h.node.aggregates key (rowsFor key ++ [row]) ≠ .ok group) := by
  obtain ⟨index, groups, hframe, hslots', hslot⟩ := slotOf_slots hslots hrows
  rcases hslotOf : h.slotOf key with ⟨slot, next⟩
  rw [hslotOf] at hframe hslots' hslot
  obtain rfl : next = { h with index, groups } := hframe
  obtain ⟨group, hgroup, hfolded⟩ := hslots'.group_at hslot
  obtain ⟨hkey, hfolds⟩ := Group.ofRows_eq_ok_iff.mp hfolded
  rcases hrow : Group.foldRow row h.node.aggregates group.accumulators with ⟨outcome, accs⟩
  have hcollect : h.collect key row = (outcome.map fun _ => .more,
      { h with index, groups := groups.setIfInBounds slot { group with accumulators := accs } }) := by
    simp only [collect, hslotOf, hgroup, Group.update, hrow]
  rw [hcollect]
  refine ⟨⟨_, _, rfl⟩, ?_⟩
  cases outcome with
  | error e =>
      refine .inr ⟨⟨e, rfl⟩, ?_⟩
      intro other hother
      have hdone := (Group.foldRow_eq_ok_iff hfolds).mpr (Group.ofRows_eq_ok_iff.mp hother).2
      rw [hrow] at hdone
      cases hdone
  | ok =>
      refine .inl ⟨rfl, ?_, hslots'.index⟩
      rw [Array.toList_setIfInBounds]
      refine forall₂_set hslots'.groups hslot ?_ ?_
      · rw [if_pos rfl]
        exact Group.ofRows_eq_ok_iff.mpr ⟨hkey, (Group.foldRow_eq_ok_iff hfolds).mp hrow⟩
      · intro other otherKey otherGroup hne hother hofRows
        have hneKey : key ≠ otherKey := by
          rintro rfl
          have hsame := ((hslots'.index key other).mpr hother).symm.trans
            ((hslots'.index key slot).mpr hslot)
          exact hne (Option.some.inj hsame)
        rw [if_neg hneKey]
        exact hofRows

/-! ## Within a run -/

/-- **The state within a run**: the groups are those of the rows seen since the run was entered, all
of which have its leading key values.  Before the first row of all no run has been entered. -/
structure Within (node : AggregateNode) (width : Nat) (h : Hashed) (gate : Gate)
    (seen : List KeyedRow) (lead : GroupKey) : Prop where
  node_eq : h.node = node
  width_eq : h.runWidth = width
  phase_eq : h.phase = .running
  gate_eq : h.gate = some gate
  run_eq : width = 0 ∨ h.run = some lead ∨ h.run = none ∧ seen = []
  slots : Slots h (keysOf seen) (rowsOf seen)
  uniform : ∀ keyed ∈ seen, keyed.lead width = lead

/-- The state after the groups were emitted. -/
structure Drained (node : AggregateNode) (h : Hashed) : Prop where
  node_eq : h.node = node
  phase_eq : h.phase = .running
  gate_eq : ∃ gate, h.gate = some gate
  groups_eq : h.groups = #[]

variable {node : AggregateNode} {width : Nat} {gate : Gate} {seen : List KeyedRow}
  {lead : GroupKey} {key : GroupKey} {row : Row}

theorem Within.groups (hw : Within node width h gate seen lead) :
    groupsOf node.aggregates seen = .ok h.groups.toList := by
  rw [← hw.node_eq]
  exact mapM_eq_ok_iff.mpr hw.slots.groups

/-- **A row joins its group** and the run goes on, unless the rows cannot be grouped. -/
theorem collect_within (hw : Within node width h gate seen lead) (hlead : key.take width = lead)
    (hentered : width = 0 ∨ h.run = some lead) (row : Row) :
    (∃ next, h.collect key row = (.ok .more, next) ∧
      Within node width next gate (seen ++ [(key, row)]) lead) ∨
    (∃ e next, h.collect key row = (.error e, next)) ∧
      ∀ groups, groupsOf node.aggregates (seen ++ [(key, row)]) ≠ .ok groups := by
  obtain ⟨⟨index, groups, hframe⟩, hcollect⟩ := collect_slots hw.slots rowsOf_of_not_mem row
  have hrows : (fun other => if key = other then rowsOf seen other ++ [row] else rowsOf seen other) =
      rowsOf (seen ++ [(key, row)]) := by
    funext other
    rw [rowsOf_concat]
  rw [← keysOf_concat seen key row, hrows, hw.node_eq] at hcollect
  rcases hnext : h.collect key row with ⟨outcome, next⟩
  rw [hnext] at hframe hcollect
  obtain rfl : next = { h with index, groups } := hframe
  rcases hcollect with ⟨hmore, hslots⟩ | ⟨⟨e, herror⟩, hfails⟩
  · obtain rfl : outcome = .ok .more := hmore
    exact .inl ⟨_, rfl, hw.node_eq, hw.width_eq, hw.phase_eq, hw.gate_eq,
      hentered.imp_right Or.inl, hslots, uniform_concat hw.uniform hlead⟩
  · obtain rfl : outcome = .error e := herror
    refine .inr ⟨⟨e, _, rfl⟩, ?_⟩
    intro all hall
    have hkey : key ∈ keysOf (seen ++ [(key, row)]) := mem_keysOf.mpr ⟨row, by simp⟩
    obtain ⟨group, hgroup⟩ := exists_mapM_eq_ok_iff.mp ⟨all, hall⟩ key hkey
    rw [rowsOf_concat, if_pos rfl] at hgroup
    exact hfails group hgroup

/-! ## Entering runs -/

theorem flush_of_gate (hgate : h.gate = some gate) (outlet : Outlet) :
    h.flush outlet =
      ((gate.emitAll outlet h.groups.toList).1,
        { h with gate := some (gate.emitAll outlet h.groups.toList).2.1, index := [], groups := #[] },
        (gate.emitAll outlet h.groups.toList).2.2) := by
  simp only [flush, hgate]

theorem enterRun_same (hw : Within node width h gate seen lead) (outlet : Outlet) :
    ∃ next, h.enterRun lead outlet = (.ok .more, next, outlet) ∧
      Within node width next gate seen lead ∧ (width = 0 ∨ next.run = some lead) := by
  rw [enterRun]
  by_cases hwidth : width = 0
  · rw [if_pos (hw.width_eq.trans hwidth)]
    exact ⟨h, rfl, hw, .inl hwidth⟩
  · have hstarts : h.startsRun lead = false := by
      rcases hw.run_eq with hzero | hrun | ⟨hrun, -⟩
      · exact absurd hzero hwidth
      · simp [startsRun, hrun]
      · simp [startsRun, hrun]
    rw [if_neg (by rwa [hw.width_eq]), hstarts, if_neg (by simp)]
    exact ⟨_, rfl, ⟨hw.node_eq, hw.width_eq, hw.phase_eq, hw.gate_eq, .inr (.inl rfl),
      ⟨hw.slots.groups, hw.slots.index⟩, hw.uniform⟩, .inr rfl⟩

/-- **Entering another run** emits the groups of the one that one was in. -/
theorem enterRun_other (hw : Within node width h gate seen lead) (hseen : seen ≠ [])
    {run : GroupKey} (hwidth : width ≠ 0) (hrun : run ≠ lead) (outlet : Outlet) :
    let emitted := gate.emitAll outlet h.groups.toList
    (emitted.1 = .ok .more →
      ∃ next, h.enterRun run outlet = (.ok .more, next, emitted.2.2) ∧
        Within node width next emitted.2.1 [] run ∧ next.run = some run) ∧
    (emitted.1 ≠ .ok .more →
      ∃ next, h.enterRun run outlet = (emitted.1, next, emitted.2.2) ∧ Drained node next) := by
  intro emitted
  have hcurrent : h.run = some lead := by
    rcases hw.run_eq with hzero | hsome | ⟨-, hnil⟩
    · exact absurd hzero hwidth
    · exact hsome
    · exact absurd hnil hseen
  have hstarts : h.startsRun run = true := by
    simp [startsRun, hcurrent, hrun.symm]
  rw [enterRun, if_neg (by rwa [hw.width_eq]), hstarts, if_pos rfl, flush_of_gate hw.gate_eq]
  rcases hemitted : gate.emitAll outlet h.groups.toList with ⟨outcome, after, delivered⟩
  simp only [emitted, hemitted]
  constructor
  · rintro rfl
    refine ⟨_, rfl, ⟨hw.node_eq, hw.width_eq, hw.phase_eq, rfl, .inr (.inl rfl), ?_, ?_⟩, rfl⟩
    · exact ⟨.nil, by simp [keysOf]⟩
    · simp
  · intro hstop
    cases outcome with
    | error e => exact ⟨_, rfl, hw.node_eq, hw.phase_eq, ⟨after, rfl⟩, rfl⟩
    | ok demand =>
        cases demand with
        | more => exact absurd rfl hstop
        | enough => exact ⟨_, rfl, hw.node_eq, hw.phase_eq, ⟨after, rfl⟩, rfl⟩

/-! ## Rows -/

theorem feed_of_entered {entered : Hashed} {outlet after : Outlet} (hphase : h.phase = .running)
    (hkey : Expr.evalEach row h.node.groupBy = .ok key)
    (henter : h.enterRun (key.take h.runWidth) outlet = (.ok .more, entered, after)) :
    h.feed row outlet = ((entered.collect key row).1, (entered.collect key row).2, after) := by
  simp only [feed, hphase, Phase.check, hkey, henter]

theorem feed_of_stopped {stopped : Hashed} {outlet after : Outlet}
    {outcome : Except EngineError Demand} (hphase : h.phase = .running)
    (hkey : Expr.evalEach row h.node.groupBy = .ok key)
    (henter : h.enterRun (key.take h.runWidth) outlet = (outcome, stopped, after))
    (hstop : outcome ≠ .ok .more) : h.feed row outlet = (outcome, stopped, after) := by
  simp only [feed, hphase, Phase.check, hkey, henter]
  cases outcome with
  | error e => rfl
  | ok demand =>
      cases demand with
      | more => exact absurd rfl hstop
      | enough => rfl

theorem feed_of_key_error {e : EngineError} (hphase : h.phase = .running)
    (hkey : Expr.evalEach row h.node.groupBy = .error e) (outlet : Outlet) :
    h.feed row outlet = (.error e, h, outlet) := by
  simp only [feed, hphase, Phase.check, hkey]

/-- **A row of the same run** joins its group, unless the rows cannot be grouped. -/
theorem feed_same (hw : Within node width h gate seen lead)
    (hkey : Expr.evalEach row node.groupBy = .ok key) (hlead : key.take width = lead)
    (outlet : Outlet) :
    (∃ next, h.feed row outlet = (.ok .more, next, outlet) ∧
      Within node width next gate (seen ++ [(key, row)]) lead) ∨
    (∃ e next, h.feed row outlet = (.error e, next, outlet)) ∧
      ∀ groups, groupsOf node.aggregates (seen ++ [(key, row)]) ≠ .ok groups := by
  obtain ⟨entered, henter, hwithin, hentered⟩ := enterRun_same hw outlet
  rw [← hlead, ← hw.width_eq] at henter
  rw [feed_of_entered hw.phase_eq (by rw [hw.node_eq, hkey]) henter]
  rcases collect_within hwithin hlead hentered row with
    ⟨next, hcollect, hnext⟩ | ⟨⟨e, next, hcollect⟩, hfails⟩
  · exact .inl ⟨next, by rw [hcollect], hnext⟩
  · exact .inr ⟨⟨e, next, by rw [hcollect]⟩, hfails⟩

/-- **A row of another run** ends the run that one was in: its groups are emitted.  If more is wanted
then, the row is the first of its run. -/
theorem feed_other (hw : Within node width h gate seen lead) (hseen : seen ≠ [])
    (hkey : Expr.evalEach row node.groupBy = .ok key) (hlead : key.take width ≠ lead)
    (outlet : Outlet) :
    let emitted := gate.emitAll outlet h.groups.toList
    (emitted.1 = .ok .more →
      (∃ next, h.feed row outlet = (.ok .more, next, emitted.2.2) ∧
        Within node width next emitted.2.1 [(key, row)] (key.take width)) ∨
      (∃ e next, h.feed row outlet = (.error e, next, emitted.2.2)) ∧
        ∀ groups, groupsOf node.aggregates [(key, row)] ≠ .ok groups) ∧
    (emitted.1 ≠ .ok .more →
      ∃ next, h.feed row outlet = (emitted.1, next, emitted.2.2) ∧ Drained node next) := by
  intro emitted
  -- Without leading key values all rows would be of one run.
  have hwidth : width ≠ 0 := by
    rintro rfl
    obtain ⟨keyed, hkeyed⟩ := List.exists_mem_of_ne_nil seen hseen
    exact hlead (hw.uniform keyed hkeyed)
  obtain ⟨hmore, hstop⟩ := enterRun_other hw hseen hwidth hlead outlet
  have hkey' : Expr.evalEach row h.node.groupBy = .ok key := by rw [hw.node_eq, hkey]
  constructor
  · intro hemitted
    obtain ⟨entered, henter, hwithin, hrun⟩ := hmore hemitted
    rw [← hw.width_eq] at henter
    rw [feed_of_entered hw.phase_eq hkey' henter]
    rcases collect_within hwithin rfl (.inr hrun) row with
      ⟨next, hcollect, hnext⟩ | ⟨⟨e, next, hcollect⟩, hfails⟩
    · exact .inl ⟨next, by rw [hcollect], hnext⟩
    · exact .inr ⟨⟨e, next, by rw [hcollect]⟩, hfails⟩
  · intro hemitted
    obtain ⟨next, henter, hdrained⟩ := hstop hemitted
    rw [← hw.width_eq] at henter
    exact ⟨next, feed_of_stopped hw.phase_eq hkey' henter hemitted, hdrained⟩

/-! ## The end -/

/-- The groups that the end emits: those that are there or, without grouping, always one. -/
def pending (h : Hashed) : List Group :=
  h.ensureGroup.groups.toList

/-- **The end emits the pending groups.** -/
theorem finish_of_gate (hphase : h.phase = .running) (hgate : h.gate = some gate)
    (outlet : Outlet) :
    (h.finish outlet).1 = ((gate.emitAll outlet h.pending).1.map fun _ => ()) ∧
      (h.finish outlet).2.2 = (gate.emitAll outlet h.pending).2.2 := by
  have hensure : (ensureGroup { h with phase := .finished }).gate = some gate ∧
      (ensureGroup { h with phase := .finished }).groups.toList = h.pending := by
    simp only [pending, ensureGroup]
    split_ifs <;> exact ⟨hgate, rfl⟩
  simp only [finish, hphase, Phase.check, flush_of_gate hensure.1, hensure.2, and_self]

theorem pending_of_groupBy (h : Hashed) (hgroup : h.groups ≠ #[] ∨ h.node.groupBy ≠ []) :
    h.pending = h.groups.toList := by
  have hcond : (h.groups.isEmpty && h.node.groupBy.isEmpty) = false := by
    rcases hgroup with hgroups | hgroupBy
    · simp [hgroups]
    · simp [hgroupBy]
  rw [pending, ensureGroup, hcond, if_neg (by simp)]

/-- After the groups were emitted the end emits nothing. -/
theorem finish_of_drained (hd : Drained node h) (hgroupBy : node.groupBy ≠ []) (outlet : Outlet) :
    (h.finish outlet).1 = .ok () ∧ (h.finish outlet).2.2 = outlet := by
  obtain ⟨gate, hgate⟩ := hd.gate_eq
  obtain ⟨hout, houtlet⟩ := finish_of_gate hd.phase_eq hgate outlet
  rw [pending_of_groupBy h (.inr (by rwa [hd.node_eq])), hd.groups_eq] at hout houtlet
  exact ⟨hout, houtlet⟩

end Hashed

end GraphScan
