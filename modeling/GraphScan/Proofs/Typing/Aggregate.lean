import GraphScan.Proofs.Aggregate.Twin
import GraphScan.Proofs.Typing.Expr

/-!
# Types of aggregations

The rows that an aggregation delivers have static types as well: those of its keys, and one for each
aggregate column.

* `AggregateNode.layoutIn` — **the static types of the rows that are delivered**.
* `AggregateNode.InRange` — whether an aggregation names only columns that there are.
* `Group.Conforms` — a group whose key and accumulators hold values of the right types.
* `Outlet.Takes` — an outlet into which every row of some types can be delivered.
* `Hashed.Conforms` — **the invariant of a hashed aggregation between two rows**: its groups conform,
  and every slot in its index is that of a group.
* `Machine.complete_sound` — **an aggregation that has been started and is fed rows of the right types
  fails only for the data's sake**.

Each function of the aggregation has a lemma of its own; `SoundCall` is what they all say.
-/

namespace GraphScan

variable {β σ : Type} {layout : Layout} {row : Row} {type : Option ColumnType}

/-! ## Static types -/

/-- The type of an aggregate column, given that of its inputs. -/
def AggregateKind.resultType (input : Option ColumnType) : AggregateKind → Option ColumnType
  | .count | .countStar => some .int
  | .avg => some .float
  | .max | .min | .sum => input

namespace AggregateExpr

def inputType (layout : Layout) (aggregate : AggregateExpr) : Option ColumnType :=
  aggregate.input.bind (Expr.typeIn layout)

/-- The static type of an aggregate column. -/
def typeIn (layout : Layout) (aggregate : AggregateExpr) : Option ColumnType :=
  aggregate.kind.resultType (aggregate.inputType layout)

/-- Counting rows needs no input, the other functions need one in range. -/
def InRange (width : Nat) (aggregate : AggregateExpr) : Prop :=
  aggregate.kind = .countStar ∨ ∃ expr ∈ aggregate.input, expr.InRange width

end AggregateExpr

namespace AggregateNode

/-- **The static types of the rows that an aggregation delivers**: the keys, then the aggregates. -/
def layoutIn (layout : Layout) (node : AggregateNode) : Layout :=
  node.groupBy.map (Expr.typeIn layout) ++ node.aggregates.map (AggregateExpr.typeIn layout)

/-- **Whether an aggregation names only columns that there are**: of its input for the keys and the
aggregates, of its own rows for `having`. -/
structure InRange (width : Nat) (node : AggregateNode) : Prop where
  groupBy : ∀ expr ∈ node.groupBy, expr.InRange width
  aggregates : ∀ aggregate ∈ node.aggregates, aggregate.InRange width
  having : ∀ predicate ∈ node.having,
    predicate.InRange (node.groupBy.length + node.aggregates.length)

theorem length_layoutIn (layout : Layout) (node : AggregateNode) :
    (node.layoutIn layout).length = node.groupBy.length + node.aggregates.length := by
  rw [layoutIn, List.length_append, List.length_map, List.length_map]

end AggregateNode

/-! ## Accumulators -/

/-- A sum of two values of a type is of this type. -/
theorem Value.add_conforms {total value sum : Value} (htotal : total.Conforms type)
    (hvalue : value.Conforms type) (hadd : total.add? value = some sum) : sum.Conforms type := by
  rcases Value.conforms_iff.mp htotal with rfl | htype
  · cases hadd
  rcases Value.conforms_iff.mp hvalue with rfl | hsame
  · cases total <;> cases hadd
  rw [htype] at hsame ⊢
  match total, value with
  | .int a, .int b =>
      obtain ⟨n, -, rfl⟩ := Option.map_eq_some_iff.mp hadd
      exact Value.conforms_int n
  | .float x, .float y =>
      cases hadd
      exact Value.conforms_float _
  | .int _, .float _ | .float _, .int _ => cases hsame
  | .bool _, _ | .text _, _ | .null, _ => cases hadd
  | .int _, .bool _ | .int _, .text _ | .int _, .null => cases hadd
  | .float _, .bool _ | .float _, .text _ | .float _, .null => cases hadd

namespace Accumulator

/-- **Whether an accumulator is one of an aggregate function** and the values that it keeps are of the
type of the inputs. -/
inductive Conforms (type : Option ColumnType) : AggregateKind → Accumulator → Prop where
  | avg (total : Binary64) (inputs : Nat) : Conforms type .avg (.avg total inputs)
  | count (n : Nat) : Conforms type .count (.count n)
  | countStar (n : Nat) : Conforms type .countStar (.countStar n)
  | max {best : Option Value} (h : ∀ value ∈ best, value.Conforms type) :
      Conforms type .max (.max best)
  | min {best : Option Value} (h : ∀ value ∈ best, value.Conforms type) :
      Conforms type .min (.min best)
  | sum {total : Option Value} (h : ∀ value ∈ total, value.Conforms type) :
      Conforms type .sum (.sum total)

variable {kind : AggregateKind} {acc : Accumulator} {kept : Option Value} {value : Value}

theorem new_conforms (type : Option ColumnType) (kind : AggregateKind) :
    (new kind).Conforms type kind := by
  cases kind with
  | avg => exact .avg .zero 0
  | count => exact .count 0
  | countStar => exact .countStar 0
  | max => exact .max (by simp)
  | min => exact .min (by simp)
  | sum => exact .sum (by simp)

theorem better_sound (kind : AggregateKind) (wanted : Ordering)
    (hkept : ∀ value ∈ kept, value.Conforms type) (hvalue : value.Conforms type) :
    Sound (fun best => best.Conforms type) (better kind wanted kept value) := by
  cases kept with
  | none => exact hvalue
  | some best =>
      simp only [better]
      cases value.compare? best with
      | none => exact .inr rfl
      | some order =>
          show Value.Conforms (if order = wanted then value else best) type
          split_ifs
          · exact hvalue
          · exact hkept best rfl

theorem addTo_sound (hkept : ∀ value ∈ kept, value.Conforms type) (hvalue : value.Conforms type) :
    Sound (fun sum => sum.Conforms type) (addTo kept value) := by
  cases kept with
  | none =>
      rw [addTo]
      split_ifs
      · exact hvalue
      · exact .inr rfl
  | some total =>
      simp only [addTo]
      cases hadd : total.add? value with
      | none => exact .inl rfl
      | some sum => exact Value.add_conforms (hkept total rfl) hvalue hadd

/-- A value that is not null is folded in, or its kind or range does not allow it. -/
theorem Conforms.absorb (hacc : acc.Conforms type kind) (hvalue : value.Conforms type) :
    Sound (fun acc => acc.Conforms type kind) (acc.absorb value) := by
  cases hacc with
  | avg total inputs =>
      rw [Accumulator.absorb]
      cases value.toNumber? with
      | none => exact .inr rfl
      | some x => exact .avg _ _
  | count n => exact .count (n + 1)
  | countStar n => exact .countStar (n + 1)
  | max h => exact (better_sound .max .gt h hvalue).bind fun best hbest => .max (by simpa using hbest)
  | min h => exact (better_sound .min .lt h hvalue).bind fun best hbest => .min (by simpa using hbest)
  | sum h => exact (addTo_sound h hvalue).bind fun sum hsum => .sum (by simpa using hsum)

/-- **Folding in an input** keeps an accumulator conforming, or fails for the data's sake. -/
theorem Conforms.update (hacc : acc.Conforms type kind) {input : Option Value}
    (hinput : ∀ value ∈ input, value.Conforms type) :
    Sound (fun acc => acc.Conforms type kind) (acc.update input) := by
  have hkept : acc.Conforms type kind := hacc
  match input with
  | none | some .null =>
      cases hacc with
      | countStar n => exact .countStar (n + 1)
      | _ => exact hkept
  | some (.bool _) | some (.float _) | some (.int _) | some (.text _) =>
      cases hacc <;> exact hkept.absorb (hinput _ rfl)

/-- **The value of an aggregate column** is of its static type. -/
theorem Conforms.result (hacc : acc.Conforms type kind) :
    acc.result.Conforms (kind.resultType type) := by
  cases hacc with
  | avg total inputs =>
      rw [Accumulator.result]
      split_ifs
      · exact Value.conforms_null _
      · exact Value.conforms_float _
  | count n | countStar n => exact Value.conforms_int _
  | max h | min h | sum h =>
      rename_i kept
      cases kept with
      | none => exact Value.conforms_null type
      | some value => exact h value rfl

end Accumulator

/-! ## Groups -/

namespace Group

/-- **A group of an aggregation whose rows have the given types**: the values of its key, and what its
accumulators keep, are of the static types. -/
structure Conforms (node : AggregateNode) (layout : Layout) (group : Group) : Prop where
  key : Row.Conforms group.key (node.groupBy.map (Expr.typeIn layout))
  accumulators : List.Forall₂
    (fun aggregate acc =>
      Accumulator.Conforms (aggregate.inputType layout) aggregate.kind acc)
    node.aggregates group.accumulators

variable {node : AggregateNode} {group : Group}

theorem new_conforms {key : GroupKey}
    (hkey : Row.Conforms key (node.groupBy.map (Expr.typeIn layout))) :
    (new key node.aggregates).Conforms node layout where
  key := hkey
  accumulators := by
    rw [new, List.forall₂_map_right_iff, List.forall₂_same]
    intro aggregate _
    exact Accumulator.new_conforms _ _

/-- The output row of a group is of the types of the aggregation. -/
theorem Conforms.conforms_row (h : group.Conforms node layout) :
    group.row.Conforms (node.layoutIn layout) := by
  refine List.rel_append h.key ?_
  rw [List.forall₂_map_left_iff, List.forall₂_map_right_iff]
  exact h.accumulators.imp fun _ _ hacc => hacc.result

/-- The input of an aggregate in range is of its static type. -/
theorem input_sound (hrow : row.Conforms layout) {aggregate : AggregateExpr}
    (hrange : aggregate.InRange layout.length) :
    Sound (fun input => ∀ value ∈ input, value.Conforms (aggregate.inputType layout))
      (input aggregate row) := by
  obtain ⟨kind, found⟩ := aggregate
  rcases hrange with hkind | ⟨expr, hexpr, hrange⟩
  · obtain rfl : kind = .countStar := hkind
    simp [input, Sound]
  · obtain rfl : found = some expr := hexpr
    have hinput : input ⟨kind, some expr⟩ row = .ok none ∨
        input ⟨kind, some expr⟩ row = (expr.eval row).map some := by
      cases kind <;> simp [input]
    rcases hinput with heq | heq
    · simp [heq, Sound]
    · rw [heq]
      refine (Expr.eval_sound hrow expr hrange).map fun value hvalue => ?_
      simpa [AggregateExpr.inputType] using hvalue

/-- A row is folded into all accumulators, or fails for the data's sake in one of them. -/
theorem foldRow_sound (hrow : row.Conforms layout) {aggregates : List AggregateExpr}
    {accs : List Accumulator} (hrange : ∀ aggregate ∈ aggregates, aggregate.InRange layout.length)
    (haccs : List.Forall₂ (fun aggregate acc =>
      Accumulator.Conforms (aggregate.inputType layout) aggregate.kind acc) aggregates accs) :
    Sound (fun _ => List.Forall₂ (fun aggregate acc =>
        Accumulator.Conforms (aggregate.inputType layout) aggregate.kind acc) aggregates
        (foldRow row aggregates accs).2)
      (foldRow row aggregates accs).1 := by
  induction haccs with
  | nil => exact .nil
  | @cons aggregate acc aggregates accs hacc _ ih =>
      obtain ⟨hfirst, hrest⟩ := List.forall_mem_cons.mp hrange
      have hinput := input_sound hrow hfirst
      rw [foldRow]
      cases hin : input aggregate row with
      | error e => exact hinput.of_error hin
      | ok found =>
          have hupdate := hacc.update (hinput.of_ok hin)
          dsimp only
          cases hup : acc.update found with
          | error e => exact hupdate.of_error hup
          | ok next => exact (ih hrest).mono fun _ hothers => .cons (hupdate.of_ok hup) hothers

theorem Conforms.update (h : group.Conforms node layout) (hrow : row.Conforms layout)
    (hrange : node.InRange layout.length) :
    Sound (fun _ => (group.update node.aggregates row).2.Conforms node layout)
      (group.update node.aggregates row).1 :=
  (foldRow_sound hrow hrange.aggregates h.accumulators).mono fun _ haccs => ⟨h.key, haccs⟩

end Group

/-! ## Delivery -/

/-- **An outlet into which every row of the given types can be delivered**: nobody holds its table,
and the rows fit the schema. -/
structure Outlet.Takes (outlet : Outlet) (layout : Layout) : Prop where
  free : outlet.shared.hold = .free
  fits : ∀ row : Row, row.Conforms layout → outlet.shared.table.schema.Fits row

theorem Outlet.Takes.deliver {outlet : Outlet} (h : outlet.Takes layout)
    (hrow : row.Conforms layout) :
    ∃ next, outlet.deliver row = (.ok (), next) ∧ next.Takes layout := by
  refine ⟨_, Outlet.deliver_eq_ok_iff.mpr ⟨h.free, h.fits row hrow, rfl⟩, h.free, ?_⟩
  simpa using h.fits

/-- **What a sound call comes to**: a state with a property, and an outlet that takes rows as before,
or an error owed to the data. -/
def SoundCall (P : σ → Prop) (layout : Layout) (result : Except EngineError β × σ × Outlet) :
    Prop :=
  Sound (fun _ => P result.2.1 ∧ result.2.2.Takes layout) result.1

namespace Gate

/-- Whether the predicate of a gate, if there is one, names only columns that there are. -/
def InRange (width : Nat) (gate : Gate) : Prop :=
  ∀ predicate ∈ gate.predicate, predicate.InRange width

variable {gate : Gate} {group : Group} {outlet : Outlet}

theorem isMatch_sound (hgate : gate.InRange layout.length) (hrow : row.Conforms layout) :
    Sound (fun _ => True) (gate.isMatch row) := by
  rw [isMatch]
  cases hfilter : gate.predicate with
  | none => trivial
  | some predicate =>
      exact (Expr.eval_sound hrow predicate (hgate predicate hfilter)).bind fun _ _ => trivial

/-- **An offer** is decided, and the gate stays one for the same rows. -/
theorem offer_sound (hgate : gate.InRange layout.length) (hrow : row.Conforms layout) :
    Sound (fun result => result.2.InRange layout.length) (gate.offer row) := by
  refine (isMatch_sound hgate hrow).bind fun matched _ => ?_
  cases matched with
  | false => exact hgate
  | true =>
      show gate.countMatch.2.InRange layout.length
      rwa [InRange, predicate_countMatch]

/-- **A group that is offered** is delivered or not, or `having` fails for the data's sake. -/
theorem emit_sound (hgate : gate.InRange layout.length) (hgroup : group.row.Conforms layout)
    (houtlet : outlet.Takes layout) :
    SoundCall (InRange layout.length) layout (gate.emit group outlet) := by
  have hoffer := offer_sound hgate hgroup
  rw [emit]
  split_ifs
  · dsimp only
    rcases hout : gate.offer group.row with e | ⟨_ | _, next⟩
    · exact hoffer.of_error hout
    · exact ⟨hoffer.of_ok hout, houtlet⟩
    · obtain ⟨after, hdeliver, hafter⟩ := houtlet.deliver hgroup
      simp only [hdeliver]
      exact ⟨hoffer.of_ok hout, hafter⟩
  · exact ⟨hgate, houtlet⟩

theorem emitAll_sound {groups : List Group} (hgate : gate.InRange layout.length)
    (hgroups : ∀ group ∈ groups, group.row.Conforms layout) (houtlet : outlet.Takes layout) :
    SoundCall (InRange layout.length) layout (gate.emitAll outlet groups) := by
  induction groups generalizing gate outlet with
  | nil => exact ⟨hgate, houtlet⟩
  | cons group groups ih =>
      obtain ⟨hfirst, hrest⟩ := List.forall_mem_cons.mp hgroups
      have hemit := emit_sound hgate hfirst houtlet
      rw [emitAll]
      rcases hcall : gate.emit group outlet with ⟨_ | _ | _, next, after⟩ <;> rw [hcall] at hemit
      · exact hemit
      · exact ih hemit.1 hrest hemit.2
      · exact hemit

end Gate

/-! ## Hashed aggregation -/

namespace Hashed

/-- **The state of a hashed aggregation between two rows**, where all rows have the given types: it
runs, its gate names only columns of its groups, all of which conform, and each slot in its index is
the slot of a group. -/
structure Conforms (node : AggregateNode) (layout : Layout) (h : Hashed) : Prop where
  node_eq : h.node = node
  phase_eq : h.phase = .running
  gate_eq : ∃ gate, h.gate = some gate ∧ gate.InRange (node.layoutIn layout).length
  groups : ∀ group ∈ h.groups.toList, group.Conforms node layout
  index : ∀ key slot, h.index.lookup key = some slot → slot < h.groups.size

variable {node : AggregateNode} {h : Hashed} {key : GroupKey} {outlet : Outlet}

/-- **Emitting the groups** leaves none. -/
theorem flush_sound (hc : h.Conforms node layout) (houtlet : outlet.Takes (node.layoutIn layout)) :
    SoundCall (Conforms node layout) (node.layoutIn layout) (h.flush outlet) := by
  obtain ⟨gate, hgate, hrange⟩ := hc.gate_eq
  rw [flush_of_gate hgate]
  refine (Gate.emitAll_sound hrange (fun group hgroup => (hc.groups group hgroup).conforms_row)
    houtlet).mono fun _ hafter => ⟨⟨hc.node_eq, hc.phase_eq, ⟨_, rfl, hafter.1⟩, ?_, ?_⟩, hafter.2⟩
  · simp
  · simp

theorem enterRun_sound (hc : h.Conforms node layout) (run : GroupKey)
    (houtlet : outlet.Takes (node.layoutIn layout)) :
    SoundCall (Conforms node layout) (node.layoutIn layout) (h.enterRun run outlet) := by
  rw [enterRun]
  split_ifs
  · exact ⟨hc, houtlet⟩
  · have hflush := flush_sound hc houtlet
    rcases hcall : h.flush outlet with ⟨_ | _ | _, next, after⟩ <;> rw [hcall] at hflush
    · exact hflush
    · exact ⟨{ hflush.1 with }, hflush.2⟩
    · exact hflush
  · exact ⟨{ hc with }, houtlet⟩

/-- The slot of a key is that of a group, old or new. -/
theorem slotOf_conforms (hc : h.Conforms node layout)
    (hkey : Row.Conforms key (node.groupBy.map (Expr.typeIn layout))) :
    (h.slotOf key).2.Conforms node layout ∧ (h.slotOf key).1 < (h.slotOf key).2.groups.size := by
  rw [slotOf]
  cases hlookup : h.index.lookup key with
  | some slot => exact ⟨hc, hc.index key slot hlookup⟩
  | none =>
      refine ⟨⟨hc.node_eq, hc.phase_eq, hc.gate_eq, ?_, ?_⟩, by simp⟩
      · intro group hgroup
        rw [Array.toList_push, List.mem_append, List.mem_singleton] at hgroup
        rcases hgroup with hold | rfl
        · exact hc.groups group hold
        · rw [hc.node_eq]
          exact Group.new_conforms hkey
      · intro other slot hslot
        rw [List.lookup_cons] at hslot
        rw [Array.size_push]
        split at hslot
        · have hsize : h.groups.size = slot := Option.some.inj hslot
          omega
        · exact Nat.lt_succ_of_lt (hc.index other slot hslot)

/-- **A row is folded into the group of its key**, which is there. -/
theorem collect_sound (hc : h.Conforms node layout) (hrow : row.Conforms layout)
    (hrange : node.InRange layout.length)
    (hkey : Row.Conforms key (node.groupBy.map (Expr.typeIn layout))) :
    Sound (fun _ => (h.collect key row).2.Conforms node layout) (h.collect key row).1 := by
  obtain ⟨hnext, hslot⟩ := slotOf_conforms hc hkey
  rw [collect]
  rcases hcall : h.slotOf key with ⟨slot, next⟩
  rw [hcall] at hnext hslot
  dsimp only at hnext hslot ⊢
  have hgroup : next.groups[slot]? = some next.groups[slot] := Array.getElem?_eq_getElem hslot
  have hupdate := (hnext.groups next.groups[slot] (by simp)).update hrow hrange
  simp only [hgroup, hnext.node_eq]
  refine hupdate.map fun _ hgroup => ⟨rfl, hnext.phase_eq, hnext.gate_eq, ?_, ?_⟩
  · intro other hother
    rw [Array.toList_setIfInBounds] at hother
    rcases List.mem_or_eq_of_mem_set hother with hold | rfl
    · exact hnext.groups other hold
    · exact hgroup
  · simpa using hnext.index

/-- **A row of the right types** keeps the invariant, or fails for the data's sake. -/
theorem feed_sound (hc : h.Conforms node layout) (hrow : row.Conforms layout)
    (hrange : node.InRange layout.length) (houtlet : outlet.Takes (node.layoutIn layout)) :
    SoundCall (Conforms node layout) (node.layoutIn layout) (h.feed row outlet) := by
  have hvalues := Expr.evalEach_sound hrow node.groupBy hrange.groupBy
  simp only [feed, hc.phase_eq, Phase.check, hc.node_eq]
  cases hkey : Expr.evalEach row node.groupBy with
  | error e => exact hvalues.of_error hkey
  | ok key =>
      have henter := enterRun_sound hc (key.take h.runWidth) houtlet
      dsimp only
      rcases hcall : h.enterRun (key.take h.runWidth) outlet with ⟨_ | _ | _, next, after⟩ <;>
        rw [hcall] at henter
      · exact henter
      · exact (collect_sound henter.1 hrow hrange (hvalues.of_ok hkey)).mono fun _ hdone =>
          ⟨hdone, henter.2⟩
      · exact henter

/-- **The end** emits the groups, or fails for the data's sake. -/
theorem finish_sound (hc : h.Conforms node layout) (houtlet : outlet.Takes (node.layoutIn layout)) :
    Sound (fun _ => True) (h.finish outlet).1 := by
  obtain ⟨gate, hgate, hrange⟩ := hc.gate_eq
  have hpending : ∀ group ∈ h.pending, group.row.Conforms (node.layoutIn layout) := by
    intro group hgroup
    rw [pending, ensureGroup] at hgroup
    split_ifs at hgroup with hnone
    · rw [Bool.and_eq_true, List.isEmpty_iff, hc.node_eq] at hnone
      rw [Array.toList_push, List.mem_append, List.mem_singleton] at hgroup
      rcases hgroup with hold | rfl
      · exact (hc.groups group hold).conforms_row
      · rw [hc.node_eq]
        refine (Group.new_conforms ?_).conforms_row
        rw [hnone.2, List.map_nil]
        exact .nil
    · exact (hc.groups group hgroup).conforms_row
  rw [(finish_of_gate hc.phase_eq hgate outlet).1]
  exact (Gate.emitAll_sound hrange hpending houtlet).map fun _ _ => trivial

/-- **All rows, and the end.**  The induction is on the rows; `Conforms` is what one of them hands on
to the next. -/
theorem complete_sound {rows : List Row} (hc : h.Conforms node layout)
    (hrows : ∀ row ∈ rows, row.Conforms layout) (hrange : node.InRange layout.length)
    (houtlet : outlet.Takes (node.layoutIn layout)) :
    Sound (fun _ => True) ((Machine.hashed h).complete rows outlet).1 := by
  induction rows generalizing h outlet with
  | nil => exact finish_sound hc houtlet
  | cons row rows ih =>
      obtain ⟨hfirst, hrest⟩ := List.forall_mem_cons.mp hrows
      have hfeed := feed_sound hc hfirst hrange houtlet
      rcases hcall : h.feed row outlet with ⟨_ | _ | _, next, after⟩ <;> rw [hcall] at hfeed
      · rw [Machine.complete_cons_of_error (Machine.feed_of_hashed hcall)]
        exact hfeed
      · rw [Machine.complete_cons_of_more (Machine.feed_of_hashed hcall)]
        exact ih hfeed.1 hrest hfeed.2
      · rw [Machine.complete_cons_of_enough (Machine.feed_of_hashed hcall)]
        exact finish_sound hfeed.1 hfeed.2

end Hashed

/-! ## Windows and starts -/

theorem Bound.resolve_sound (bound : Bound) (role : BoundRole) (params : List Value) :
    Sound (fun _ => True) (bound.resolve role params) := by
  cases bound with
  | literal count => trivial
  | parameter index =>
      simp only [resolve]
      match params[index]? with
      | some (.int n) =>
          by_cases hnonneg : 0 ≤ n.toInt
          · simp [hnonneg, Sound]
          · simp only [if_neg hnonneg]
            exact .inl rfl
      | some (.bool _) | some (.float _) | some (.text _) | some .null => exact .inl rfl
      | none => exact .inl rfl

/-- **A window is resolved**, or a parameter is at fault. -/
theorem WindowSpec.resolveOptional_sound (spec : Option WindowSpec) (params : List Value) :
    Sound (fun _ => True) (resolveOptional spec params) := by
  cases spec with
  | none => trivial
  | some spec =>
      obtain ⟨limit, offset⟩ := spec
      have hbound := fun bound role => Bound.resolve_sound bound role params
      cases limit with
      | none =>
          cases offset with
          | none => trivial
          | some offset => exact (hbound offset .offset).bind fun _ _ => trivial
      | some limit =>
          refine (hbound limit .limit).bind fun _ _ => ?_
          cases offset with
          | none => trivial
          | some offset => exact (hbound offset .offset).bind fun _ _ => trivial

/-- **A start** succeeds, or a parameter is at fault. -/
theorem Machine.init_sound (machine : Machine) (params : List Value) (width : Nat) :
    Sound (fun _ => True) (machine.init params width).1 := by
  have hgate : Sound (fun _ => True) (machine.node.gate params) :=
    (WindowSpec.resolveOptional_sound machine.node.window params).bind fun _ _ => trivial
  cases machine with
  | serial s =>
      simp only [init, Serial.init]
      cases hout : s.node.gate params with
      | error e => exact hgate.of_error hout
      | ok gate => trivial
  | hashed h =>
      simp only [init, Hashed.init]
      cases hout : h.node.gate params with
      | error e => exact hgate.of_error hout
      | ok gate => trivial

section Started

variable {params : List Value} {width : Nat} {scratch : Row} {rows : List Row} {outlet : Outlet}

/-- A hashed aggregation that has been started has no group yet. -/
theorem Hashed.conforms_of_init {h : Hashed} (hrange : h.node.InRange layout.length)
    (hinit : (h.init params width).1 = .ok scratch) :
    (h.init params width).2.Conforms h.node layout := by
  simp only [init, AggregateNode.gate, bind, Except.bind] at hinit ⊢
  cases hwindow : WindowSpec.resolveOptional h.node.window params with
  | error e => simp [hwindow] at hinit
  | ok window =>
      refine ⟨rfl, rfl, ⟨_, rfl, ?_⟩, by simp, by simp⟩
      intro predicate hpredicate
      rw [AggregateNode.length_layoutIn]
      exact hrange.having predicate hpredicate

/-- **An aggregation that has been started and is fed rows of the right types** fails only for the
data's sake, whatever it has been through before. -/
theorem Machine.complete_sound {machine : Machine} (hrange : machine.node.InRange layout.length)
    (hinit : (machine.init params width).1 = .ok scratch)
    (hrows : ∀ row ∈ rows, row.Conforms layout)
    (houtlet : outlet.Takes (machine.node.layoutIn layout)) :
    Sound (fun _ => True) ((machine.init params width).2.complete rows outlet).1 := by
  cases machine with
  | hashed h =>
      exact Hashed.complete_sound (Hashed.conforms_of_init hrange hinit) hrows hrange houtlet
  | serial s =>
      -- Once it is started, the serial aggregation has a hashed twin.
      obtain ⟨hstart, htwin⟩ := Twin.of_init hinit
      show Sound _ ((Machine.serial (s.init params width).2).complete rows outlet).1
      rw [(htwin.complete rows outlet).1]
      exact Hashed.complete_sound (Hashed.conforms_of_init hrange hstart) hrows hrange houtlet

end Started

end GraphScan
