import GraphScan.Proofs.Aggregate.Inputs
import GraphScan.Proofs.Aggregate.Strategy

/-!
# Rows in any order

The hash strategy asks nothing of the order of the rows.  In another order the same groups come up,
in an order of their own.

* `AggregateExpr.fold_perm` — an aggregate of the kind `AggregateExpr.Unordered` folds rows to the
  same accumulator in any order.
* `groupsOf_perm` — the groups of rows in another order are the same groups.
* `Machine.drive_perm` — **the rows that a hashed aggregation delivers do not depend on the order of
  its input**, but for their own order, and no two of them have the same key.
-/

namespace GraphScan

/-! ## Traversals -/

section Traversals

variable {α β : Type} {R S : α → β → Prop} {f g : α → Except EngineError β} {xs others : List α}
  {ys zs : List β}

/-- Two relations that agree on some elements give them the same images. -/
theorem forall₂_unique (h : List.Forall₂ R xs ys) (h' : List.Forall₂ S xs zs)
    (hsame : ∀ x ∈ xs, ∀ y z, R x y → S x z → y = z) : ys = zs := by
  induction h generalizing zs with
  | nil => cases h'; rfl
  | cons hxy _ ih =>
      cases h' with
      | cons hxz hrest =>
          rw [List.forall_mem_cons] at hsame
          rw [hsame.1 _ _ hxy hxz, ih hrest hsame.2]

/-- **Traversals in two orders** give the same in two orders, if they agree on every element. -/
theorem perm_of_mapM (hperm : xs.Perm others) (h : xs.mapM f = .ok ys)
    (h' : others.mapM g = .ok zs)
    (hsame : ∀ x ∈ xs, ∀ y z, f x = .ok y → g x = .ok z → y = z) : ys.Perm zs := by
  rw [mapM_eq_ok_iff] at h h'
  obtain ⟨between, hbetween, hzs⟩ := List.perm_comp_forall₂ hperm h'
  rw [forall₂_unique h hbetween hsame]
  exact hzs

end Traversals

/-! ## One aggregate -/

namespace AggregateExpr

variable {aggregate : AggregateExpr} {rows others : List Row} {start acc acc' : Accumulator}

/-- Folding rows is folding the inputs taken from them. -/
theorem inputs_of_foldlM (h : rows.foldlM aggregate.take start = .ok acc) :
    ∃ inputs, rows.mapM (Group.input aggregate) = .ok inputs ∧
      inputs.foldlM (fun acc input => acc.update input) start = .ok acc := by
  induction rows generalizing start with
  | nil => exact ⟨[], rfl, h⟩
  | cons row rows ih =>
      rw [List.foldlM_cons] at h
      simp only [take, bind, Except.bind] at h
      cases hinput : Group.input aggregate row with
      | error e => simp [hinput] at h
      | ok input =>
          rw [hinput] at h
          dsimp only at h
          cases hnext : start.update input with
          | error e => simp [hnext] at h
          | ok next =>
              rw [hnext] at h
              obtain ⟨inputs, hinputs, hfold⟩ := ih h
              refine ⟨input :: inputs, ?_, ?_⟩
              · rw [List.mapM_cons, hinput, hinputs]
                rfl
              · rw [List.foldlM_cons, hnext]
                exact hfold

theorem inputs_of_fold (h : aggregate.fold rows = .ok acc) :
    ∃ inputs, rows.mapM (Group.input aggregate) = .ok inputs ∧
      Accumulator.ofInputs aggregate.kind inputs = .ok acc :=
  inputs_of_foldlM h

/-- **An aggregate for which the order of the rows cannot matter**: a count, a sum of integers, or an
extremum of integers, truth values or texts.  Nulls may be among them. -/
def Unordered (aggregate : AggregateExpr) (rows : List Row) : Prop :=
  match aggregate.kind with
  | .count | .countStar => True
  | .sum => ∀ row ∈ rows, ∀ value, Group.input aggregate row = .ok (some value) →
      value.kind = .int ∨ value.kind = .null
  | .max | .min => ∀ row ∈ rows, ∀ value, Group.input aggregate row = .ok (some value) →
      value.kind ≠ .float
  | .avg => False

theorem Unordered.mono (h : aggregate.Unordered rows) (hsub : ∀ row ∈ others, row ∈ rows) :
    aggregate.Unordered others := by
  rw [Unordered] at h ⊢
  cases hkind : aggregate.kind with
  | avg => simp [hkind] at h
  | count | countStar => trivial
  | sum | max | min =>
      simp only [hkind] at h ⊢
      exact fun row hrow => h row (hsub row hrow)

theorem Unordered.inputs {inputs : List (Option Value)} (h : aggregate.Unordered rows)
    (hinputs : rows.mapM (Group.input aggregate) = .ok inputs) :
    Accumulator.Unordered aggregate.kind inputs := by
  have hrow : ∀ value ∈ Accumulator.present inputs, value.isNull = false ∧
      ∃ row ∈ rows, Group.input aggregate row = .ok (some value) := by
    intro value hvalue
    obtain ⟨input, hinput, hgiven⟩ := List.mem_filterMap.mp hvalue
    obtain ⟨rfl, hnull⟩ := Option.filter_eq_some_iff.mp hgiven
    exact ⟨by simpa using hnull, exists_of_mem_mapM hinputs hinput⟩
  rw [Unordered] at h
  cases hkind : aggregate.kind with
  | avg => simp [hkind] at h
  | count | countStar => trivial
  | max | min =>
      simp only [hkind] at h
      intro value hvalue
      obtain ⟨-, row, hmem, hinput⟩ := hrow value hvalue
      exact h row hmem value hinput
  | sum =>
      simp only [hkind] at h
      intro value hvalue
      obtain ⟨hnull, row, hmem, hinput⟩ := hrow value hvalue
      obtain hint | hkind := h row hmem value hinput
      · exact hint
      · cases value with
        | null => cases hnull
        | _ => cases hkind

/-- **Rows in any order are folded to the same accumulator**, if they can be folded in both. -/
theorem fold_perm (hperm : rows.Perm others) (hunordered : aggregate.Unordered rows)
    (hok : aggregate.fold rows = .ok acc) (hok' : aggregate.fold others = .ok acc') :
    acc = acc' := by
  obtain ⟨inputs, hinputs, hacc⟩ := inputs_of_fold hok
  obtain ⟨inputs', hinputs', hacc'⟩ := inputs_of_fold hok'
  have hsame := perm_of_mapM hperm hinputs hinputs' fun row _ first second hfirst hsecond => by
    rw [hfirst, Except.ok.injEq] at hsecond
    exact hsecond
  exact Accumulator.ofInputs_perm hsame (hunordered.inputs hinputs) hacc hacc'

end AggregateExpr

/-! ## Groups -/

section Groups

variable {aggregates : List AggregateExpr} {run others : List KeyedRow} {key : GroupKey}

theorem Group.ofRows_perm {rows rows' : List Row} {group group' : Group} (hperm : rows.Perm rows')
    (hunordered : ∀ aggregate ∈ aggregates, aggregate.Unordered rows)
    (hok : Group.ofRows aggregates key rows = .ok group)
    (hok' : Group.ofRows aggregates key rows' = .ok group') : group = group' := by
  obtain ⟨hkey, hfolds⟩ := Group.ofRows_eq_ok_iff.mp hok
  obtain ⟨hkey', hfolds'⟩ := Group.ofRows_eq_ok_iff.mp hok'
  have haccs := forall₂_unique hfolds hfolds' fun aggregate hmem _ _ =>
    AggregateExpr.fold_perm hperm (hunordered aggregate hmem)
  obtain ⟨key', accs⟩ := group
  obtain ⟨key'', accs'⟩ := group'
  obtain rfl : key' = key := hkey
  obtain rfl : key'' = key' := hkey'
  obtain rfl : accs = accs' := haccs
  rfl

theorem keysOf_perm (hperm : run.Perm others) : (keysOf run).Perm (keysOf others) := by
  rw [List.perm_ext_iff_of_nodup (nodup_keysOf run) (nodup_keysOf others)]
  intro key
  simp only [mem_keysOf, hperm.mem_iff]

theorem rowsOf_perm (hperm : run.Perm others) (key : GroupKey) :
    (rowsOf run key).Perm (rowsOf others key) :=
  (hperm.filter _).map Prod.snd

theorem mem_of_mem_rowsOf {row : Row} (h : row ∈ rowsOf run key) : row ∈ run.map Prod.snd := by
  obtain ⟨keyed, hkeyed, rfl⟩ := List.mem_map.mp h
  exact List.mem_map_of_mem (List.mem_of_mem_filter hkeyed)

/-- **Rows in another order have the same groups.** -/
theorem groupsOf_perm {groups groups' : List Group} (hperm : run.Perm others)
    (hunordered : ∀ aggregate ∈ aggregates, aggregate.Unordered (run.map Prod.snd))
    (hok : groupsOf aggregates run = .ok groups) (hok' : groupsOf aggregates others = .ok groups') :
    groups.Perm groups' := by
  refine perm_of_mapM (keysOf_perm hperm) hok hok' fun key _ group group' hgroup hgroup' => ?_
  refine Group.ofRows_perm (rowsOf_perm hperm key) (fun aggregate hmem => ?_) hgroup hgroup'
  exact (hunordered aggregate hmem).mono fun row => mem_of_mem_rowsOf

theorem keys_of_groupsOf {groups : List Group} (hok : groupsOf aggregates run = .ok groups) :
    groups.map Group.key = keysOf run := by
  rw [groupsOf, mapM_eq_ok_iff] at hok
  generalize keysOf run = keys at hok
  induction hok with
  | nil => rfl
  | cons hgroup _ ih => rw [List.map_cons, ih, (Group.ofRows_eq_ok_iff.mp hgroup).1]

end Groups

/-! ## Aggregations -/

namespace AggregateNode

variable {node : AggregateNode} {rows others : List Row}

/-- Where no key values delimit a run all rows are one run. -/
theorem groupsBy_zero (node : AggregateNode) (rows : List Row) :
    node.groupsBy 0 rows =
      if rows.isEmpty && node.groupBy.isEmpty then .ok [.new [] node.aggregates]
      else (node.keyed rows).bind (groupsOf node.aggregates) := by
  rw [groupsBy]
  split
  · rfl
  · cases hkeyed : node.keyed rows with
    | error e => rfl
    | ok keyed => exact (groupsOf_of_contiguous node.aggregates (contiguous_zero keyed)).symm

/-- A row is given the key that the grouping expressions have on it. -/
theorem key_eq_ok_iff {row : Row} {pair : KeyedRow} :
    ((Expr.evalEach row node.groupBy).map fun key => (key, row)) = .ok pair ↔
      Expr.evalEach row node.groupBy = .ok pair.1 ∧ pair.2 = row := by
  obtain ⟨key, row'⟩ := pair
  cases Expr.evalEach row node.groupBy with
  | error e => simp [Except.map]
  | ok key' => simp [Except.map, eq_comm]

theorem rows_of_keyed {run : List KeyedRow} (h : node.keyed rows = .ok run) :
    run.map Prod.snd = rows := by
  rw [keyed, mapM_eq_ok_iff] at h
  induction h with
  | nil => rfl
  | cons hrow _ ih => rw [List.map_cons, ih, (key_eq_ok_iff.mp hrow).2]

/-- **The groups of the hash strategy do not depend on the order of the rows.** -/
theorem groups_perm {groups groups' : List Group} (hhash : node.strategy = .hash)
    (hunordered : ∀ aggregate ∈ node.aggregates, aggregate.Unordered rows)
    (hperm : rows.Perm others) (hok : node.groups rows = .ok groups)
    (hok' : node.groups others = .ok groups') : groups.Perm groups' := by
  simp only [AggregateNode.groups, runWidth, hhash, groupsBy_zero] at hok hok'
  have hempty : others.isEmpty = rows.isEmpty := hperm.symm.isEmpty_eq
  rw [hempty] at hok'
  split at hok
  · next hnone =>
    rw [if_pos hnone] at hok'
    rw [Except.ok.inj (hok.symm.trans hok')]
  · next hsome =>
    rw [if_neg hsome] at hok'
    cases hrun : node.keyed rows with
    | error e => simp [hrun, Except.bind] at hok
    | ok run =>
        cases hrun' : node.keyed others with
        | error e => simp [hrun', Except.bind] at hok'
        | ok run' =>
            simp only [hrun, Except.bind] at hok
            simp only [hrun', Except.bind] at hok'
            have hruns : run.Perm run' :=
              perm_of_mapM hperm hrun hrun' fun row _ first second hfirst hsecond =>
                Except.ok.inj (hfirst.symm.trans hsecond)
            rw [← rows_of_keyed hrun] at hunordered
            exact groupsOf_perm hruns hunordered hok hok'

/-- **No two groups have the same key**, and a row begins with the key of its group. -/
theorem keys_of_groups {groups : List Group} (hhash : node.strategy = .hash)
    (hok : node.groups rows = .ok groups) :
    (groups.map Group.key).Nodup ∧
      ∀ group ∈ groups, group.row.take node.groupBy.length = group.key := by
  simp only [AggregateNode.groups, runWidth, hhash, groupsBy_zero] at hok
  split at hok
  · next hnone =>
    rw [Bool.and_eq_true, List.isEmpty_iff, List.isEmpty_iff] at hnone
    rw [← Except.ok.inj hok, hnone.2]
    simp [Group.new]
  · cases hrun : node.keyed rows with
    | error e => simp [hrun, Except.bind] at hok
    | ok run =>
        simp only [hrun, Except.bind] at hok
        have hkeys := keys_of_groupsOf hok
        refine ⟨hkeys ▸ nodup_keysOf run, fun group hgroup => ?_⟩
        have hkey : group.key ∈ keysOf run := hkeys ▸ List.mem_map_of_mem hgroup
        obtain ⟨row, hrow⟩ := mem_keysOf.mp hkey
        obtain ⟨row', -, hpair⟩ := exists_of_mem_mapM hrun hrow
        have hlength := Expr.length_of_evalEach_eq_ok (key_eq_ok_iff.mp hpair).1
        rw [Group.row, ← hlength, List.take_left]

end AggregateNode

/-! ## Whole drives -/

namespace Machine

variable {node : AggregateNode} {rows others : List Row} {params : List Value} {columns : Nat}
  {outlet : Outlet}

/-- **What a hashed aggregation without a window has delivered** if it has not failed: the rows of the
groups that `having` admits. -/
theorem delivered_of_drive (hhash : node.strategy = .hash) (hwindow : node.window = none)
    (hok : ((ofNode node).drive params columns rows outlet).1 = .ok ()) :
    ∃ groups, node.groups rows = .ok groups ∧
      ((ofNode node).drive params columns rows outlet).2.2 =
        outlet.receiveAll ((groups.map Group.row).filter (admits node.having)) := by
  have hzero : node.runWidth = 0 := by rw [AggregateNode.runWidth, hhash]
  obtain ⟨window, groups, hresolve, hgroups⟩ := groups_of_drive (.inl hzero) hok
  obtain ⟨hout, houtlet⟩ := drive_of_groups hresolve hgroups columns outlet
  rw [hwindow] at hresolve
  obtain rfl : Window.everything = window := Except.ok.inj hresolve
  rw [hout] at hok
  refine ⟨groups, hgroups, ?_⟩
  rw [houtlet]
  have hunlimited : (Gate.new node.having .everything).Unlimited := ⟨rfl, rfl⟩
  obtain ⟨demand, hemitted, -⟩ := exists_of_map_eq_ok hok
  exact Gate.emitAll_of_ok hunlimited rfl hemitted

/-- The rows of groups begin with different keys, also where some are left out. -/
theorem nodup_take_key (hhash : node.strategy = .hash) {groups : List Group}
    (hok : node.groups rows = .ok groups) (p : Row → Bool) :
    (((groups.map Group.row).filter p).map (·.take node.groupBy.length)).Nodup := by
  obtain ⟨hnodup, hkey⟩ := AggregateNode.keys_of_groups hhash hok
  have hkeys : (groups.map Group.row).map (·.take node.groupBy.length) = groups.map Group.key := by
    rw [List.map_map]
    exact List.map_congr_left hkey
  refine List.Nodup.sublist (List.filter_sublist.map _) ?_
  rw [hkeys]
  exact hnodup

/-- **A hashed aggregation does not depend on the order of its rows.**  Driven over the same rows in
two orders, without a window and with aggregates of the kind that the order cannot matter to, it
delivers the same rows if it fails in neither: one delivery is a permutation of the other, and within
each of them all keys differ. -/
theorem drive_perm {columns' : Nat} {outlet' : Outlet} (hhash : node.strategy = .hash)
    (hwindow : node.window = none)
    (hunordered : ∀ aggregate ∈ node.aggregates, aggregate.Unordered rows)
    (hperm : rows.Perm others)
    (hok : ((ofNode node).drive params columns rows outlet).1 = .ok ())
    (hok' : ((ofNode node).drive params columns' others outlet').1 = .ok ()) :
    ∃ appended appended' : List Row,
      ((ofNode node).drive params columns rows outlet).2.2 = outlet.receiveAll appended ∧
      ((ofNode node).drive params columns' others outlet').2.2 = outlet'.receiveAll appended' ∧
      appended.Perm appended' ∧
      (appended.map (·.take node.groupBy.length)).Nodup ∧
      (appended'.map (·.take node.groupBy.length)).Nodup := by
  obtain ⟨groups, hgroups, hdelivered⟩ := delivered_of_drive hhash hwindow hok
  obtain ⟨groups', hgroups', hdelivered'⟩ := delivered_of_drive hhash hwindow hok'
  have hsame := AggregateNode.groups_perm hhash hunordered hperm hgroups hgroups'
  exact ⟨_, _, hdelivered, hdelivered', (hsame.map Group.row).filter _,
    nodup_take_key hhash hgroups _, nodup_take_key hhash hgroups' _⟩

end Machine

/-! ### An example: the longest stays -/

/-- How often each guest came, for how many nights, and where last in the order of names. -/
def stays : AggregateNode :=
  ⟨.hash, [.column 0], [⟨.countStar, none⟩, ⟨.sum, some (.column 1)⟩, ⟨.max, some (.column 2)⟩], none,
    none, ⟨[⟨"guest", .int⟩, ⟨"n", .int⟩, ⟨"nights", .int⟩, ⟨"place", .text⟩]⟩⟩

def stayRows : List Row :=
  [[.int 1, .int 3, .text "Oslo"], [.int 1, .null, .text "Rome"], [.int 2, .int 4, .null]]

def stayOutlet : Outlet :=
  ⟨.unheld (.empty "stays" stays.schema), default⟩

/-- From the last row to the first the same two groups come up, in the other order. -/
theorem Machine.drive_perm_stays :
    let forward := (Machine.ofNode stays).drive [] 3 stayRows stayOutlet
    let backward := (Machine.ofNode stays).drive [] 3 stayRows.reverse stayOutlet
    forward.1 = .ok () ∧ backward.1 = .ok () ∧
      (∃ appended appended' : List Row, forward.2.2 = stayOutlet.receiveAll appended ∧
        backward.2.2 = stayOutlet.receiveAll appended' ∧ appended.Perm appended' ∧
        (appended.map (·.take 1)).Nodup ∧ (appended'.map (·.take 1)).Nodup) ∧
      forward.2.2.shared.table.rows ≠ backward.2.2.shared.table.rows := by
  intro forward backward
  have hforward : forward.1 = .ok () := rfl
  have hbackward : backward.1 = .ok () := rfl
  have hunordered : ∀ aggregate ∈ stays.aggregates, aggregate.Unordered stayRows := by
    intro aggregate haggregate
    simp only [stays, List.mem_cons, List.not_mem_nil, or_false] at haggregate
    rcases haggregate with rfl | rfl | rfl
    · trivial
    all_goals
      intro row hrow value hvalue
      simp only [stayRows, List.mem_cons, List.not_mem_nil, or_false] at hrow
      rcases hrow with rfl | rfl | rfl <;> cases hvalue <;> decide
  exact ⟨hforward, hbackward,
    Machine.drive_perm rfl rfl hunordered (List.reverse_perm stayRows).symm hforward hbackward,
    by decide⟩

end GraphScan
