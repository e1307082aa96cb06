import GraphScan.Proofs.Aggregate.Twin

/-!
# What an aggregation computes

Whatever its strategy, an aggregation that is driven over rows computes their groups.

* `Machine.drive_of_groups` — the groups go to the gate, in order.
* `Machine.groups_of_drive` — the converse, for drives that leave out no row.
* `Machine.drive_computes_groups` — **the meaning of an aggregation**: it appends to its output the
  rows of the groups that `having` admits, as far as they are inside the window.
-/

namespace GraphScan

namespace Machine

variable {node : AggregateNode} {params : List Value} {rows : List Row}

/-- **A drive offers the groups of its rows to the gate**, in order. -/
theorem drive_of_groups {window : Window} {groups : List Group}
    (hwindow : WindowSpec.resolveOptional node.window params = .ok window)
    (hgroups : node.groups rows = .ok groups) (columns : Nat) (outlet : Outlet) :
    ((ofNode node).drive params columns rows outlet).1 =
        (((Gate.new node.having window).emitAll outlet groups).1.map fun _ => ()) ∧
      ((ofNode node).drive params columns rows outlet).2.2 =
        ((Gate.new node.having window).emitAll outlet groups).2.2 := by
  rw [AggregateNode.groups, AggregateNode.runWidth] at hgroups
  rw [ofNode]
  cases hstrategy : node.strategy with
  | serial =>
      rw [hstrategy, ← Nat.min_self node.groupBy.length] at hgroups
      obtain ⟨hout, houtlet⟩ := Twin.drive node params columns rows outlet
      rw [hout, houtlet]
      exact Hashed.drive_of_groups hwindow hgroups columns outlet
  | partialOrder sorted =>
      rw [hstrategy] at hgroups
      exact Hashed.drive_of_groups hwindow hgroups columns outlet
  | hash =>
      rw [hstrategy, ← Nat.zero_min node.groupBy.length] at hgroups
      exact Hashed.drive_of_groups hwindow hgroups columns outlet

/-- **A drive that leaves out no row**, and does not fail, can group its rows.  It leaves out none if
the whole table is one run, or if there is no window. -/
theorem groups_of_drive {columns : Nat} {outlet : Outlet}
    (hopen : node.runWidth = 0 ∨ node.window = none)
    (hok : ((ofNode node).drive params columns rows outlet).1 = .ok ()) :
    ∃ window groups, WindowSpec.resolveOptional node.window params = .ok window ∧
      node.groups rows = .ok groups := by
  rw [AggregateNode.runWidth] at hopen
  rw [AggregateNode.groups, AggregateNode.runWidth]
  rw [ofNode] at hok
  cases hstrategy : node.strategy with
  | serial =>
      rw [hstrategy, ← Nat.min_self node.groupBy.length] at hopen
      rw [hstrategy, (Twin.drive node params columns rows outlet).1] at hok
      have hgroups := Hashed.groups_of_drive hopen hok
      rwa [Nat.min_self] at hgroups
  | partialOrder sorted =>
      rw [hstrategy] at hopen hok
      exact Hashed.groups_of_drive hopen hok
  | hash =>
      rw [hstrategy] at hok
      have hgroups := Hashed.groups_of_drive (.inl (Nat.zero_min _)) hok
      rwa [Nat.zero_min] at hgroups

/-- **The meaning of an aggregation.**  If the rows can be grouped, `having` has a value on every
group, and nobody holds the output table, a drive succeeds.  It has delivered the rows of the groups
that `having` admits, as far as they are inside the window of the aggregation, provided that these
fit the table. -/
theorem drive_computes_groups {window : Window} {groups : List Group} {outlet : Outlet}
    (hwindow : WindowSpec.resolveOptional node.window params = .ok window)
    (hgroups : node.groups rows = .ok groups)
    (hsettled : ∀ group ∈ groups, Settled node.having group.row)
    (hfree : outlet.shared.hold = .free)
    (hfits : ∀ row ∈ window.cut ((groups.map Group.row).filter (admits node.having)),
      outlet.shared.table.schema.Fits row) (columns : Nat) :
    ((ofNode node).drive params columns rows outlet).1 = .ok () ∧
      ((ofNode node).drive params columns rows outlet).2.2 = outlet.receiveAll
        (window.cut ((groups.map Group.row).filter (admits node.having))) := by
  obtain ⟨hout, houtlet⟩ := drive_of_groups hwindow hgroups columns outlet
  rw [← Gate.window_new node.having window] at hfits
  have hemitted :=
    Gate.emitAll_of_settled (Gate.new node.having window) outlet rfl hfree hsettled hfits
  rw [Gate.window_new] at hemitted
  rw [hout, houtlet]
  exact hemitted

end Machine

/-! ### An example: visits by place and day -/

/-- How often each place was visited on each day, and for how long: the second of those with more
than one visit.  The rows come sorted by place. -/
def visits : AggregateNode :=
  ⟨.partialOrder 1, [.column 0, .column 1], [⟨.countStar, none⟩, ⟨.sum, some (.column 2)⟩],
    some (.compare .gt (.column 2) (.constant (.int 1))), some ⟨some (.literal 1), some (.literal 1)⟩,
    ⟨[⟨"place", .int⟩, ⟨"day", .int⟩, ⟨"n", .int⟩, ⟨"total", .int⟩]⟩⟩

/-- Six visits to two places.  Those to the first one do not all stand together. -/
def visitRows : List Row :=
  [[.int 1, .int 1, .int 10], [.int 1, .int 2, .int 20], [.int 1, .int 1, .int 30],
    [.int 2, .int 1, .int 40], [.int 2, .int 1, .int 50], [.int 1, .int 1, .int 60]]

def visitOutlet : Outlet :=
  ⟨.unheld (.empty "visits" visits.schema), default⟩

/-- There are four groups, two of the same key; `having` admits two of them. -/
theorem Machine.drive_computes_groups_visits :
    ((Machine.ofNode visits).drive [] 3 visitRows visitOutlet).1 = .ok () ∧
      ((Machine.ofNode visits).drive [] 3 visitRows visitOutlet).2.2 =
        visitOutlet.receiveAll [[.int 2, .int 1, .int 2, .int 90]] := by
  have hgroups : visits.groups visitRows = .ok
      [⟨[.int 1, .int 1], [.countStar 2, .sum (some (.int 40))]⟩,
        ⟨[.int 1, .int 2], [.countStar 1, .sum (some (.int 20))]⟩,
        ⟨[.int 2, .int 1], [.countStar 2, .sum (some (.int 90))]⟩,
        ⟨[.int 1, .int 1], [.countStar 1, .sum (some (.int 60))]⟩] := by
    rfl
  have hwindow : WindowSpec.resolveOptional visits.window [] = .ok ⟨some 1, 1⟩ := rfl
  refine Machine.drive_computes_groups hwindow hgroups ?_ rfl ?_ 3
  · intro group hgroup predicate hpredicate
    cases hpredicate
    simp only [List.mem_cons, List.not_mem_nil, or_false] at hgroup
    rcases hgroup with rfl | rfl | rfl | rfl <;> exact ⟨_, rfl⟩
  · intro row hrow
    have hone : row = [.int 2, .int 1, .int 2, .int 90] := List.mem_singleton.mp hrow
    rw [hone]
    exact .cons rfl (.cons rfl (.cons rfl (.cons rfl .nil)))

end GraphScan
