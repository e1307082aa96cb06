import GraphScan.Proofs.Aggregate.Collect

/-!
# What a hashed aggregation emits

A hashed aggregation that is driven over rows emits the groups of all runs, one run after the other.
Whether it emits them while rows still arrive or at the end makes no difference.

* `Hashed.complete_of_groups` — from within a run on: **if the rows can be grouped, what is emitted is
  what the gate makes of their groups**.
* `Hashed.groups_of_complete` — the converse: if nothing failed and no row was left out, the rows can
  be grouped.
* `Hashed.drive_of_groups`, `Hashed.groups_of_drive` — the same for a whole drive.
-/

namespace GraphScan

namespace AggregateNode

variable {node : AggregateNode} {width : Nat} {row : Row} {rows : List Row}

theorem groupsBy_nil (node : AggregateNode) (width : Nat) :
    node.groupsBy width [] =
      .ok (if node.groupBy.isEmpty then [.new [] node.aggregates] else []) := by
  rw [groupsBy, List.isEmpty_nil, Bool.true_and]
  split_ifs <;> rfl

theorem keyed_cons_eq_ok_iff {keyed : List KeyedRow} :
    node.keyed (row :: rows) = .ok keyed ↔
      ∃ key rest, Expr.evalEach row node.groupBy = .ok key ∧ node.keyed rows = .ok rest ∧
        keyed = (key, row) :: rest := by
  rw [AggregateNode.keyed, mapM_eq_ok_iff, List.forall₂_cons_left_iff]
  simp only [← mapM_eq_ok_iff]
  constructor
  · rintro ⟨_, rest, hkey, hrest, rfl⟩
    obtain ⟨key, heval, rfl⟩ := exists_of_map_eq_ok hkey
    exact ⟨key, rest, heval, hrest, rfl⟩
  · rintro ⟨key, rest, hkey, hrest, rfl⟩
    exact ⟨(key, row), rest, by rw [hkey]; rfl, hrest, rfl⟩

/-- Where there are rows, the groups are those of the runs. -/
theorem groupsBy_cons_eq_ok_iff {groups : List Group} :
    node.groupsBy width (row :: rows) = .ok groups ↔
      ∃ keyed all, node.keyed (row :: rows) = .ok keyed ∧
        (runs width keyed).mapM (groupsOf node.aggregates) = .ok all ∧ groups = all.flatten := by
  rw [groupsBy, List.isEmpty_cons, Bool.false_and, if_neg (by simp)]
  cases node.keyed (row :: rows) with
  | error e =>
      refine ⟨fun h => (by cases h), ?_⟩
      rintro ⟨_, _, h, -⟩
      cases h
  | ok keyed =>
      cases hall : (runs width keyed).mapM (groupsOf node.aggregates) with
      | error e =>
          refine ⟨fun h => (by simp [bind, Except.bind, hall] at h), ?_⟩
          rintro ⟨_, _, hkeyed, h, -⟩
          obtain rfl := Except.ok.inj hkeyed
          rw [hall] at h
          cases h
      | ok all =>
          simp only [bind, Except.bind, hall, Except.ok.injEq]
          constructor
          · rintro rfl
            exact ⟨keyed, all, rfl, hall, rfl⟩
          · rintro ⟨_, _, rfl, h, rfl⟩
            rw [hall] at h
            rw [Except.ok.inj h]

end AggregateNode

/-- The first rows of a first run can be grouped if the runs can be. -/
theorem exists_groupsOf_of_runs {aggregates : List AggregateExpr} {width : Nat}
    {seen rest : List KeyedRow} {lead : GroupKey} {all : List (List Group)} (hseen : seen ≠ [])
    (huniform : ∀ keyed ∈ seen, keyed.lead width = lead)
    (hall : (runs width (seen ++ rest)).mapM (groupsOf aggregates) = .ok all) :
    ∃ groups, groupsOf aggregates seen = .ok groups := by
  obtain ⟨more, others, hruns⟩ := exists_runs_of_uniform hseen huniform rest
  rw [hruns] at hall
  obtain ⟨groups, hgroups⟩ := exists_mapM_eq_ok_iff.mp ⟨all, hall⟩ (seen ++ more) (by simp)
  exact exists_groupsOf_of_append hgroups

theorem exists_groupsOf_singleton_of_runs {aggregates : List AggregateExpr} {width : Nat}
    {keyed : KeyedRow} {rest : List KeyedRow} {all : List (List Group)}
    (hall : (runs width (keyed :: rest)).mapM (groupsOf aggregates) = .ok all) :
    ∃ groups, groupsOf aggregates [keyed] = .ok groups := by
  have huniform : ∀ other ∈ [keyed], other.lead width = keyed.lead width := by
    intro other hother
    rw [List.mem_singleton.mp hother]
  exact exists_groupsOf_of_runs (List.cons_ne_nil _ _) huniform hall

namespace Hashed

variable {node : AggregateNode} {width : Nat} {h : Hashed} {gate : Gate} {seen : List KeyedRow}
  {lead : GroupKey}

theorem Within.groups_ne (hw : Within node width h gate seen lead) (hseen : seen ≠ []) :
    h.groups ≠ #[] := by
  intro hempty
  have hlength := hw.slots.groups.length_eq
  rw [hempty] at hlength
  obtain ⟨⟨key, row⟩, hmem⟩ := List.exists_mem_of_ne_nil seen hseen
  have hkey : key ∈ keysOf seen := mem_keysOf.mpr ⟨row, hmem⟩
  rw [List.eq_nil_of_length_eq_zero hlength] at hkey
  cases hkey

/-- **From within a run on, what is emitted is what the gate makes of the groups** of the rows seen
in the run and those to come, if they can be grouped.  The induction is on the rows to come: a row of
the same run is one more row seen, and a row of another run leaves the groups of this one behind. -/
theorem complete_of_groups (hw : Within node width h gate seen lead) (hseen : seen ≠ [])
    (hwidth : width ≤ node.groupBy.length) {rows : List Row} {keyed : List KeyedRow}
    {all : List (List Group)} (hkeyed : node.keyed rows = .ok keyed)
    (hall : (runs width (seen ++ keyed)).mapM (groupsOf node.aggregates) = .ok all)
    (outlet : Outlet) :
    ((Machine.hashed h).complete rows outlet).1 =
        ((gate.emitAll outlet all.flatten).1.map fun _ => ()) ∧
      ((Machine.hashed h).complete rows outlet).2.2 = (gate.emitAll outlet all.flatten).2.2 := by
  induction rows generalizing h gate seen lead keyed all outlet with
  | nil =>
      obtain rfl : [] = keyed := Except.ok.inj hkeyed
      rw [List.append_nil, runs_of_uniform hseen hw.uniform, mapM_eq_ok_iff,
        List.forall₂_cons_left_iff] at hall
      obtain ⟨groups, _, hgroups, hnil, rfl⟩ := hall
      obtain rfl := List.forall₂_nil_left_iff.mp hnil
      rw [hw.groups] at hgroups
      obtain rfl := Except.ok.inj hgroups
      rw [List.flatten_singleton, ← pending_of_groupBy h (.inl (hw.groups_ne hseen))]
      exact finish_of_gate hw.phase_eq hw.gate_eq outlet
  | cons row rows ih =>
      obtain ⟨key, rest, hkey, hrest, rfl⟩ := AggregateNode.keyed_cons_eq_ok_iff.mp hkeyed
      by_cases hlead : key.take width = lead
      · rcases feed_same hw hkey hlead outlet with ⟨next, hfeed, hnext⟩ | ⟨-, hfails⟩
        · rw [Machine.complete_cons_of_more (Machine.feed_of_hashed hfeed)]
          rw [List.append_cons seen (key, row) rest] at hall
          exact ih hnext (by simp) hrest hall outlet
        · exfalso
          rw [List.append_cons seen (key, row) rest] at hall
          have hsame : KeyedRow.lead width (key, row) = lead := hlead
          obtain ⟨groups, hgroups⟩ :=
            exists_groupsOf_of_runs (by simp) (uniform_concat hw.uniform hsame) hall
          exact hfails groups hgroups
      · have hother : KeyedRow.lead width (key, row) ≠ lead := hlead
        rw [runs_append_cons hseen hw.uniform hother, mapM_eq_ok_iff,
          List.forall₂_cons_left_iff] at hall
        obtain ⟨groups, others, hgroups, hothers, rfl⟩ := hall
        rw [hw.groups] at hgroups
        obtain rfl := Except.ok.inj hgroups
        have hothers' := mapM_eq_ok_iff.mpr hothers
        obtain ⟨hmore, hstop⟩ := feed_other hw hseen hkey hlead outlet
        rw [List.flatten_cons, Gate.emitAll_append]
        rcases hemitted : gate.emitAll outlet h.groups.toList with ⟨outcome, after, delivered⟩
        rw [hemitted] at hmore hstop
        match outcome with
        | .ok .more =>
            rcases hmore rfl with ⟨next, hfeed, hnext⟩ | ⟨-, hfails⟩
            · rw [Machine.complete_cons_of_more (Machine.feed_of_hashed hfeed)]
              exact ih hnext (by simp) hrest hothers' delivered
            · exfalso
              obtain ⟨groups, hgroups⟩ := exists_groupsOf_singleton_of_runs hothers'
              exact hfails groups hgroups
        | .ok .enough =>
            obtain ⟨next, hfeed, hdrained⟩ := hstop (by simp)
            have hgroupBy : node.groupBy ≠ [] := by
              intro hnil
              obtain rfl : width = 0 := by simpa [hnil] using hwidth
              obtain ⟨keyed, hmem⟩ := List.exists_mem_of_ne_nil seen hseen
              exact hlead (hw.uniform keyed hmem)
            rw [Machine.complete_cons_of_enough (Machine.feed_of_hashed hfeed)]
            exact finish_of_drained hdrained hgroupBy delivered
        | .error e =>
            obtain ⟨next, hfeed, -⟩ := hstop (by simp)
            rw [Machine.complete_cons_of_error (Machine.feed_of_hashed hfeed)]
            exact ⟨rfl, rfl⟩

/-- **The converse.**  If nothing fails, and the gate never has enough before the last row, the rows
have keys and can be grouped.  Without leading key values nothing is offered to the gate before the
end, so that it need not be without a limit. -/
theorem groups_of_complete (hw : Within node width h gate seen lead) (hseen : seen ≠ [])
    (hopen : width = 0 ∨ gate.Unlimited) {rows : List Row} {outlet : Outlet}
    (hok : ((Machine.hashed h).complete rows outlet).1 = .ok ()) :
    ∃ keyed all, node.keyed rows = .ok keyed ∧
      (runs width (seen ++ keyed)).mapM (groupsOf node.aggregates) = .ok all := by
  induction rows generalizing h gate seen lead outlet with
  | nil =>
      refine ⟨[], [h.groups.toList], rfl, ?_⟩
      rw [List.append_nil, runs_of_uniform hseen hw.uniform, mapM_eq_ok_iff]
      exact .cons hw.groups .nil
  | cons row rows ih =>
      cases hkey : Expr.evalEach row node.groupBy with
      | error e =>
          have hfeed := feed_of_key_error hw.phase_eq (by rw [hw.node_eq, hkey]) outlet
          rw [Machine.complete_cons_of_error (Machine.feed_of_hashed hfeed)] at hok
          cases hok
      | ok key =>
          by_cases hlead : key.take width = lead
          · rcases feed_same hw hkey hlead outlet with
              ⟨next, hfeed, hnext⟩ | ⟨⟨e, next, hfeed⟩, -⟩
            · rw [Machine.complete_cons_of_more (Machine.feed_of_hashed hfeed)] at hok
              obtain ⟨rest, all, hrest, hall⟩ := ih hnext (by simp) hopen hok
              rw [← List.append_cons seen (key, row) rest] at hall
              exact ⟨_, all, AggregateNode.keyed_cons_eq_ok_iff.mpr ⟨key, rest, hkey, hrest, rfl⟩,
                hall⟩
            · rw [Machine.complete_cons_of_error (Machine.feed_of_hashed hfeed)] at hok
              cases hok
          · have hunlimited : gate.Unlimited := by
              refine hopen.resolve_left ?_
              rintro rfl
              obtain ⟨keyed, hmem⟩ := List.exists_mem_of_ne_nil seen hseen
              exact hlead (hw.uniform keyed hmem)
            obtain ⟨hmore, hstop⟩ := feed_other hw hseen hkey hlead outlet
            obtain ⟨hnever, hafter⟩ := Gate.emitAll_of_unlimited hunlimited h.groups.toList outlet
            rcases hemitted : gate.emitAll outlet h.groups.toList with ⟨outcome, after, delivered⟩
            rw [hemitted] at hmore hstop hnever hafter
            match outcome with
            | .ok .more =>
                rcases hmore rfl with ⟨next, hfeed, hnext⟩ | ⟨⟨e, next, hfeed⟩, -⟩
                · rw [Machine.complete_cons_of_more (Machine.feed_of_hashed hfeed)] at hok
                  obtain ⟨rest, all, hrest, hall⟩ := ih hnext (by simp) (.inr hafter) hok
                  have hother : KeyedRow.lead width (key, row) ≠ lead := hlead
                  refine ⟨(key, row) :: rest, h.groups.toList :: all,
                    AggregateNode.keyed_cons_eq_ok_iff.mpr ⟨key, rest, hkey, hrest, rfl⟩, ?_⟩
                  rw [runs_append_cons hseen hw.uniform hother, mapM_eq_ok_iff]
                  exact .cons hw.groups (mapM_eq_ok_iff.mp hall)
                · rw [Machine.complete_cons_of_error (Machine.feed_of_hashed hfeed)] at hok
                  cases hok
            | .ok .enough => exact absurd rfl hnever
            | .error e =>
                obtain ⟨next, hfeed, -⟩ := hstop (by simp)
                rw [Machine.complete_cons_of_error (Machine.feed_of_hashed hfeed)] at hok
                cases hok

/-! ## Whole drives -/

/-- A hashed aggregation that was started, at the first row. -/
def started (node : AggregateNode) (sorted : Nat) (window : Window) : Hashed :=
  { withRuns node sorted with gate := some (.new node.having window), phase := .running }

theorem init_of_window {node : AggregateNode} {params : List Value} {window : Window}
    (hwindow : WindowSpec.resolveOptional node.window params = .ok window) (sorted columns : Nat) :
    (withRuns node sorted).init params columns =
      (.ok (Row.nulls columns), started node sorted window) := by
  have hgate : node.gate params = .ok (.new node.having window) := by
    rw [AggregateNode.gate, hwindow]
    rfl
  simp only [init, withRuns, hgate, started]

theorem init_of_window_error {node : AggregateNode} {params : List Value} {e : EngineError}
    (hwindow : WindowSpec.resolveOptional node.window params = .error e) (sorted columns : Nat) :
    ((withRuns node sorted).init params columns).1 = .error e := by
  have hgate : node.gate params = .error e := by
    rw [AggregateNode.gate, hwindow]
    rfl
  simp only [init, withRuns, hgate]

theorem started_within (node : AggregateNode) (sorted : Nat) (window : Window) (lead : GroupKey) :
    Within node (min sorted node.groupBy.length) (started node sorted window)
      (.new node.having window) [] lead := by
  refine ⟨rfl, rfl, rfl, rfl, .inr (.inr ⟨rfl, rfl⟩), ⟨.nil, ?_⟩, ?_⟩
  · intro key slot
    simp [started, withRuns, keysOf]
  · intro keyed hmem
    cases hmem

/-- A drive that can be started is the completion of a started machine. -/
theorem drive_of_window {params : List Value} {window : Window}
    (hwindow : WindowSpec.resolveOptional node.window params = .ok window) (sorted columns : Nat)
    (rows : List Row) (outlet : Outlet) :
    (Machine.hashed (.withRuns node sorted)).drive params columns rows outlet =
      (Machine.hashed (started node sorted window)).complete rows outlet := by
  simp only [Machine.drive, Machine.init, init_of_window hwindow]

/-- **A drive over rows that can be grouped emits their groups**, as far as the gate lets it. -/
theorem drive_of_groups {params : List Value} {window : Window} {sorted : Nat} {rows : List Row}
    {groups : List Group}
    (hwindow : WindowSpec.resolveOptional node.window params = .ok window)
    (hgroups : node.groupsBy (min sorted node.groupBy.length) rows = .ok groups) (columns : Nat)
    (outlet : Outlet) :
    ((Machine.hashed (.withRuns node sorted)).drive params columns rows outlet).1 =
        (((Gate.new node.having window).emitAll outlet groups).1.map fun _ => ()) ∧
      ((Machine.hashed (.withRuns node sorted)).drive params columns rows outlet).2.2 =
        ((Gate.new node.having window).emitAll outlet groups).2.2 := by
  rw [drive_of_window hwindow]
  cases rows with
  | nil =>
      have hpending : (started node sorted window).pending = groups := by
        rw [AggregateNode.groupsBy_nil] at hgroups
        rw [← Except.ok.inj hgroups, pending, ensureGroup]
        simp only [started, withRuns, Array.isEmpty_empty, Bool.true_and]
        split_ifs <;> rfl
      have hgate : (started node sorted window).gate = some (.new node.having window) := rfl
      rw [← hpending]
      exact finish_of_gate rfl hgate outlet
  | cons row rows =>
      obtain ⟨keyed, all, hkeyed, hall, rfl⟩ := AggregateNode.groupsBy_cons_eq_ok_iff.mp hgroups
      obtain ⟨key, rest, hkey, hrest, rfl⟩ := AggregateNode.keyed_cons_eq_ok_iff.mp hkeyed
      have hwithin := started_within node sorted window (key.take (min sorted node.groupBy.length))
      rcases feed_same hwithin hkey rfl outlet with ⟨next, hfeed, hnext⟩ | ⟨-, hfails⟩
      · rw [Machine.complete_cons_of_more (Machine.feed_of_hashed hfeed)]
        exact complete_of_groups hnext (List.cons_ne_nil _ _) (Nat.min_le_right _ _) hrest hall outlet
      · exfalso
        obtain ⟨groups, hgroups⟩ := exists_groupsOf_singleton_of_runs hall
        exact hfails groups hgroups

/-- **The converse**: if the drive does not fail, and leaves out no row, the rows can be grouped. -/
theorem groups_of_drive {params : List Value} {sorted columns : Nat} {rows : List Row}
    {outlet : Outlet} (hopen : min sorted node.groupBy.length = 0 ∨ node.window = none)
    (hok : ((Machine.hashed (.withRuns node sorted)).drive params columns rows outlet).1 = .ok ()) :
    ∃ window groups, WindowSpec.resolveOptional node.window params = .ok window ∧
      node.groupsBy (min sorted node.groupBy.length) rows = .ok groups := by
  cases hwindow : WindowSpec.resolveOptional node.window params with
  | error e =>
      have hinit := init_of_window_error hwindow sorted columns
      rcases hstart : (withRuns node sorted).init params columns with ⟨outcome, next⟩
      rw [hstart] at hinit
      obtain rfl : outcome = .error e := hinit
      simp only [Machine.drive, Machine.init, hstart] at hok
      cases hok
  | ok window =>
      rw [drive_of_window hwindow] at hok
      cases rows with
      | nil =>
          exact ⟨window, _, rfl, AggregateNode.groupsBy_nil node _⟩
      | cons row rows =>
          have hopen' : min sorted node.groupBy.length = 0 ∨
              (Gate.new node.having window).Unlimited := by
            refine hopen.imp_right fun hnone => ?_
            rw [hnone] at hwindow
            rw [← Except.ok.inj hwindow]
            exact ⟨rfl, rfl⟩
          cases hkey : Expr.evalEach row node.groupBy with
          | error e =>
              have hphase : (started node sorted window).phase = .running := rfl
              have hfeed := feed_of_key_error hphase hkey outlet
              rw [Machine.complete_cons_of_error (Machine.feed_of_hashed hfeed)] at hok
              cases hok
          | ok key =>
              have hwithin :=
                started_within node sorted window (key.take (min sorted node.groupBy.length))
              rcases feed_same hwithin hkey rfl outlet with
                ⟨next, hfeed, hnext⟩ | ⟨⟨e, next, hfeed⟩, -⟩
              · rw [Machine.complete_cons_of_more (Machine.feed_of_hashed hfeed)] at hok
                obtain ⟨rest, all, hrest, hall⟩ :=
                  groups_of_complete hnext (List.cons_ne_nil _ _) hopen' hok
                refine ⟨window, all.flatten, rfl, AggregateNode.groupsBy_cons_eq_ok_iff.mpr ?_⟩
                exact ⟨(key, row) :: rest, all,
                  AggregateNode.keyed_cons_eq_ok_iff.mpr ⟨key, rest, hkey, hrest, rfl⟩, hall, rfl⟩
              · rw [Machine.complete_cons_of_error (Machine.feed_of_hashed hfeed)] at hok
                cases hok

end Hashed

end GraphScan
