import GraphScan.Proofs.Aggregate.Defenses
import GraphScan.Proofs.Scan.Failure
import GraphScan.Proofs.Scan.Renewal

/-!
# Defensive checks of an execution

What the check of a plan has established is checked again in many places when the scan is executed.
None of these checks ever fails: not for a plan that is ill typed, not while others hold the tables, and
not after executions that have failed.

* `Scan.prepare_spared`, `Scan.spared_of_rowFault`, `Scan.spared_of_failure` — the places where an
  execution can fail, each with its own reason why no defensive check fails there.
* `Scan.execute_never_defensive` — **no execution of an accepted plan fails at a defensive check**.
-/

namespace GraphScan

/-! ## Images -/

theorem Graph.vertexOf_spared (graph : Graph) (row : Row) : Spared (graph.vertexOf row) := by
  rw [vertexOf]
  split
  · split <;> trivial
  · rfl

/-- The image of a row needs no scratch row. -/
theorem ScanNode.image_spared (node : ScanNode) (row : Row) : Spared (node.image row) := by
  rw [image]
  split
  · exact (Graph.vertexOf_spared _ row).bind fun _ =>
      (Expr.evalEach_spared row _).bind fun _ => trivial
  · trivial

namespace SharedTable

theorem read_spared (shared : SharedTable) : Spared shared.read := by
  rw [read]
  cases shared.hold <;> trivial

theorem write_spared (shared : SharedTable) : Spared shared.write := by
  rw [write]
  cases shared.hold <;> trivial

end SharedTable

namespace Scan

variable {node : ScanNode} {scan : Scan} {store : Store} {params : List Value} {outlet : Outlet}
  {window : Window} {seen : List Row} {row : Row} {e : EngineError}

/-! ## The preparation -/

theorem sourceName_spared (scan : Scan) (store : Store) : Spared (scan.sourceName store) := by
  rw [sourceName]
  cases scan.node.graph with
  | some graph => trivial
  | none => exact (store.get scan.source).read_spared.map Table.name

theorem start_spared (scan : Scan) (params : List Value) (source output : SharedTable) :
    Spared (scan.start params source output).1 := by
  rw [start]
  cases scan.machine with
  | none => exact output.read_spared.map Table.scratch
  | some machine =>
      dsimp only
      cases scan.node.projection with
      | some projection => exact machine.init_spared params projection.width
      | none =>
          have hread := source.read_spared
          dsimp only
          cases hsource : source.read with
          | error e => exact hread.of_error hsource
          | ok table => exact machine.init_spared params table.schema.width

/-- **A projection has a graph for its degrees**: the check of the plan has seen to that. -/
theorem route_spared (hcheck : scan.node.checkProjection = .ok ()) (scratch : Row) :
    Spared (scan.route scratch) := by
  rw [route]
  cases hprojection : scan.node.projection with
  | none => trivial
  | some projection =>
      dsimp only
      split_ifs
      · rfl
      · cases hgraph : scan.node.graph with
        | some graph => trivial
        | none =>
            simp only [ScanNode.checkProjection, hprojection, hgraph] at hcheck
            split_ifs at hcheck with hwidth hnone
            exact absurd rfl hnone

/-- **A scan with stages has an output of its own**, so that the preparation does not fail there. -/
theorem prepare_spared (h : InUse scan.node scan store) (hstages : scan.node.isPassThrough = false)
    (params : List Value) (source : SharedTable) (outlet : Outlet) :
    Spared (scan.prepare params source outlet).1 := by
  have hwindow := WindowSpec.resolveOptional_spared scan.node.window params
  have hstart := scan.start_spared params source outlet.shared
  simp only [prepare, h.writable hstages]
  cases hout : WindowSpec.resolveOptional scan.node.window params with
  | error e => exact hwindow.of_error hout
  | ok window =>
      dsimp only [bind, Except.bind]
      rcases hscratch : scan.start params source outlet.shared with ⟨_ | scratch, machine⟩ <;>
        rw [hscratch] at hstart
      · exact hstart
      · exact (route_spared h.projection_ok scratch).bind fun _ =>
          source.write_spared.bind fun _ => trivial

/-! ## Rows, and the end -/

/-- A row fails at no defensive check, provided that its image is refused at none. -/
theorem spared_of_rowFault {refused : Row → Prop}
    (hfault : RowFault scan.node window seen row refused e)
    (hrefused : ∀ image, refused image → e.isDefensive = false) : e.isDefensive = false := by
  cases hfault with
  | predicate _ herror => exact (Expr.eval_spared row _).of_error herror
  | image _ herror => exact (scan.node.image_spared row).of_error herror
  | delivery _ _ hno => exact hrefused _ hno

/-- **Wherever an execution fails**, it is not at a defensive check. -/
theorem spared_of_failure {traced : Bool} {taken : Nat} {sink : Option Machine × SharedTable}
    (h : InUse scan.node scan store) (hstages : scan.node.isPassThrough = false)
    (hfailure : Failure scan params store outlet traced e taken sink) : e.isDefensive = false := by
  cases hfailure with
  | early hearly =>
      rcases hearly with hname | hprepare
      · exact (scan.sourceName_spared store).of_error hname
      · exact (prepare_spared h hstages params _ outlet).of_error hprepare
  | inserting hprepared hrows hselects hfault =>
      exact spared_of_rowFault hfault fun image hrefused =>
        (SharedTable.insert_spared _ image).of_error hrefused
  | feeding hprepared hrows hselects hmore hfault hfed =>
      refine spared_of_rowFault hfault fun image hrefused => ?_
      -- The image that is refused is the last one of a completion.
      obtain ⟨idle, hidle, rfl⟩ := Option.map_eq_some_iff.mp hprepared.machine_eq.symm
      obtain ⟨scratch, hinit⟩ := hprepared.started idle hidle
      exact (Machine.complete_spared hinit _ outlet).of_error
        (Machine.complete_concat_of_error hmore hrefused)
  | finishing hprepared hrows hselects hfed hend herror =>
      obtain ⟨idle, hidle, rfl⟩ := Option.map_eq_some_iff.mp hprepared.machine_eq.symm
      obtain ⟨scratch, hinit⟩ := hprepared.started idle hidle
      exact (Machine.complete_spared hinit _ outlet).of_error herror
  | tracing htraced hprepared hrows hselects hfed hend hdone hwriter herror =>
      exact (SharedTable.read_spared _).of_error herror

/-! ## Executions -/

/-- **An execution of a scan in use** fails at no defensive check. -/
theorem InUse.execute_spared (h : InUse node scan store) (context : Context)
    (params : List Value) : Spared (scan.execute context params store).outcome := by
  obtain rfl := h.node_eq
  have hcourse := scan.execute_course context params store
  generalize scan.execute context params store = execution at hcourse
  cases hcourse with
  | unnamed hname => exact (scan.sourceName_spared store).of_error hname
  | empty | handed => trivial
  | @ran name result hname hfull hstages hrun =>
      refine Spared.map ?_ _
      subst hrun
      cases hout : RunResult.outcome _ with
      | ok counts => trivial
      | error e =>
          obtain ⟨taken, hfailure, -⟩ :=
            run_fails (scan.outlet context store) h.projection_ok hname rfl hout
          exact spared_of_failure h hstages hfailure

/-- **The check of a plan makes the defensive checks of its executions idle.**  Take a scan with any
past: its plan was accepted, well typed or not, and since then there have been any executions, failed
or not, while others changed and held the tables as they pleased.  Then no execution fails with an
error that carries a defect of the plan, or because the output must not be written, a cell of the
scratch row cannot be written, the aggregation has not been started, has been ended or has nowhere to
write to, or a group is lost. -/
theorem execute_never_defensive (h : Past node scan store) (context : Context)
    (params : List Value) (herror : (scan.execute context params store).outcome = .error e) :
    e.report.defect = none ∧ e ≠ .aliasedOutput ∧ (∀ index width, e ≠ .cellOutOfRange index width) ∧
      (∀ call, e ≠ .aggregateNotStarted call) ∧ (∀ call, e ≠ .aggregateFinished call) ∧
      (∀ strategy, e ≠ .aggregateUnbound strategy) ∧ (∀ slot, e ≠ .groupSlotLost slot) ∧
      ∀ report, e ≠ .reported report := by
  have hspared : e.isDefensive = false := (h.inUse.execute_spared context params).of_error herror
  refine ⟨EngineError.defect_eq_none hspared, ?_, ?_, ?_, ?_, ?_, ?_, ?_⟩
  · rintro rfl
    cases hspared
  · rintro index width rfl
    cases hspared
  all_goals
    rintro _ rfl
    cases hspared

/-! ### An example: a count that was given up, and a source that is held -/

/-- The count fails at the third id and is given up.  While somebody reads the source the next execution
fails as well, but not because of the count. -/
theorem execute_never_defensive_countQuotients :
    let call (scan : Scan) (store : Store) :=
      scan.execute ⟨0, default, none, false, false⟩ [.int 1] store
    let failed := call countQuotientsScan.1 countQuotientsScan.2
    let held := failed.store.set 0 ⟨(failed.store.get 0).table, .readers⟩
    let again := call failed.scan held
    failed.outcome = .error .divisionByZero ∧ EngineError.divisionByZero.report.defect = none ∧
      again.outcome = .error .tableHeld ∧ EngineError.tableHeld.report.defect = none := by
  intro call failed held again
  have hinit : Scan.init (.scan countQuotients) peopleStore = .ok countQuotientsScan := rfl
  have hpast : Past countQuotients countQuotientsScan.1 countQuotientsScan.2 :=
    .accepted hinit (by decide)
  have hheld : Past countQuotients failed.scan held := (hpast.executed _ _).others (.set rfl rfl)
  have hfailed : failed.outcome = .error .divisionByZero := by
    simp only [failed, call]
    cbv
  have hagain : again.outcome = .error .tableHeld := by
    simp only [again, held, failed, call]
    cbv
  exact ⟨hfailed, (execute_never_defensive hpast _ _ hfailed).1, hagain,
    (execute_never_defensive hheld _ _ hagain).1⟩

end Scan

end GraphScan
