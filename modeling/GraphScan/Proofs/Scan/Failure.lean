import GraphScan.Proofs.Scan.Ending

/-!
# What a failed execution leaves behind

Rows are taken from the source for good, and the output grows while they are.  An execution that
fails leaves both where they were when it failed, and this file says where that is.

* `Scan.FailsEarly` — a failure before the first row.
* `Scan.RowFault` — why a row fails.
* `Scan.Failure` — **where an execution fails**, how many rows it has taken by then, and what has
  become of its aggregation and its output.
* `Scan.execute_fails` — every execution that fails does so in one of these places.
-/

namespace GraphScan

namespace Scan

variable {node : ScanNode} {scan : Scan} {store : Store} {params : List Value}
  {source : SharedTable} {outlet hand : Outlet} {window : Window} {route : Route}
  {machine : Machine} {traced : Bool} {e : EngineError} {seen images : List Row} {row : Row}

/-- **Whether an execution fails before the first row**: because its source has no name, or in the
preparation. -/
def FailsEarly (scan : Scan) (params : List Value) (store : Store) (outlet : Outlet)
    (e : EngineError) : Prop :=
  scan.sourceName store = .error e ∨
    (scan.prepare params (store.get scan.source) outlet).1 = .error e

/-- **Why a row fails** that comes behind the rows `seen`: for its predicate or, if it is selected,
because it has no image or its image is refused. -/
inductive RowFault (node : ScanNode) (window : Window) (seen : List Row) (row : Row)
    (refused : Row → Prop) (e : EngineError) : Prop where
  | predicate {predicate : Expr} (hpredicate : predicate ∈ node.predicate)
      (herror : predicate.eval row = .error e)
  | image (hselected : window.cut ((seen ++ [row]).filter (admits node.predicate)) =
        window.cut (seen.filter (admits node.predicate)) ++ [row])
      (herror : node.image row = .error e)
  | delivery {image : Row}
      (hselected : window.cut ((seen ++ [row]).filter (admits node.predicate)) =
        window.cut (seen.filter (admits node.predicate)) ++ [row])
      (himage : node.image row = .ok image) (hrefused : refused image)

/-- **Where an execution fails**, with the number of rows that it has taken from the source, and the
aggregation and the output that it leaves.  It also depends on whether the log takes traces. -/
inductive Failure (scan : Scan) (params : List Value) (store : Store) (outlet : Outlet)
    (traced : Bool) (e : EngineError) : Nat → Option Machine × SharedTable → Prop where
  /-- Before the first row. -/
  | early {machine : Option Machine} (hearly : scan.FailsEarly params store outlet e) :
      Failure scan params store outlet traced e 0 (machine, outlet.shared)
  /-- At a row, without an aggregation.  The images of the rows selected before it have been
  inserted, and nothing of this row. -/
  | inserting {window : Window} {route : Route} {seen rest images : List Row} {row : Row}
      (hprepared : Prepared scan params (store.get scan.source) window route none)
      (hrows : (store.get scan.source).table.rows.toList = seen ++ row :: rest)
      (hselects : scan.node.Selects window seen images)
      (hfault : RowFault scan.node window seen row
        (fun image => ((outlet.shared.appendAll images).insert image).1 = .error e) e) :
      Failure scan params store outlet traced e (seen.length + 1)
        (none, outlet.shared.appendAll images)
  /-- At a row, with an aggregation, which has been fed the rows selected up to this one and has not
  been ended. -/
  | feeding {window : Window} {route : Route} {machine : Machine}
      {seen rest images fed : List Row} {row : Row}
      (hprepared : Prepared scan params (store.get scan.source) window route (some machine))
      (hrows : (store.get scan.source).table.rows.toList = seen ++ row :: rest)
      (hselects : scan.node.Selects window seen images)
      (hmore : (machine.feedAll images outlet).outcome = .ok .more)
      (hfault : RowFault scan.node window seen row (fun image =>
        ((machine.feedAll images outlet).state.1.feed image
          (machine.feedAll images outlet).state.2).1 = .error e) e)
      (hfed : fed = selectedImages scan.node.predicate window scan.node.image (seen ++ [row])) :
      Failure scan params store outlet traced e (seen.length + 1)
        (some (machine.feedAll fed outlet).state.1, (machine.feedAll fed outlet).state.2.shared)
  /-- At the end of the aggregation.  The loop has ended because there were no more rows, the
  aggregation had enough, or the window was used up. -/
  | finishing {window : Window} {route : Route} {machine : Machine} {seen rest images : List Row}
      {demand : Demand}
      (hprepared : Prepared scan params (store.get scan.source) window route (some machine))
      (hrows : (store.get scan.source).table.rows.toList = seen ++ rest)
      (hselects : scan.node.Selects window seen images)
      (hfed : (machine.feedAll images outlet).outcome = .ok demand)
      (hend : rest = [] ∨ demand = .enough ∨
        (window.after (seen.filter (admits scan.node.predicate)).length).isOpen = false)
      (herror : (machine.complete images outlet).1 = .error e) :
      Failure scan params store outlet traced e seen.length
        (some (machine.complete images outlet).2.1, (machine.complete images outlet).2.2.shared)
  /-- Behind the end of the aggregation, which has succeeded.  The log takes traces, and the output
  cannot be looked at because somebody is writing to it. -/
  | tracing {window : Window} {route : Route} {machine : Machine} {seen rest images : List Row}
      {demand : Demand} (htraced : traced = true)
      (hprepared : Prepared scan params (store.get scan.source) window route (some machine))
      (hrows : (store.get scan.source).table.rows.toList = seen ++ rest)
      (hselects : scan.node.Selects window seen images)
      (hfed : (machine.feedAll images outlet).outcome = .ok demand)
      (hend : rest = [] ∨ demand = .enough ∨
        (window.after (seen.filter (admits scan.node.predicate)).length).isOpen = false)
      (hdone : (machine.complete images outlet).1 = .ok ())
      (hwriter : outlet.shared.hold = .writer)
      (herror : (machine.complete images outlet).2.2.shared.read = .error e) :
      Failure scan params store outlet traced e seen.length
        (some (machine.complete images outlet).2.1, (machine.complete images outlet).2.2.shared)

/-! ## From the loop to the rows of the source -/

/-- What a run has selected is what the plan selects. -/
theorem selects_of_reached {machine : Option Machine} {now : Run}
    (hprepared : Prepared scan params source window route machine)
    (h : Run.Reached (scan.begin window machine outlet) route seen images now) :
    scan.node.Selects window seen images := by
  have himages := h.image_eq
  rw [predicate_begin, window_begin] at himages
  constructor
  · intro row hrow
    exact h.settled row (List.mem_of_mem_take hrow)
  · exact himages.imp fun row image himage => (hprepared.image_eq row).symm.trans himage

/-- Why a row fails, in terms of the plan. -/
theorem rowFault_of_cause {machine : Option Machine} {refused : Row → Prop}
    {sink : Option Machine × SharedTable}
    (hprepared : Prepared scan params source window route machine)
    (h : Run.Cause (scan.begin window machine outlet) route seen images row e sink)
    (hrefused : ∀ image,
      ((feedAll Run.deliver (scan.begin window machine outlet) images).state.deliver image).1 =
        .error e → refused image) :
    RowFault scan.node window seen row refused e := by
  cases h with
  | predicate hpredicate herror => exact .predicate hpredicate herror
  | image hselected herror =>
      rw [predicate_begin, window_begin] at hselected
      exact .image hselected ((hprepared.image_eq row).symm.trans herror)
  | delivery hselected himage herror =>
      rw [predicate_begin, window_begin] at hselected
      exact .delivery hselected ((hprepared.image_eq row).symm.trans himage) (hrefused _ herror)

/-- Without an aggregation, images that are all accepted stand behind the rows of the output. -/
theorem deliveries_of_none {demand : Demand}
    (hok : (feedAll Run.deliver (scan.begin window none outlet) images).outcome = .ok demand) :
    (feedAll Run.deliver (scan.begin window none outlet) images).outcome = .ok .more ∧
      (feedAll Run.deliver (scan.begin window none outlet) images).fed = images.length ∧
      (feedAll Run.deliver (scan.begin window none outlet) images).state.sink =
        (none, outlet.shared.appendAll images) :=
  Run.feedAll_deliver_of_ok rfl hok

/-- Without an aggregation, a row that fails leaves the images of the rows before it in the output. -/
theorem sink_of_cause {sink : Option Machine × SharedTable}
    (hmore : (feedAll Run.deliver (scan.begin window none outlet) images).outcome = .ok .more)
    (h : Run.Cause (scan.begin window none outlet) route seen images row e sink) :
    sink = (none, outlet.shared.appendAll images) := by
  obtain ⟨-, -, hsink⟩ := deliveries_of_none hmore
  cases h with
  | predicate => exact hsink
  | image => exact hsink
  | delivery _ _ herror =>
      obtain ⟨-, hkept⟩ := Run.deliver_error_of_none (congrArg Prod.fst hsink) herror
      rw [hkept, hsink]

/-- A run without an aggregation that fails at a row. -/
theorem failure_of_inserting {rest : List Row} {final : Run}
    (hprepared : Prepared scan params (store.get scan.source) window route none)
    (hrows : (store.get scan.source).table.rows.toList = seen ++ row :: rest)
    (hshared : outlet.shared = hand.shared)
    (hfailed : Run.Failed (scan.begin window none outlet) route seen images row e final) :
    Failure scan params store hand traced e (seen.length + 1) final.sink := by
  obtain ⟨⟨now, hreached, hopen⟩, -, hcause⟩ := hfailed
  obtain ⟨-, hmore⟩ := hreached.wants_more hopen
  obtain ⟨-, -, hsink⟩ := deliveries_of_none hmore
  rw [sink_of_cause hmore hcause, hshared]
  refine .inserting hprepared hrows (selects_of_reached hprepared hreached)
    (rowFault_of_cause hprepared hcause fun image herror => ?_)
  obtain ⟨hrefused, -⟩ := Run.deliver_error_of_none (congrArg Prod.fst hsink) herror
  rwa [show Outlet.shared _ = outlet.shared.appendAll images from congrArg Prod.snd hsink,
    hshared] at hrefused

/-- A run with an aggregation that fails at a row. -/
theorem failure_of_feeding {rest : List Row} {final : Run}
    (hprepared : Prepared scan params (store.get scan.source) window route (some machine))
    (hrows : (store.get scan.source).table.rows.toList = seen ++ row :: rest)
    (hshared : outlet.shared = hand.shared)
    (hfailed : Run.Failed (scan.begin window (some machine) outlet) route seen images row e final) :
    Failure scan params store hand traced e (seen.length + 1) final.sink := by
  obtain ⟨hsink, -⟩ := hfailed.deliveries_eq
  obtain ⟨⟨now, hreached, hopen⟩, -, hcause⟩ := hfailed
  obtain ⟨-, hmore⟩ := hreached.wants_more hopen
  have hbegin : (scan.begin window (some machine) outlet).sink = (some machine, hand.shared) :=
    congrArg (Prod.mk _) hshared
  obtain ⟨hout, -, hstate⟩ := Run.feedAll_deliver_of_machine hbegin images
  rw [hsink, Run.deliveries, (Run.feedAll_deliver_of_machine hbegin _).2.2, predicate_begin,
    window_begin, funext hprepared.image_eq]
  refine .feeding hprepared hrows (selects_of_reached hprepared hreached) (hout ▸ hmore)
    (rowFault_of_cause hprepared hcause fun image herror => ?_) rfl
  rwa [← (Run.deliver_of_machine hstate image).1]

/-- What a run with an aggregation has come to when its loop has ended: the aggregation has been fed
the images of the selected rows, and its end is all that is left. -/
theorem complete_of_finish {rest : List Row} {outcome : Except EngineError Unit} {now final : Run}
    (hshared : outlet.shared = hand.shared)
    (hreached : Run.Reached (scan.begin window (some machine) outlet) route seen images now)
    (hend : rest = [] ∨ now.gate.isOpen = false) (hfinish : now.finish = (outcome, final)) :
    ∃ demand, (machine.feedAll images hand).outcome = .ok demand ∧
      (rest = [] ∨ demand = .enough ∨
        (window.after (seen.filter (admits scan.node.predicate)).length).isOpen = false) ∧
      (machine.complete images hand).1 = outcome ∧
      final.sink =
        (some (machine.complete images hand).2.1, (machine.complete images hand).2.2.shared) := by
  have hbegin : (scan.begin window (some machine) outlet).sink = (some machine, hand.shared) :=
    congrArg (Prod.mk _) hshared
  obtain ⟨hout, -, hstate⟩ := Run.feedAll_deliver_of_machine hbegin images
  obtain ⟨hdone, hleft⟩ := Run.finish_of_machine (hreached.sink_eq.trans hstate)
  have hfed : (machine.feedAll images hand).outcome = _ := hout.symm.trans hreached.accepted
  have hcomplete : machine.complete images hand =
      (machine.feedAll images hand).state.1.finish (machine.feedAll images hand).state.2 := by
    simp only [Machine.complete, hfed]
  rw [hfinish, ← hcomplete] at hdone hleft
  refine ⟨_, hfed, ?_, hdone.symm, hleft⟩
  refine hend.imp_right fun hclosed => ?_
  rw [Gate.isOpen_eq, hreached.window_eq, predicate_begin, window_begin] at hclosed
  cases hgate : now.gate.closed with
  | true => exact .inl rfl
  | false => exact .inr (by simpa [hgate] using hclosed)

/-- A run that fails when it ends its aggregation. -/
theorem failure_of_finishing {started : Option Machine} {rest : List Row} {now final : Run}
    (hprepared : Prepared scan params (store.get scan.source) window route started)
    (hrows : (store.get scan.source).table.rows.toList = seen ++ rest)
    (hshared : outlet.shared = hand.shared)
    (hreached : Run.Reached (scan.begin window started outlet) route seen images now)
    (hend : rest = [] ∨ now.gate.isOpen = false) (hfinish : now.finish = (.error e, final)) :
    Failure scan params store hand traced e seen.length final.sink := by
  cases started with
  | none =>
      -- Without an aggregation there is no end that could fail.
      obtain ⟨-, -, hsink⟩ := deliveries_of_none hreached.accepted
      have hnone : now.machine = none := congrArg Prod.fst (hreached.sink_eq.trans hsink)
      simp [Run.finish, hnone] at hfinish
  | some machine =>
      obtain ⟨demand, hfed, hend, hdone, hsink⟩ := complete_of_finish hshared hreached hend hfinish
      rw [hsink]
      exact .finishing hprepared hrows (selects_of_reached hprepared hreached) hfed hend hdone

/-- A run that succeeds, but whose output cannot be looked at for the log. -/
theorem failure_of_tracing {started : Option Machine} {rest : List Row} {now final : Run}
    (hprepare : scan.prepare params (store.get scan.source) outlet =
      (.ok (window, route, (store.get scan.source).table), started))
    (hprepared : Prepared scan params (store.get scan.source) window route started)
    (hrows : (store.get scan.source).table.rows.toList = seen ++ rest)
    (hshared : outlet.shared = hand.shared)
    (hreached : Run.Reached (scan.begin window started outlet) route seen images now)
    (hend : rest = [] ∨ now.gate.isOpen = false) (hfinish : now.finish = (.ok (), final))
    (hwriter : outlet.shared.hold = .writer) (htraced : traced = true)
    (hread : final.outlet.shared.read = .error e) :
    Failure scan params store hand traced e seen.length final.sink := by
  cases started with
  | none =>
      have hnone : scan.machine = none := Option.map_eq_none_iff.mp hprepared.machine_eq.symm
      exact absurd hwriter (readable_of_prepare hnone hprepare)
  | some machine =>
      obtain ⟨demand, hfed, hend, hdone, hsink⟩ := complete_of_finish hshared hreached hend hfinish
      have hfinal : final.outlet.shared = (machine.complete images hand).2.2.shared :=
        congrArg Prod.snd hsink
      rw [hsink]
      exact .tracing htraced hprepared hrows (selects_of_reached hprepared hreached) hfed hend hdone
        (hshared ▸ hwriter) (hfinal ▸ hread)

/-! ## Executions that fail -/

/-- The preparation looks at the output table, not at the meter. -/
theorem prepare_congr (hshared : outlet.shared = hand.shared) :
    scan.prepare params source outlet = scan.prepare params source hand := by
  rw [prepare, prepare, hshared]

/-- **A run that fails**, or whose output cannot be looked at for the log, does so in one of the
places, and the source has lost the rows taken. -/
theorem run_fails {name : String} (hand : Outlet) (hcheck : scan.node.checkProjection = .ok ())
    (hname : scan.sourceName store = .ok name) (hshared : outlet.shared = hand.shared)
    (herror : ((scan.run params (store.get scan.source) outlet).logged traced).outcome = .error e) :
    let source := store.get scan.source
    let rows := source.table.rows.toList
    let result := scan.run params source outlet
    ∃ taken, Failure scan params store hand traced e taken (result.machine, result.outlet.shared) ∧
      taken ≤ rows.length ∧
      result.source = { source with table := source.table.withRows (rows.drop taken) } ∧
      (scan.FailsEarly params store hand e →
        result.source = source ∧ result.outlet.shared = hand.shared) := by
  intro source rows result
  have hends : Ending scan params source outlet result := run_ends hcheck params source outlet
  have hhold : result.outlet.shared.hold = outlet.shared.hold := hold_run ..
  have hprepares : scan.prepare params source hand = scan.prepare params source outlet :=
    (prepare_congr hshared).symm
  have hlate : ∀ settled, (scan.prepare params source outlet).1 = .ok settled →
      ¬ scan.FailsEarly params store hand e := by
    intro settled hok hearly
    rcases hearly with hnone | hfails
    · rw [hname] at hnone
      cases hnone
    · rw [show scan.prepare params (store.get scan.source) hand = _ from hprepares, hok] at hfails
      cases hfails
  have hlogged : (result.logged traced).outcome = .error e := herror
  replace herror := error_of_logged hlogged
  clear_value result
  cases hends with
  | unprepared hprepare =>
      obtain rfl : _ = e := by simpa using herror
      refine ⟨0, ?_, Nat.zero_le _, rfl, fun _ => ⟨rfl, hshared⟩⟩
      rw [hshared]
      exact .early (.inr (congrArg Prod.fst (hprepares.trans hprepare)))
  | @failed window route machine seen rest images row _ final hprepare hrows hloop hfailed =>
      obtain rfl : _ = e := by simpa using herror
      obtain ⟨-, hprepared⟩ := prepared_of_prepare hcheck hprepare
      refine ⟨seen.length + 1, ?_, ?_, ?_, fun hearly => ?_⟩
      · cases machine with
        | none => exact failure_of_inserting hprepared hrows hshared hfailed
        | some machine => exact failure_of_feeding hprepared hrows hshared hfailed
      · simp [rows, hrows]
      · simp [rows, hrows, List.drop_append, List.drop_eq_nil_of_le]
      · exact absurd hearly (hlate _ (congrArg Prod.fst hprepare))
  | @unfinished window route machine seen rest images _ now final hprepare hrows hloop hreached hend
      hfinish =>
      obtain rfl : _ = e := by simpa using herror
      obtain ⟨-, hprepared⟩ := prepared_of_prepare hcheck hprepare
      refine ⟨seen.length, ?_, ?_, ?_, fun hearly => ?_⟩
      · exact failure_of_finishing hprepared hrows hshared hreached hend hfinish
      · simp [rows, hrows]
      · simp [rows, hrows]
      · exact absurd hearly (hlate _ (congrArg Prod.fst hprepare))
  | @finished window route machine seen rest images now final hprepare hrows hloop hreached hend
      hfinish =>
      obtain ⟨htraced, -, hread⟩ := herror.resolve_left (by simp)
      obtain ⟨-, hprepared⟩ := prepared_of_prepare hcheck hprepare
      have hwriter : outlet.shared.hold = .writer := by
        by_contra hne
        rw [read_eq_ok_iff.mpr ⟨hhold ▸ hne, rfl⟩] at hread
        cases hread
      refine ⟨seen.length, ?_, ?_, ?_, fun hearly => ?_⟩
      · exact failure_of_tracing hprepare hprepared hrows hshared hreached hend hfinish hwriter htraced
          hread
      · simp [rows, hrows]
      · simp [rows, hrows]
      · exact absurd hearly (hlate _ (congrArg Prod.fst hprepare))

/-- **What a failed execution leaves behind.**  Take a scan in use that is not marked empty and has a
stage, with whatever holds on its tables, and an execution that fails.  It has failed in one of the
places of `Failure`, for some number of rows.  These rows, the first ones, are gone from the source
and the others are still there; output and aggregation are as the failure left them, and the output
has only gained whole rows.  No other table has changed and, if it failed before the first row, none
has changed at all. -/
theorem execute_fails (context : Context) (h : InUse node scan store)
    (hfull : node.emptyScan = false) (hstages : node.isPassThrough = false) (meter : Meter)
    (herror : (scan.execute context params store).outcome = .error e) :
    let source := store.get scan.source
    let rows := source.table.rows.toList
    let outlet : Outlet := ⟨store.get scan.output.table, meter⟩
    let execution := scan.execute context params store
    ∃ taken machine output,
      Failure scan params store outlet context.traced e taken (machine, output) ∧
      taken ≤ rows.length ∧ (∃ gained, output = outlet.shared.appendAll gained) ∧
      execution.store.get scan.source =
        { source with table := source.table.withRows (rows.drop taken) } ∧
      execution.store.get scan.output.table = output ∧
      execution.scan = { scan with machine } ∧
      (∀ id, id ≠ scan.source → id ≠ scan.output.table → execution.store.get id = store.get id) ∧
      (scan.FailsEarly params store outlet e → execution.store = store) := by
  obtain rfl := h.node_eq
  intro source rows outlet execution
  obtain ⟨hsource, houtput, hne⟩ := h.tables hstages
  cases hname : scan.sourceName store with
  | error e' =>
      have hnothing := execute_of_name_error context params hname
      obtain rfl : e' = e := by
        rw [hnothing] at herror
        exact Except.error.inj herror
      have hstore : execution.store = store := congrArg Execution.store hnothing
      rw [hstore]
      have hscan : execution.scan = scan := congrArg Execution.scan hnothing
      exact ⟨0, scan.machine, outlet.shared, .early (.inl hname), Nat.zero_le _, ⟨[], rfl⟩, rfl, rfl,
        hscan, fun _ _ _ => rfl, fun _ => rfl⟩
  | ok name =>
      obtain ⟨-, hscan, hstore, -⟩ := execute_of_stages context params hname hfull hstages
      have hfails : ((scan.run params source (scan.outlet context store)).logged
          context.traced).outcome = .error e := error_of_execute hname hfull hstages herror
      have hgained := (run_ends h.projection_ok params source (scan.outlet context store)).keeps.1
      obtain ⟨taken, hfailure, htaken, hleft, hearly⟩ :=
        run_fails outlet h.projection_ok hname
          (show (scan.outlet context store).shared = outlet.shared from rfl) hfails
      refine ⟨taken, _, _, hfailure, htaken, hgained, ?_, ?_, hscan, ?_, ?_⟩
      · show execution.store.get scan.source = _
        rw [hstore, get_source_writeBack hsource hne, hleft]
      · rw [hstore, get_output_writeBack houtput]
      · intro id hidSource hidOutput
        rw [hstore, get_writeBack_of_ne hidSource hidOutput]
      · intro hfirst
        obtain ⟨hsame, hkept⟩ := hearly hfirst
        rw [hstore, writeBack, hsame, hkept, Store.set_get, Store.set_get]

/-! ### An example: a quotient that does not exist -/

/-- The ids `n` for which `6 / (n - 3)` is negative. -/
def negativeQuotient : ScanNode :=
  ⟨0, some people, [], false, false,
    some (.compare .lt (.arith .div (.constant (.int 6))
      (.arith .sub (.column 0) (.constant (.int 3)))) (.constant (.int 0))),
    none, none, none, idSchema⟩

/-- The scan of these ids, and the store with its output. -/
def negativeQuotientScan : Scan × Store :=
  (⟨negativeQuotient, 0, .owned 1, none⟩, (peopleStore.add (.empty "people_vertexes" idSchema)).2)

/-- The third row fails.  It is gone, the fourth is not, and the output has the first two. -/
theorem execute_fails_negativeQuotient :
    let scan := negativeQuotientScan.1
    let store := negativeQuotientScan.2
    let execution := scan.execute ⟨0, default, none, false, false⟩ [] store
    execution.outcome = .error .divisionByZero ∧
      (execution.store.get 0).table.rows.toList = [[.int 4]] ∧
      (execution.store.get 1).table.rows.toList = [[.int 1], [.int 2]] ∧
      ∃ taken sink, Failure scan [] store ⟨store.get 1, default⟩ false .divisionByZero taken sink ∧
        (execution.store.get 0).table.rows.toList =
          ([[.int 1], [.int 2], [.int 3], [.int 4]] : List Row).drop taken ∧
        execution.store.get 1 = sink.2 := by
  intro scan store execution
  have hinit : Scan.init (.scan negativeQuotient) peopleStore = .ok (scan, store) := rfl
  have herror : execution.outcome = .error .divisionByZero := rfl
  have huse : InUse negativeQuotient scan store := inUse_of_init hinit (by decide)
  obtain ⟨taken, machine, output, hfailure, -, -, hsource, houtput, -⟩ :=
    execute_fails ⟨0, default, none, false, false⟩ huse rfl rfl default herror
  refine ⟨herror, rfl, rfl, taken, (machine, output), hfailure, ?_, houtput⟩
  rw [show execution.store.get 0 = _ from hsource]
  exact Table.toList_rows_withRows _ _

/-- A count of the people that is never delivered. -/
def silentCount : AggregateNode :=
  ⟨.serial, [], [⟨.countStar, none⟩], some (.constant (.bool false)), none, ⟨[⟨"n", .int⟩]⟩⟩

/-- As nothing is delivered, nobody minds that the output is being written to, except the log. -/
example (traced : Bool) :
    let node : ScanNode :=
      ⟨0, some people, [], false, false, none, none, none, some silentCount, silentCount.schema⟩
    let store : Store := ⟨peopleStore.tables.push ⟨.empty "counts" silentCount.schema, .writer⟩⟩
    (Scan.execute ⟨node, 0, .owned 1, some (.ofNode silentCount)⟩ ⟨0, default, none, false, traced⟩ []
        store).outcome =
      if traced then .error .tableHeldExclusively else .ok ⟨.scanned, ⟨4, 4⟩⟩ := by
  cases traced <;> rfl

end Scan

end GraphScan
