import GraphScan.Proofs.Scan.Failure

/-!
# What the closing event says

An execution that has announced itself closes with an event that carries two counts.  The first one
is always the number of rows that are gone from the source.  The second one is the number of rows
that were delivered, with one exception: where the end of the aggregation fails, the last row taken
is not yet counted.

* `Scan.delivered` — how many rows are delivered without an error.
* `Scan.EndFails` — the exception.
* `Scan.run_noted` — the counts of a run.
* `Scan.execute_scanFinish` — **the closing event of an execution**, for every outcome.
-/

namespace GraphScan

namespace Scan

variable {node : ScanNode} {scan : Scan} {store : Store} {params : List Value}
  {source : SharedTable} {outlet : Outlet}

/-- **How many rows a run delivers without an error** while it takes a number of rows: those of the
selected rows that are inserted, or accepted by the aggregation. -/
def delivered (scan : Scan) (params : List Value) (source : SharedTable) (outlet : Outlet)
    (taken : Nat) : Nat :=
  match scan.prepare params source outlet with
  | (.ok (window, route, table), machine) =>
    ((scan.begin window machine outlet).deliveries route (table.rows.toList.take taken)).accepted
  | (.error _, _) => 0

/-- **Whether the end of the aggregation fails**, after the loop has ended without an error. -/
def EndFails (scan : Scan) (params : List Value) (source : SharedTable) (outlet : Outlet) : Prop :=
  ∃ window route table machine rest now e,
    scan.prepare params source outlet = (.ok (window, route, table), machine) ∧
      (scan.begin window machine outlet).loop route table.rows.toList = (.ok (), rest, now) ∧
      now.finish.1 = .error e

theorem delivered_of_prepare {window : Window} {route : Route} {machine : Option Machine}
    (hprepare : scan.prepare params source outlet = (.ok (window, route, source.table), machine))
    (taken : Nat) :
    scan.delivered params source outlet taken =
      ((scan.begin window machine outlet).deliveries route
        (source.table.rows.toList.take taken)).accepted := by
  simp only [delivered, hprepare]

/-- Before the first row nothing has been delivered. -/
@[simp] theorem delivered_zero (scan : Scan) (params : List Value) (source : SharedTable)
    (outlet : Outlet) : scan.delivered params source outlet 0 = 0 := by
  rw [delivered]
  split
  · simp [Run.deliveries, selectedImages, feedAll, Feeding.accepted]
  · rfl

theorem endFails_iff {window : Window} {route : Route} {machine : Option Machine} {rest : List Row}
    {outcome : Except EngineError Unit} {now : Run}
    (hprepare : scan.prepare params source outlet = (.ok (window, route, source.table), machine))
    (hloop : (scan.begin window machine outlet).loop route source.table.rows.toList =
      (outcome, rest, now)) :
    scan.EndFails params source outlet ↔ outcome = .ok () ∧ ∃ e, now.finish.1 = .error e := by
  constructor
  · rintro ⟨window', route', table', machine', rest', now', e, hprepare', hloop', hfinish⟩
    rw [hprepare, Prod.mk.injEq, Except.ok.injEq, Prod.mk.injEq, Prod.mk.injEq] at hprepare'
    obtain ⟨⟨rfl, rfl, rfl⟩, rfl⟩ := hprepare'
    rw [hloop, Prod.mk.injEq, Prod.mk.injEq] at hloop'
    obtain ⟨rfl, rfl, rfl⟩ := hloop'
    exact ⟨rfl, e, hfinish⟩
  · rintro ⟨rfl, e, hfinish⟩
    exact ⟨window, route, source.table, machine, rest, now, e, hprepare, hloop, hfinish⟩

/-! ## The counts of a run -/

/-- What a run that starts at the beginning has noted and counted after the rows `seen`. -/
theorem counts_of_reached {window : Window} {route : Route} {machine : Option Machine}
    {seen images : List Row} {now : Run}
    (h : Run.Reached (scan.begin window machine outlet) route seen images now) :
    now.scanned = seen.length ∧
      now.gate.passed = ((scan.begin window machine outlet).deliveries route seen).accepted ∧
      now.noted = ⟨seen.length,
        ((scan.begin window machine outlet).deliveries route seen.dropLast).accepted⟩ := by
  have hscanned := h.scanned_eq
  have hpassed := h.passed_eq
  have hnoted := h.noted_eq
  simp only [begin, Gate.new, Nat.zero_add] at hscanned hpassed hnoted
  refine ⟨hscanned, ?_, ?_⟩
  · rw [hpassed, h.accepted_deliveries]
  · rw [hnoted, hscanned]
    rfl

/-- **The counts that a run has noted at its end**: the rows taken, and the rows delivered.  Where the
end of the aggregation fails the last row taken is left out of the latter. -/
theorem run_noted (hcheck : scan.node.checkProjection = .ok ()) (params : List Value)
    (source : SharedTable) (outlet : Outlet) :
    let rows := source.table.rows.toList
    let result := scan.run params source outlet
    let taken := result.noted.scanned
    taken ≤ rows.length ∧
      result.source = { source with table := source.table.withRows (rows.drop taken) } ∧
      (∀ counts, result.outcome = .ok counts → counts = result.noted) ∧
      (¬ scan.EndFails params source outlet →
        result.noted.emitted = scan.delivered params source outlet taken) ∧
      (scan.EndFails params source outlet →
        result.noted.emitted = scan.delivered params source outlet (taken - 1)) := by
  intro rows result
  have hends : Ending scan params source outlet result := run_ends hcheck params source outlet
  clear_value result
  cases hends with
  | unprepared hprepare =>
      refine ⟨Nat.zero_le _, rfl, ?_, fun _ => ?_, fun _ => ?_⟩
      · intro counts hok
        cases hok
      · rw [delivered_zero]
      · rw [Nat.zero_sub, delivered_zero]
  | @failed window route machine seen rest images row e final hprepare hrows hloop hfailed =>
      have hnoted : final.noted = ⟨seen.length + 1, images.length⟩ := by
        rw [hfailed.noted_eq, begin, Gate.new, Nat.zero_add, Nat.zero_add]
      have htake : rows.take (seen.length + 1) = seen ++ [row] := by
        simp [rows, hrows, List.take_append, List.take_of_length_le]
      have hdrop : rows.drop (seen.length + 1) = rest := by
        simp [rows, hrows, List.drop_append, List.drop_eq_nil_of_le]
      simp only [hnoted]
      refine ⟨?_, ?_, ?_, fun _ => ?_, fun hends => ?_⟩
      · simp [rows, hrows]
      · rw [hdrop]
      · intro counts hok
        cases hok
      · rw [delivered_of_prepare hprepare, ← hfailed.deliveries_eq.2, ← htake]
      · cases ((endFails_iff hprepare hloop).mp hends).1
  | @unfinished window route machine seen rest images e now final hprepare hrows hloop hreached hend
      hfinish =>
      obtain ⟨hkept, -, -⟩ := now.counts_finish
      obtain ⟨-, -, hnoted⟩ := counts_of_reached hreached
      rw [hfinish] at hkept
      simp only [show final.noted = _ from hkept.trans hnoted]
      refine ⟨?_, ?_, ?_, fun hends => ?_, fun _ => ?_⟩
      · simp [rows, hrows]
      · simp [rows, hrows]
      · intro counts hok
        cases hok
      · exact absurd ((endFails_iff hprepare hloop).mpr ⟨rfl, e, by rw [hfinish]⟩) hends
      · rw [delivered_of_prepare hprepare, hrows, List.dropLast_eq_take,
          List.take_append_of_le_length (Nat.sub_le _ _)]
  | @finished window route machine seen rest images now final hprepare hrows hloop hreached hend
      hfinish =>
      obtain ⟨-, hkept, hgate⟩ := now.counts_finish
      obtain ⟨hscanned, hpassed, -⟩ := counts_of_reached hreached
      rw [hfinish] at hkept hgate
      simp only [show final.scanned = _ from hkept.trans hscanned, show final.gate = _ from hgate,
        hpassed]
      refine ⟨?_, ?_, ?_, fun _ => ?_, fun hends => ?_⟩
      · simp [rows, hrows]
      · simp [rows, hrows]
      · intro counts hok
        exact (Except.ok.inj hok).symm
      · rw [delivered_of_prepare hprepare, hrows, List.take_left]
      · obtain ⟨-, e, herror⟩ := (endFails_iff hprepare hloop).mp hends
        rw [hfinish] at herror
        cases herror

/-! ## The events of an execution -/

theorem eq_of_mem_probeEvents {probe : Option (List FetchCall)} {event : Event}
    (h : event ∈ probeEvents probe) : ∃ succeeded, event = .remoteProbe succeeded := by
  cases probe with
  | none => cases h
  | some calls => exact ⟨_, List.mem_singleton.mp h⟩

theorem scanFinish_notMem_probeEvents (probe : Option (List FetchCall)) (name : String)
    (scanned emitted : Nat) : Event.scanFinish name scanned emitted ∉ probeEvents probe := by
  intro hmem
  obtain ⟨succeeded, hevent⟩ := eq_of_mem_probeEvents hmem
  cases hevent

/-- An execution announces itself at its beginning and nowhere else. -/
theorem name_eq_of_mem {name found : String} {probe : Option (List FetchCall)} {others : List Event}
    (hothers : Event.scanStart name ∉ others)
    (h : Event.scanStart name ∈ .scanStart found :: probeEvents probe ++ others) : name = found := by
  rw [List.cons_append, List.mem_cons, List.mem_append] at h
  rcases h with hhead | hprobe | hmem
  · simpa using hhead
  · obtain ⟨succeeded, hevent⟩ := eq_of_mem_probeEvents hprobe
    cases hevent
  · exact absurd hmem hothers

/-- **The closing event of an execution** that has announced itself, of any scan in use and whatever
the outcome.  There is one such event, at the end.  Its first count is the number of rows that are
gone from the source, which are the first ones.  Its second count is the number of rows that were
delivered without an error, unless the end of the aggregation fails: then it is the number of rows
that were delivered before the last row was taken.  A report carries the same counts. -/
theorem execute_scanFinish {name : String} (context : Context) (h : InUse node scan store)
    (hstart : Event.scanStart name ∈ (scan.execute context params store).events) :
    let source := store.get scan.source
    let rows := source.table.rows.toList
    let outlet := scan.outlet context store
    let execution := scan.execute context params store
    ∃ between scanned emitted,
      execution.events = .scanStart name :: between ++ [.scanFinish name scanned emitted] ∧
      (∀ other s n, Event.scanFinish other s n ∉ between) ∧
      scanned ≤ rows.length ∧
      execution.store.get scan.source =
        { source with table := source.table.withRows (rows.drop scanned) } ∧
      (∀ report, execution.outcome = .ok report → report.counts = ⟨scanned, emitted⟩) ∧
      (¬ scan.EndFails params source outlet →
        emitted = scan.delivered params source outlet scanned) ∧
      (scan.EndFails params source outlet →
        emitted = scan.delivered params source outlet (scanned - 1)) := by
  obtain rfl := h.node_eq
  intro source rows outlet execution
  cases hname : scan.sourceName store with
  | error e =>
      rw [execute_of_name_error context params hname] at hstart
      cases hstart
  | ok found =>
    cases hfull : scan.node.emptyScan with
    | true =>
        rw [execute_of_empty context params hname hfull] at hstart
        simp at hstart
    | false =>
      cases hstages : scan.node.isPassThrough with
      | true =>
          have hnothing := execute_of_isPassThrough context params hname hfull hstages
          have hevents : execution.events = _ := congrArg Execution.events hnothing
          have hstore : execution.store = store := congrArg Execution.store hnothing
          obtain rfl : name = found := name_eq_of_mem (by simp) (hevents ▸ hstart)
          refine ⟨probeEvents (context.probe scan.node.graph store) ++
            [.shortCircuit name .passThrough], 0, 0, ?_, ?_, Nat.zero_le _, ?_,
            ?_, fun _ => ?_, fun _ => ?_⟩
          · rw [hevents]
            simp
          · intro other s n hmem
            rcases List.mem_append.mp hmem with hprobe | hshort
            · exact scanFinish_notMem_probeEvents _ _ _ _ hprobe
            · simp at hshort
          · rw [hstore]
            rfl
          · intro report hok
            have hreport : execution.outcome = .ok ⟨.passThrough, ⟨0, 0⟩⟩ :=
              congrArg Execution.outcome hnothing
            rw [hreport] at hok
            rw [← Except.ok.inj hok]
          · rw [delivered_zero]
          · rw [Nat.zero_sub, delivered_zero]
      | false =>
          obtain ⟨-, -, hstore, hevents⟩ := execute_of_stages context params hname hfull hstages
          obtain ⟨hsource, -, hne⟩ := h.tables hstages
          obtain ⟨htaken, hleft, hcounts, hexact, hmissed⟩ :=
            run_noted h.projection_ok params source outlet
          obtain rfl : name = found := name_eq_of_mem (by simp) (hevents ▸ hstart)
          refine ⟨probeEvents _, _, _, hevents, scanFinish_notMem_probeEvents _, htaken, ?_, ?_,
            hexact, hmissed⟩
          · show execution.store.get scan.source = _
            rw [hstore, get_source_writeBack hsource hne]
            exact hleft
          · intro report hok
            exact hcounts _ (ok_of_execute hname hfull hstages hok)

/-! ### Two examples: a row that fails, and an end that fails -/

/-- Three rows are gone, and the two that have a quotient were delivered. -/
theorem execute_scanFinish_negativeQuotient :
    let scan := negativeQuotientScan.1
    let store := negativeQuotientScan.2
    let context : Context := ⟨0, default, none, false, false⟩
    let execution := scan.execute context [] store
    execution.events = [.scanStart "people", .scanFinish "people" 3 2] ∧
      execution.store.get 0 = .unheld ((store.get 0).table.withRows [[.int 4]]) ∧
      scan.delivered [] (store.get 0) (scan.outlet context store) 3 = 2 := by
  intro scan store context execution
  have hinit : Scan.init (.scan negativeQuotient) peopleStore = .ok (scan, store) := rfl
  have hevents : execution.events = [.scanStart "people", .scanFinish "people" 3 2] := rfl
  have huse : InUse negativeQuotient scan store := inUse_of_init hinit (by decide)
  have hstart : Event.scanStart "people" ∈ execution.events := by simp [hevents]
  obtain ⟨between, scanned, emitted, hall, -, -, hsource, -, hexact, -⟩ :=
    execute_scanFinish context huse hstart
  have hends : ¬ scan.EndFails [] (store.get 0) (scan.outlet context store) := by
    intro hends
    obtain ⟨hok, -⟩ := (endFails_iff rfl rfl).mp hends
    cases hok
  rw [show (scan.execute context [] store).events = _ from hevents] at hall
  obtain ⟨rfl, rfl⟩ : scanned = 3 ∧ emitted = 2 := by
    cases between with
    | nil => simpa [eq_comm] using hall
    | cons event others => simp at hall
  exact ⟨hevents, hsource, (hexact hends).symm⟩

/-- The number of the vertices, if one over its distance from four is zero. -/
def countApart : AggregateNode :=
  ⟨.hash, [], [⟨.countStar, none⟩],
    some (.compare .eq (.arith .div (.constant (.int 1))
      (.arith .sub (.column 0) (.constant (.int 4)))) (.constant (.int 0))),
    none, ⟨[⟨"n", .int⟩]⟩⟩

def countApartNode : ScanNode :=
  ⟨0, some people, [], false, false, none, none, none, some countApart, countApart.schema⟩

/-- The scan that counts, and the store with its output. -/
def countApartScan : Scan × Store :=
  (⟨countApartNode, 0, .owned 1, some (.ofNode countApart)⟩,
    (peopleStore.add (.empty "people_vertexes" countApart.schema)).2)

/-- **The last row is left out** where the end of the aggregation fails: all four rows have been fed
without an error, but the closing event says three. -/
theorem scanFinish_countApart :
    let scan := countApartScan.1
    let store := countApartScan.2
    let context : Context := ⟨0, default, none, false, false⟩
    let execution := scan.execute context [] store
    Scan.init (.scan countApartNode) peopleStore = .ok (scan, store) ∧
      execution.outcome = .error .divisionByZero ∧
      execution.events = [.scanStart "people", .scanFinish "people" 4 3] ∧
      scan.delivered [] (store.get 0) (scan.outlet context store) 4 = 4 := by
  intro scan store context execution
  exact ⟨rfl, rfl, rfl, rfl⟩

end Scan

end GraphScan
