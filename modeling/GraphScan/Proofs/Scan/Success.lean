import GraphScan.Proofs.Gate.Pages
import GraphScan.Proofs.Scan.Ending

/-!
# When an execution succeeds

Whether an execution of a scan without an aggregation succeeds is a matter of its tables and rows.

* `Scan.Open` — the tables of a scan as an execution needs them, whatever the rows.
* `SharedTable.Takes` — a table into which some rows can be inserted.
* `Scan.Page` — **what an execution that succeeds does**: it appends the images of a page of the
  matches in its source, and takes the rows up to its end.
* `Scan.page_of_execute`, `Scan.execute_of_open` — an execution succeeds exactly where a scan is open,
  its window can be resolved, and it selects rows that its output takes.
-/

namespace GraphScan

/-- Stores with the same tables under the same numbers are the same. -/
theorem Store.ext_get {first second : Store} (hsize : first.tables.size = second.tables.size)
    (hget : ∀ id, first.get id = second.get id) : first = second := by
  obtain ⟨tables⟩ := first
  obtain ⟨others⟩ := second
  rw [Store.mk.injEq]
  refine Array.ext hsize fun id hid hid' => ?_
  have hsame := hget id
  rw [get, get] at hsame
  simpa [hid, hid'] using hsame

/-- **Whether a table takes some rows**: nobody holds it and they fit.  No rows at all can be inserted
into any table. -/
def SharedTable.Takes (shared : SharedTable) (rows : List Row) : Prop :=
  ∀ row ∈ rows, shared.hold = .free ∧ shared.table.schema.Fits row

theorem SharedTable.takes_appendAll {shared : SharedTable} {rows others : List Row} :
    (shared.appendAll rows).Takes others ↔ shared.Takes others := by
  simp [SharedTable.Takes]

theorem SharedTable.takes_append {shared : SharedTable} {rows others : List Row} :
    shared.Takes (rows ++ others) ↔ shared.Takes rows ∧ shared.Takes others :=
  List.forall_mem_append

def Execution.Succeeds (execution : Execution) : Prop :=
  ∃ report, execution.outcome = .ok report

namespace Run

/-- An image that is inserted was taken by the table. -/
theorem takes_of_deliver {run next : Run} {demand : Demand} {image : Row} (h : run.machine = none)
    (hok : run.deliver image = (.ok demand, next)) :
    run.outlet.shared.hold = .free ∧ run.outlet.shared.table.schema.Fits image := by
  rcases run.outlet.shared.insert_cases image with ⟨e, hinsert⟩ | ⟨hfree, hfits, -⟩
  · rw [deliver_of_insert_error h (congrArg Prod.fst hinsert)] at hok
    cases hok
  · exact ⟨hfree, hfits⟩

/-- Images that are all inserted were taken by the table. -/
theorem takes_of_feedAll_deliver {run : Run} (hmachine : run.machine = none) {images : List Row}
    (hmore : (feedAll Run.deliver run images).outcome = .ok .more) :
    run.outlet.shared.Takes images := by
  induction images generalizing run with
  | nil => simp [SharedTable.Takes]
  | cons image images ih =>
      rcases hdeliver : run.deliver image with ⟨_ | demand, next⟩
      · rw [feedAll_cons_of_error hdeliver] at hmore
        cases hmore
      · obtain ⟨hfree, hfits⟩ := takes_of_deliver hmachine hdeliver
        obtain ⟨rfl, hnone, hshared⟩ := deliver_of_ok hmachine hdeliver
        rw [feedAll_cons_of_more hdeliver] at hmore
        have hrest := ih hnone hmore
        rw [hshared, SharedTable.takes_appendAll] at hrest
        intro row hrow
        rcases List.mem_cons.mp hrow with rfl | hmem
        · exact ⟨hfree, hfits⟩
        · exact hrest row hmem

/-- **Images are all inserted exactly into a table that takes them.** -/
theorem feedAll_deliver_eq_more_iff {run : Run} (hmachine : run.machine = none)
    {images : List Row} :
    (feedAll Run.deliver run images).outcome = .ok .more ↔ run.outlet.shared.Takes images := by
  constructor
  · intro hmore
    exact takes_of_feedAll_deliver hmachine hmore
  · intro htakes
    cases images with
    | nil => rfl
    | cons image images =>
        have hfree := (htakes image List.mem_cons_self).1
        exact feedAll_deliver_of_fits run hmachine hfree fun row hrow => (htakes row hrow).2

end Run

namespace Scan

variable {node : ScanNode} {scan : Scan} {store : Store} {params : List Value}

/-! ## Tables -/

/-- **A scan whose tables an execution can use**: nobody holds its source, its output can be looked
at, and the images of its projection are as wide as the output. -/
structure Open (scan : Scan) (store : Store) : Prop where
  source_free : (store.get scan.source).hold = .free
  output_readable : (store.get scan.output.table).hold ≠ .writer
  width_eq : ∀ projection ∈ scan.node.projection, scan.node.schema.width = projection.width

/-- The rows of the source. -/
def sourceRows (scan : Scan) (store : Store) : List Row :=
  (store.get scan.source).table.rows.toList

/-- **The matches that are still in the source.** -/
def remaining (scan : Scan) (store : Store) : List Row :=
  (scan.sourceRows store).filter (admits scan.node.predicate)

/-- Without an aggregation a preparation that succeeds has found the scan open. -/
theorem open_of_prepare {context : Context} {settled : Window × Route × Table}
    {started : Option Machine} (h : InUse node scan store) (hmachine : scan.machine = none)
    (hstages : node.isPassThrough = false)
    (hprepare : scan.prepare params (store.get scan.source) (scan.outlet context store) =
      (.ok settled, started)) : scan.Open store := by
  obtain rfl := h.node_eq
  obtain ⟨window, route, table⟩ := settled
  obtain ⟨-, hprepared⟩ := prepared_of_prepare h.projection_ok hprepare
  simp only [prepare, hprepared.window_eq, h.writable hstages, start, hmachine, outlet, bind,
    Except.bind] at hprepare
  cases hread : (store.get scan.output.table).read with
  | error e => simp [hread, Except.map] at hprepare
  | ok output =>
      obtain ⟨hreadable, rfl⟩ := read_eq_ok_iff.mp hread
      refine ⟨hprepared.source_free, hreadable, fun projection hprojection => ?_⟩
      rw [Option.mem_def] at hprojection
      by_contra hwidth
      have hscratch : (store.get scan.output.table).table.scratch.length ≠ projection.width := by
        rwa [Table.scratch, Row.length_nulls, h.schema_eq hstages]
      simp [hread, Except.map, Scan.route, hprojection, hscratch] at hprepare

/-- An open scan is prepared as soon as its window can be resolved. -/
theorem exists_prepare_of_open {window : Window} (context : Context) (h : InUse node scan store)
    (hmachine : scan.machine = none) (hstages : node.isPassThrough = false)
    (hopen : scan.Open store)
    (hwindow : WindowSpec.resolveOptional node.window params = .ok window) :
    ∃ route, (∀ row, Route.image route row = scan.node.image row) ∧
      scan.prepare params (store.get scan.source) (scan.outlet context store) =
        (.ok (window, route, (store.get scan.source).table), none) := by
  obtain rfl := h.node_eq
  have hread := read_eq_ok_iff.mpr ⟨hopen.output_readable, rfl⟩
  obtain ⟨route, hroute, himage⟩ := exists_route
    (store.get scan.output.table).table.scratch h.projection_ok fun projection hprojection => by
      rw [Table.scratch, Row.length_nulls, h.schema_eq hstages]
      exact hopen.width_eq projection hprojection
  refine ⟨route, himage, ?_⟩
  simp only [prepare, hwindow, h.writable hstages, start, hmachine, outlet, hread, Except.map,
    hroute, SharedTable.write, hopen.source_free, bind, Except.bind]

/-! ## Pages -/

/-- **What an execution does that delivers one page.**  It appends the images of those of the remaining
matches that its window lets pass, takes from the source the rows that the window looks at, and
changes nothing else. -/
structure Page (scan : Scan) (window : Window) (store : Store) (images : List Row)
    (later : Store) : Prop where
  images_eq : List.Forall₂ (fun row image => scan.node.image row = .ok image)
    (window.cut (scan.remaining store)) images
  output_eq : later.get scan.output.table = (store.get scan.output.table).appendAll images
  source_eq : later.get scan.source =
    { store.get scan.source with
      table := (store.get scan.source).table.withRows
        ((scan.sourceRows store).drop
          (window.extent (admits scan.node.predicate) (scan.sourceRows store))) }
  others_eq : ∀ id, id ≠ scan.source → id ≠ scan.output.table → later.get id = store.get id
  size_eq : later.tables.size = store.tables.size

namespace Page

variable {window : Window} {images : List Row} {later : Store}

theorem sourceRows_eq (h : Page scan window store images later) :
    scan.sourceRows later = (scan.sourceRows store).drop
      (window.extent (admits scan.node.predicate) (scan.sourceRows store)) := by
  rw [sourceRows, h.source_eq, Table.toList_rows_withRows]

/-- **A page leaves the matches that its window leaves.** -/
theorem remaining_eq (h : Page scan window store images later) :
    scan.remaining later = window.rest (scan.remaining store) := by
  rw [remaining, h.sourceRows_eq, Window.filter_drop_extent, remaining]

/-- A page leaves the scan open. -/
theorem isOpen (h : Page scan window store images later) (hopen : scan.Open store) :
    scan.Open later where
  source_free := by rw [h.source_eq]; exact hopen.source_free
  output_readable := by rw [h.output_eq]; exact hopen.output_readable
  width_eq := hopen.width_eq

end Page

/-- What a run of an open scan does whose output takes the images of the selected rows. -/
theorem page_of_drain (context : Context) {window : Window} {route : Route} {images : List Row}
    (h : InUse node scan store) (hmachine : scan.machine = none)
    (hstages : node.isPassThrough = false) (himage : ∀ row, route.image row = scan.node.image row)
    (hselects : node.Selects window (scan.sourceRows store) images)
    (htakes : (store.get scan.output.table).Takes images) :
    let result := drain (store.get scan.source) (store.get scan.source).table route
      (scan.begin window none (scan.outlet context store))
    (∃ counts, result.outcome = .ok counts) ∧ result.machine = scan.machine ∧
      Page scan window store images (scan.writeBack store result) := by
  intro result
  obtain rfl := h.node_eq
  obtain ⟨hsource, houtput, hne⟩ := h.tables hstages
  have hmore : (feedAll Run.deliver (scan.begin window none (scan.outlet context store))
      images).outcome = .ok .more := (Run.feedAll_deliver_eq_more_iff rfl).mpr htakes
  obtain ⟨hcounts, hnone, hrest, hshared⟩ := drain_of_selects himage hselects hmore
  refine ⟨⟨_, hcounts⟩, hnone.trans hmachine.symm, ?_⟩
  exact {
    images_eq := hselects.images
    output_eq := by rw [get_output_writeBack houtput, hshared, outlet]
    source_eq := by rw [get_source_writeBack hsource hne, hrest]; rfl
    others_eq := fun id hid hid' => get_writeBack_of_ne hid hid'
    size_eq := by rw [writeBack, Store.size_set, Store.size_set] }

/-- **An execution of an open scan** succeeds if it selects rows whose images the output takes. -/
theorem execute_of_open (context : Context) {window : Window} {images : List Row}
    (h : InUse node scan store) (haggregate : node.aggregate = none)
    (hfull : node.emptyScan = false) (hstages : node.isPassThrough = false)
    (hwindow : WindowSpec.resolveOptional node.window params = .ok window)
    (hopen : scan.Open store) (hselects : node.Selects window (scan.sourceRows store) images)
    (htakes : (store.get scan.output.table).Takes images) :
    (scan.execute context params store).Succeeds := by
  have hmachine : scan.machine = none := h.machine_eq_none_iff.mpr haggregate
  obtain ⟨route, himage, hprepare⟩ :=
    exists_prepare_of_open context h hmachine hstages hopen hwindow
  obtain ⟨⟨counts, hcounts⟩, -⟩ :=
    page_of_drain context h hmachine hstages himage hselects htakes
  obtain rfl := h.node_eq
  obtain ⟨name, hname⟩ := exists_sourceName hopen.source_free
  obtain ⟨hout, -⟩ := execute_of_stages context params hname hfull hstages
  have hreadable : (scan.run params (store.get scan.source)
      (scan.outlet context store)).outlet.shared.hold ≠ .writer := by
    rw [hold_run]
    exact hopen.output_readable
  refine ⟨⟨.scanned, counts⟩, ?_⟩
  rw [hout, outcome_logged_of_readable hreadable]
  simp only [run, hprepare]
  exact congrArg (Except.map _) hcounts

/-- **What an execution that succeeds has found and done.** -/
theorem page_of_execute {context : Context} (h : InUse node scan store)
    (haggregate : node.aggregate = none) (hfull : node.emptyScan = false)
    (hstages : node.isPassThrough = false)
    (hok : (scan.execute context params store).Succeeds) :
    (scan.execute context params store).scan = scan ∧ scan.Open store ∧
      ∃ window images, WindowSpec.resolveOptional node.window params = .ok window ∧
        node.Selects window (scan.sourceRows store) images ∧
        (store.get scan.output.table).Takes images ∧
        Page scan window store images (scan.execute context params store).store := by
  have hmachine : scan.machine = none := h.machine_eq_none_iff.mpr haggregate
  obtain rfl := h.node_eq
  obtain ⟨report, hok⟩ := hok
  cases hname : scan.sourceName store with
  | error e =>
      rw [execute_of_name_error context params hname] at hok
      cases hok
  | ok name =>
      obtain ⟨-, hscan, hstore, -⟩ := execute_of_stages context params hname hfull hstages
      replace hok := ok_of_execute hname hfull hstages hok
      rcases hprepare : scan.prepare params (store.get scan.source) (scan.outlet context store)
        with ⟨e | ⟨window, route, table⟩, started⟩
      · simp [run, hprepare] at hok
      · have hopen := open_of_prepare h hmachine hstages hprepare
        obtain ⟨rfl, hprepared⟩ := prepared_of_prepare h.projection_ok hprepare
        obtain rfl : started = none := by rw [hprepared.machine_eq, hmachine, Option.map_none]
        have hrun : scan.run params (store.get scan.source) (scan.outlet context store) =
            drain (store.get scan.source) (store.get scan.source).table route
              (scan.begin window none (scan.outlet context store)) := by
          simp only [run, hprepare]
          rfl
        rw [hrun] at hok hscan hstore
        obtain ⟨images, hselects, hmore⟩ := selects_of_drain hprepared.image_eq hok
        have htakes : (store.get scan.output.table).Takes images :=
          (Run.feedAll_deliver_eq_more_iff rfl).mp hmore
        obtain ⟨-, hsame, hpage⟩ :=
          page_of_drain context h hmachine hstages hprepared.image_eq hselects htakes
        rw [hscan, hstore, hsame]
        exact ⟨rfl, hopen, window, images, hprepared.window_eq, hselects, htakes, hpage⟩

/-- The same for a window that is known. -/
theorem page_of_window {context : Context} {window : Window} (h : InUse node scan store)
    (haggregate : node.aggregate = none) (hfull : node.emptyScan = false)
    (hstages : node.isPassThrough = false)
    (hwindow : WindowSpec.resolveOptional node.window params = .ok window)
    (hok : (scan.execute context params store).Succeeds) :
    (scan.execute context params store).scan = scan ∧ scan.Open store ∧
      ∃ images, node.Selects window (scan.sourceRows store) images ∧
        (store.get scan.output.table).Takes images ∧
        Page scan window store images (scan.execute context params store).store := by
  obtain ⟨hscan, hopen, found, images, hfound, hselects, htakes, hpage⟩ :=
    page_of_execute h haggregate hfull hstages hok
  obtain rfl := Except.ok.inj (hwindow.symm.trans hfound)
  exact ⟨hscan, hopen, images, hselects, htakes, hpage⟩

end Scan

end GraphScan
