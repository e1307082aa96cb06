import Mathlib
import GraphScan.Proofs.Scan.Success

/-!
# Executions one after the other

A scan without an aggregation can be executed again and again, with another window each time.  Every
execution has a gate of its own, and starts in the source where the one before it has stopped.

* `Scan.executions` — a series of executions of one scan.
* `Scan.Paged` — a series of executions, page by page.
* `Scan.paged_of_executions` — a series of executions that succeed is paged.
* `Scan.executions_add_succeed_iff`, `Scan.storeAfter_add` — **two limits in a row do what their sum
  does.**
* `Scan.executions_page` — **a series of executions pages through the source**: nothing is delivered
  twice, nothing out of order, and nothing is passed over but by an offset.
* `Scan.executions_markedEmpty` — a scan that is marked empty succeeds without a page.
-/

namespace GraphScan

namespace Scan

variable {node : ScanNode} {scan : Scan} {store : Store}

/-- **Executions one after the other.**  Each finds the scan and the store as the one before it has
left them. -/
def executions (scan : Scan) (store : Store) : List (Context × List Value) → List Execution
  | [] => []
  | (context, params) :: calls =>
    let execution := scan.execute context params store
    execution :: execution.scan.executions execution.store calls

/-- The store after a series of executions. -/
def storeAfter (scan : Scan) (store : Store) : List (Context × List Value) → Store
  | [] => store
  | (context, params) :: calls =>
    let execution := scan.execute context params store
    execution.scan.storeAfter execution.store calls

/-! ## Page by page -/

/-- **A series of executions, page by page**: it leads from one store to another, and each execution
has a window and the images that it delivers. -/
inductive Paged (scan : Scan) :
    Store → List Window → List (List Row) → List Execution → Store → Prop where
  | nil (store : Store) : Paged scan store [] [] [] store
  | cons {store later : Store} {window : Window} {images : List Row} {execution : Execution}
      {windows : List Window} {pages : List (List Row)} {executions : List Execution}
      (hpage : Page scan window store images execution.store)
      (hrest : Paged scan execution.store windows pages executions later) :
      Paged scan store (window :: windows) (images :: pages) (execution :: executions) later

namespace Paged

variable {windows : List Window} {pages : List (List Row)} {executions : List Execution}
  {later : Store}

/-- What is delivered are the images of the pages that the windows cut from the matches. -/
theorem pages_eq (h : Paged scan store windows pages executions later) :
    List.Forall₂ (List.Forall₂ fun row image => scan.node.image row = .ok image)
      (Window.pages (scan.remaining store) windows) pages := by
  induction h with
  | nil store => exact .nil
  | cons hpage hrest ih =>
      rw [hpage.remaining_eq] at ih
      exact .cons hpage.images_eq ih

theorem remaining_eq (h : Paged scan store windows pages executions later) :
    scan.remaining later = Window.restAll (scan.remaining store) windows := by
  induction h with
  | nil store => rfl
  | cons hpage hrest ih => rw [ih, hpage.remaining_eq, Window.restAll]

/-- The pages stand behind the rows of the output, in order. -/
theorem output_eq (h : Paged scan store windows pages executions later) :
    later.get scan.output.table = (store.get scan.output.table).appendAll pages.flatten := by
  induction h with
  | nil store => rfl
  | cons hpage hrest ih =>
      rw [ih, hpage.output_eq, SharedTable.appendAll_appendAll, List.flatten_cons]

/-- The source has lost its first rows. -/
theorem exists_sourceRows_eq (h : Paged scan store windows pages executions later) :
    ∃ taken, scan.sourceRows later = (scan.sourceRows store).drop taken := by
  induction h with
  | nil store => exact ⟨0, rfl⟩
  | cons hpage hrest ih =>
      obtain ⟨taken, htaken⟩ := ih
      rw [hpage.sourceRows_eq, List.drop_drop] at htaken
      exact ⟨_, htaken⟩

end Paged

/-- **Executions that succeed are paged.**  The induction is on the executions to come; the scan stays
in use and, without an aggregation, stays the same. -/
theorem paged_of_executions (h : InUse node scan store) (haggregate : node.aggregate = none)
    (hfull : node.emptyScan = false) (hstages : node.isPassThrough = false)
    (calls : List (Context × List Value))
    (hok : ∀ execution ∈ scan.executions store calls, execution.Succeeds) :
    ∃ windows pages,
      List.Forall₂ (fun call window => WindowSpec.resolveOptional node.window call.2 = .ok window)
        calls windows ∧
      Paged scan store windows pages (scan.executions store calls) (scan.storeAfter store calls) := by
  induction calls generalizing store with
  | nil => exact ⟨[], [], .nil, .nil store⟩
  | cons call calls ih =>
      obtain ⟨context, params⟩ := call
      simp only [executions, storeAfter] at hok ⊢
      obtain ⟨hfirst, hrest⟩ := List.forall_mem_cons.mp hok
      obtain ⟨hscan, -, window, images, hwindow, -, -, hpage⟩ :=
        page_of_execute h haggregate hfull hstages hfirst
      have hnext := h.execute context params
      rw [hscan] at hnext hrest ⊢
      obtain ⟨windows, pages, hwindows, hpages⟩ := ih hnext hrest
      exact ⟨window :: windows, images :: pages, .cons hwindow hwindows, .cons hpage hpages⟩

/-! ## Two limits in a row -/

namespace Page

variable {window : Window} {images others : List Row} {middle later other : Store}

/-- A window has one page, and the page one outcome. -/
theorem unique (h : Page scan window store images later) (h' : Page scan window store others other) :
    images = others ∧ later = other := by
  have hfunctional : Relator.RightUnique fun row image => scan.node.image row = .ok image := by
    intro row image image' himage himage'
    exact Except.ok.inj (himage.symm.trans himage')
  have himages : images = others := hfunctional.forall₂ h.images_eq h'.images_eq
  refine ⟨himages, Store.ext_get (h.size_eq.trans h'.size_eq.symm) fun id => ?_⟩
  by_cases houtput : id = scan.output.table
  · rw [houtput, h.output_eq, h'.output_eq, himages]
  · by_cases hsource : id = scan.source
    · rw [hsource, h.source_eq, h'.source_eq]
    · rw [h.others_eq id hsource houtput, h'.others_eq id hsource houtput]

/-- **Two pages in a row are one page**, up to the sum of their limits. -/
theorem append {first second : Nat} (h : Page scan ⟨some first, 0⟩ store images middle)
    (h' : Page scan ⟨some second, 0⟩ middle others later) :
    Page scan ⟨some (first + second), 0⟩ store (images ++ others) later where
  images_eq := by
    rw [Window.cut_add, ← h.remaining_eq]
    exact List.rel_append h.images_eq h'.images_eq
  output_eq := by rw [h'.output_eq, h.output_eq, SharedTable.appendAll_appendAll]
  source_eq := by
    rw [h'.source_eq, h.sourceRows_eq, h.source_eq, List.drop_drop, Window.extent_add]
    rfl
  others_eq id hsource houtput :=
    (h'.others_eq id hsource houtput).trans (h.others_eq id hsource houtput)
  size_eq := h'.size_eq.trans h.size_eq

end Page

/-- What two limits select in a row, their sum selects at once. -/
theorem selects_add_iff {first second : Nat} {rows images : List Row} :
    node.Selects ⟨some (first + second), 0⟩ rows images ↔
      ∃ before behind, images = before ++ behind ∧ node.Selects ⟨some first, 0⟩ rows before ∧
        node.Selects ⟨some second, 0⟩
          (rows.drop (Window.extent ⟨some first, 0⟩ (admits node.predicate) rows)) behind := by
  have hlooked := congrArg rows.take
    (Window.extent_add first second (admits node.predicate) rows)
  rw [List.take_add] at hlooked
  constructor
  · rintro ⟨hsettled, himages⟩
    rw [hlooked, List.forall_mem_append] at hsettled
    rw [Window.cut_add, ← Window.filter_drop_extent] at himages
    have hbefore := List.forall₂_take (Window.cut ⟨some first, 0⟩
      (rows.filter (admits node.predicate))).length himages
    have hbehind := List.forall₂_drop (Window.cut ⟨some first, 0⟩
      (rows.filter (admits node.predicate))).length himages
    rw [List.take_left] at hbefore
    rw [List.drop_left] at hbehind
    exact ⟨_, _, (List.take_append_drop _ images).symm, ⟨hsettled.1, hbefore⟩,
      ⟨hsettled.2, hbehind⟩⟩
  · rintro ⟨before, behind, rfl, ⟨hsettled, hbefore⟩, ⟨hsettled', hbehind⟩⟩
    refine ⟨?_, ?_⟩
    · rw [hlooked]
      exact List.forall_mem_append.mpr ⟨hsettled, hsettled'⟩
    · rw [Window.cut_add, ← Window.filter_drop_extent]
      exact List.rel_append hbefore hbehind

variable {first second whole : Context × List Value} {limit more : Nat}

/-- **Two limits in a row succeed exactly if their sum does.** -/
theorem executions_add_succeed_iff (h : InUse node scan store) (haggregate : node.aggregate = none)
    (hfull : node.emptyScan = false) (hstages : node.isPassThrough = false)
    (hfirst : WindowSpec.resolveOptional node.window first.2 = .ok ⟨some limit, 0⟩)
    (hsecond : WindowSpec.resolveOptional node.window second.2 = .ok ⟨some more, 0⟩)
    (hwhole : WindowSpec.resolveOptional node.window whole.2 = .ok ⟨some (limit + more), 0⟩) :
    (∀ execution ∈ scan.executions store [first, second], execution.Succeeds) ↔
      ∀ execution ∈ scan.executions store [whole], execution.Succeeds := by
  obtain rfl := h.node_eq
  simp only [executions, List.forall_mem_cons, List.not_mem_nil, false_implies, implies_true,
    and_true]
  have hnext := h.execute first.1 first.2
  constructor
  · rintro ⟨hok, hok'⟩
    obtain ⟨hscan, hopen, before, hbefore, htakes, hpage⟩ :=
      page_of_window h haggregate hfull hstages hfirst hok
    rw [hscan] at hnext hok'
    obtain ⟨-, -, behind, hbehind, htakes', -⟩ :=
      page_of_window hnext haggregate hfull hstages hsecond hok'
    rw [hpage.sourceRows_eq] at hbehind
    rw [hpage.output_eq, SharedTable.takes_appendAll] at htakes'
    exact execute_of_open whole.1 h haggregate hfull hstages hwhole hopen
      (selects_add_iff.mpr ⟨before, behind, rfl, hbefore, hbehind⟩)
      (SharedTable.takes_append.mpr ⟨htakes, htakes'⟩)
  · intro hok
    obtain ⟨-, hopen, images, hselects, htakes, -⟩ :=
      page_of_window h haggregate hfull hstages hwhole hok
    obtain ⟨before, behind, rfl, hbefore, hbehind⟩ := selects_add_iff.mp hselects
    obtain ⟨htakes, htakes'⟩ := SharedTable.takes_append.mp htakes
    have hok := execute_of_open first.1 h haggregate hfull hstages hfirst hopen hbefore htakes
    obtain ⟨hscan, -, images, -, -, hpage⟩ := page_of_window h haggregate hfull hstages hfirst hok
    rw [hscan] at hnext ⊢
    rw [← hpage.sourceRows_eq] at hbehind
    rw [← SharedTable.takes_appendAll, ← hpage.output_eq] at htakes'
    exact ⟨hok, execute_of_open second.1 hnext haggregate hfull hstages hsecond
      (hpage.isOpen hopen) hbehind htakes'⟩

/-- **Two limits in a row end in the store in which their sum ends.** -/
theorem storeAfter_add (h : InUse node scan store) (haggregate : node.aggregate = none)
    (hfull : node.emptyScan = false) (hstages : node.isPassThrough = false)
    (hfirst : WindowSpec.resolveOptional node.window first.2 = .ok ⟨some limit, 0⟩)
    (hsecond : WindowSpec.resolveOptional node.window second.2 = .ok ⟨some more, 0⟩)
    (hwhole : WindowSpec.resolveOptional node.window whole.2 = .ok ⟨some (limit + more), 0⟩)
    (hok : ∀ execution ∈ scan.executions store [first, second], execution.Succeeds) :
    scan.storeAfter store [first, second] = scan.storeAfter store [whole] := by
  have hok' := (executions_add_succeed_iff h haggregate hfull hstages hfirst hsecond hwhole).mp hok
  simp only [executions, List.forall_mem_cons, List.not_mem_nil, false_implies, implies_true,
    and_true] at hok hok'
  obtain ⟨hok, hok''⟩ := hok
  obtain ⟨hscan, -, before, -, -, hpage⟩ := page_of_window h haggregate hfull hstages hfirst hok
  have hnext := h.execute first.1 first.2
  rw [hscan] at hnext hok''
  obtain ⟨-, -, behind, -, -, hpage'⟩ :=
    page_of_window hnext haggregate hfull hstages hsecond hok''
  obtain ⟨-, -, images, -, -, hwholePage⟩ :=
    page_of_window h haggregate hfull hstages hwhole hok'
  simp only [storeAfter]
  rw [hscan]
  exact ((hpage.append hpage').unique hwholePage).2

/-! ## Paging through a source -/

/-- **A series of executions pages through the source.**  Take a scan in use that aggregates nothing, is
not marked empty and has a stage, say a window whose bounds are parameters.  If a series of executions
succeeds, each has a window, delivers the images of the page that the window cuts from the matches
left, and leaves the rest of them.  So the output has gained the pages one behind the other; together
with the matches still there they are a part of the matches there were, in order and without a
repetition; and the source has lost rows from its front only.  Two limits in a row, without an offset,
succeed exactly if their sum does, and end in the same store. -/
theorem executions_page (h : InUse node scan store) (haggregate : node.aggregate = none)
    (hfull : node.emptyScan = false) (hstages : node.isPassThrough = false) :
    (∀ calls, (∀ execution ∈ scan.executions store calls, execution.Succeeds) →
      ∃ windows pages,
        List.Forall₂ (fun call window => WindowSpec.resolveOptional node.window call.2 = .ok window)
          calls windows ∧
        Paged scan store windows pages (scan.executions store calls)
          (scan.storeAfter store calls) ∧
        List.Forall₂ (List.Forall₂ fun row image => node.image row = .ok image)
          (Window.pages (scan.remaining store) windows) pages ∧
        (scan.storeAfter store calls).get scan.output.table =
          (store.get scan.output.table).appendAll pages.flatten ∧
        ((Window.pages (scan.remaining store) windows).flatten ++
          scan.remaining (scan.storeAfter store calls)).Sublist (scan.remaining store) ∧
        ∃ taken, scan.sourceRows (scan.storeAfter store calls) =
          (scan.sourceRows store).drop taken) ∧
    ∀ (first second whole : Context × List Value) (limit more : Nat),
      WindowSpec.resolveOptional node.window first.2 = .ok ⟨some limit, 0⟩ →
      WindowSpec.resolveOptional node.window second.2 = .ok ⟨some more, 0⟩ →
      WindowSpec.resolveOptional node.window whole.2 = .ok ⟨some (limit + more), 0⟩ →
      ((∀ execution ∈ scan.executions store [first, second], execution.Succeeds) ↔
        ∀ execution ∈ scan.executions store [whole], execution.Succeeds) ∧
      ((∀ execution ∈ scan.executions store [first, second], execution.Succeeds) →
        scan.storeAfter store [first, second] = scan.storeAfter store [whole]) := by
  constructor
  · intro calls hok
    obtain ⟨windows, pages, hwindows, hpages⟩ :=
      paged_of_executions h haggregate hfull hstages calls hok
    obtain rfl := h.node_eq
    refine ⟨windows, pages, hwindows, hpages, hpages.pages_eq, hpages.output_eq, ?_,
      hpages.exists_sourceRows_eq⟩
    rw [hpages.remaining_eq]
    exact Window.pages_append_restAll_sublist (scan.remaining store) windows
  · intro first second whole limit more hfirst hsecond hwhole
    exact ⟨executions_add_succeed_iff h haggregate hfull hstages hfirst hsecond hwhole,
      storeAfter_add h haggregate hfull hstages hfirst hsecond hwhole⟩

/-! ### An example: two pages of people, and a page that is not delivered -/

/-- The ids greater than one, as many as the first parameter says behind as many as the second. -/
def pagedPeople : ScanNode :=
  ⟨0, some people, [], false, false, some (.compare .gt (.column 0) (.constant (.int 1))), none,
    some ⟨some (.parameter 0), some (.parameter 1)⟩, none, idSchema⟩

/-- The scan of these ids, and the store with its output. -/
def pagedPeopleScan : Scan × Store :=
  (⟨pagedPeople, 0, .owned 1, none⟩, (peopleStore.add (.empty "people_vertexes" idSchema)).2)

/-- An execution for a limit and an offset. -/
def pageCall (limit offset : Int64) : Context × List Value :=
  (⟨0, default, none, false, false⟩, [.int limit, .int offset])

/-- One id, then one more behind another.  Nothing is left then, and the last page is empty. -/
theorem executions_page_people :
    let scan := pagedPeopleScan.1
    let store := pagedPeopleScan.2
    let calls := [pageCall 1 0, pageCall 1 1, pageCall 4 0]
    (scan.executions store calls).map Execution.outcome =
        [.ok ⟨.scanned, ⟨2, 1⟩⟩, .ok ⟨.scanned, ⟨2, 1⟩⟩, .ok ⟨.scanned, ⟨0, 0⟩⟩] ∧
      ∃ windows pages, Paged scan store windows pages (scan.executions store calls)
          (scan.storeAfter store calls) ∧
        ((scan.storeAfter store calls).get 1).table.rows.toList = pages.flatten ∧
        pages.flatten = [[.int 2], [.int 4]] := by
  intro scan store calls
  have hinit : Scan.init (.scan pagedPeople) peopleStore = .ok (scan, store) := rfl
  have huse : InUse pagedPeople scan store := inUse_of_init hinit (by decide)
  have houtcomes : (scan.executions store calls).map Execution.outcome =
      [.ok ⟨.scanned, ⟨2, 1⟩⟩, .ok ⟨.scanned, ⟨2, 1⟩⟩, .ok ⟨.scanned, ⟨0, 0⟩⟩] := by
    simp only [scan, store, calls]
    cbv
  have hok : ∀ execution ∈ scan.executions store calls, execution.Succeeds := by
    intro execution hexecution
    have hmem := List.mem_map_of_mem (f := Execution.outcome) hexecution
    rw [houtcomes] at hmem
    simp only [List.mem_cons, List.not_mem_nil, or_false] at hmem
    rcases hmem with hout | hout | hout <;> exact ⟨_, hout⟩
  obtain ⟨windows, pages, -, hpages, -, houtput, -⟩ :=
    (executions_page huse rfl rfl rfl).1 calls hok
  have hrows : ((scan.storeAfter store calls).get 1).table.rows.toList = pages.flatten := by
    rw [show (scan.storeAfter store calls).get 1 = _ from houtput]
    simp [scan, store, pagedPeopleScan, Output.table, Store.get, Store.add, peopleStore,
      SharedTable.unheld, Table.empty]
  refine ⟨houtcomes, windows, pages, hpages, hrows, ?_⟩
  rw [← hrows]
  simp only [scan, store, calls]
  cbv

/-- The same scan, but the planner has marked it as one without rows. -/
def markedPeopleScan : Scan :=
  ⟨{ pagedPeople with emptyScan := true }, 0, .owned 1, none⟩

/-- **A scan that is marked empty delivers no page.**  The execution succeeds, the window lets one match
pass and there are three, but nothing is delivered and nothing taken. -/
theorem executions_markedEmpty :
    let scan := markedPeopleScan
    let store := pagedPeopleScan.2
    let execution := scan.execute (pageCall 1 0).1 (pageCall 1 0).2 store
    Scan.init (.scan scan.node) peopleStore = .ok (scan, store) ∧ scan.node.aggregate = none ∧
      scan.node.window = some ⟨some (.parameter 0), some (.parameter 1)⟩ ∧
      execution.outcome = .ok ⟨.empty, ⟨0, 0⟩⟩ ∧
      WindowSpec.resolveOptional scan.node.window (pageCall 1 0).2 = .ok ⟨some 1, 0⟩ ∧
      scan.remaining store = [[.int 2], [.int 3], [.int 4]] ∧
      scan.remaining execution.store = [[.int 2], [.int 3], [.int 4]] ∧
      (execution.store.get scan.output.table).table.rows.toList = [] ∧
      ¬ ∃ images, Page scan ⟨some 1, 0⟩ store images execution.store := by
  intro scan store execution
  refine ⟨rfl, rfl, rfl, rfl, rfl, rfl, rfl, rfl, ?_⟩
  rintro ⟨images, hpage⟩
  have hleft : [[.int 2], [.int 3], [.int 4]] = ([[.int 3], [.int 4]] : List Row) :=
    hpage.remaining_eq
  simp at hleft

end Scan

end GraphScan
