import GraphScan.Proofs.Expr.Connectives
import GraphScan.Proofs.Scan.Success

/-!
# Pipelines of filters

A scan whose only stage is a predicate moves its matches, as they are, to an output of its own.  The
output can be the source of another such scan.  Two in a row are one, with the conjunction of their
predicates.

* `ScanNode.filtering` — a scan whose only stage is a predicate.
* `ScanNode.runOnce` — accepts a plan and executes it once.
* `admits_all`, `settled_of_all` — a conjunction admits what its parts admit, and a part has a value
  wherever the conjunction has one and the parts in front are true.
* `ScanNode.Filtered` — what such a scan leaves behind (`ScanNode.filtered_of_runOnce`);
  `ScanNode.exists_runOnce` says when it succeeds.
* `ScanNode.Filtered.exists_subquery` — both, for one that reads the output of another.
* `ScanNode.exists_pipeline` — two in a row, where the conjunction has a value on every row.
* `ScanNode.pipeline_of_fused` — **where the fused scan succeeds the pipeline does**, and it delivers the
  same rows in the same order.
-/

namespace GraphScan

/-! ## Conjunctions as filters -/

/-- **A conjunction admits the rows that its parts admit**, even where some part is null, fails or is no
truth value. -/
theorem admits_all (parts : List Expr) (row : Row) :
    admits (some (.all parts)) row = parts.all fun part => admits (some part) row := by
  have h := @junction_eq_not_decisive_iff false (parts.map (Expr.eval row))
  rw [Bool.eq_iff_iff, admits, decide_eq_true_iff, Expr.eval_all]
  simpa [admits] using h

theorem filter_admits_pair (p q : Expr) (rows : List Row) :
    rows.filter (admits (some (.all [p, q]))) =
      (rows.filter (admits (some p))).filter (admits (some q)) := by
  rw [List.filter_filter]
  refine List.filter_congr fun row _ => ?_
  rw [admits_all, List.all_cons, List.all_cons, List.all_nil, Bool.and_true, Bool.and_comm]

/-- **The parts of a conjunction that has a value**: the first has one, and so have the others together
where the first is true. -/
theorem settled_of_all {part : Expr} {parts : List Expr} {row : Row}
    (h : Settled (some (.all (part :: parts))) row) :
    Settled (some part) row ∧ (admits (some part) row → Settled (some (.all parts)) row) := by
  obtain ⟨value, hvalue⟩ := h _ rfl
  rw [Expr.eval_all, List.map_cons] at hvalue
  constructor
  · rintro _ ⟨⟩
    exact exists_ok_of_junction_cons hvalue
  · rintro hadmits _ ⟨⟩
    have htrue : part.eval row = .ok (.bool true) := of_decide_eq_true hadmits
    refine ⟨value, ?_⟩
    rw [Expr.eval_all, ← hvalue, htrue]
    exact junction_cons_not_decisive.symm

/-! ## Scans that filter -/

namespace ScanNode

/-- **A scan whose only stage is a predicate.** -/
def filtering (id : Nat) (graph : Option Graph) (children : List TableId) (subquery : Bool)
    (predicate : Expr) (schema : Schema) : ScanNode where
  id
  graph
  children
  subquery
  emptyScan := false
  predicate := some predicate
  projection := none
  window := none
  aggregate := none
  schema

/-- **Accepts a plan and executes it once.**  It gives the scan and the store after the execution. -/
def runOnce (node : ScanNode) (context : Context) (params : List Value) (store : Store) :
    Except EngineError (Scan × Store) := do
  let (scan, ready) ← Scan.init (.scan node) store
  let execution := scan.execute context params ready
  let _ ← execution.outcome
  .ok (execution.scan, execution.store)

theorem runOnce_eq_ok_iff {node : ScanNode} {context : Context} {params : List Value}
    {store after : Store} {scan : Scan} :
    node.runOnce context params store = .ok (scan, after) ↔
      ∃ fresh ready, Scan.init (.scan node) store = .ok (fresh, ready) ∧
        (fresh.execute context params ready).Succeeds ∧
        (fresh.execute context params ready).scan = scan ∧
        (fresh.execute context params ready).store = after := by
  rw [runOnce]
  cases hinit : Scan.init (.scan node) store with
  | error e => simp [bind, Except.bind]
  | ok made =>
      obtain ⟨fresh, ready⟩ := made
      cases hout : (fresh.execute context params ready).outcome with
      | error e => simp [bind, Except.bind, Execution.Succeeds, hout]
      | ok report => simp [bind, Except.bind, Execution.Succeeds, hout]

/-- **What a scan that filters leaves behind**: a new table with the matches in their order, and an empty
source. -/
structure Filtered (predicate : Expr) (schema : Schema) (source : TableId) (store : Store) (scan : Scan)
    (after : Store) : Prop where
  output_eq : scan.output = .owned store.tables.size
  delivered : after.get scan.output.table = .unheld
    ((Table.empty (store.get source).table.name schema).appendAll
      ((store.get source).table.rows.toList.filter (admits (some predicate))))
  drained : (after.get source).table.rows.toList = []
  others_eq : ∀ id < store.tables.size, id ≠ source → after.get id = store.get id
  size_eq : after.tables.size = store.tables.size + 1

variable {id : Nat} {graph : Option Graph} {children : List TableId} {subquery : Bool}
variable {predicate : Expr} {schema : Schema} {source : TableId} {store after : Store} {scan : Scan}

/-- The rows that it delivers. -/
theorem Filtered.rows_eq (h : Filtered predicate schema source store scan after) :
    (after.get scan.output.table).table.rows.toList =
      (store.get source).table.rows.toList.filter (admits (some predicate)) := by
  rw [h.delivered]
  exact Table.toList_rows_appendAll _ _

/-- Such a scan selects its matches, as they are. -/
theorem selects_filtering_iff {rows images : List Row} :
    (filtering id graph children subquery predicate schema).Selects .everything rows images ↔
      (∀ row ∈ rows, Settled (some predicate) row) ∧
        images = rows.filter (admits (some predicate)) := by
  have hextent : Window.everything.extent (admits (some predicate)) rows = rows.length := rfl
  have himages : List.Forall₂ (fun row image : Row => .ok row = (.ok image : Except EngineError Row))
      (rows.filter (admits (some predicate))) images ↔
        images = rows.filter (admits (some predicate)) := by
    simp only [Except.ok.injEq, List.forall₂_eq_eq_eq, eq_comm]
  constructor
  · intro h
    refine ⟨fun row hrow => h.settled row ?_, himages.mp h.images⟩
    rwa [filtering, hextent, List.take_length]
  · rintro ⟨hsettled, himage⟩
    exact ⟨fun row hrow => hsettled row (List.mem_of_mem_take hrow), himages.mpr himage⟩

/-- The plan is accepted if no writer holds its source, and is given a new table. -/
theorem init_filtering_iff {ready : Store}
    (hsource : (filtering id graph children subquery predicate schema).source = .ok source) :
    Scan.init (.scan (filtering id graph children subquery predicate schema)) store = .ok (scan, ready) ↔
      (store.get source).hold ≠ .writer ∧
        scan = ⟨filtering id graph children subquery predicate schema, source,
          .owned store.tables.size, none⟩ ∧
        ready = (store.add (.empty (store.get source).table.name schema)).2 := by
  constructor
  · intro h
    have haccepted := Scan.accepted_of_init h
    obtain ⟨node, found, output, machine⟩ := scan
    obtain rfl : node = _ := haccepted.node_eq
    obtain rfl : found = source := Except.ok.inj (haccepted.source_eq.symm.trans hsource)
    obtain rfl : machine = none := haccepted.machine_eq
    obtain ⟨table, hread, rfl, rfl⟩ := haccepted.owned rfl
    obtain ⟨hhold, rfl⟩ := Scan.read_eq_ok_iff.mp hread
    exact ⟨hhold, rfl, rfl⟩
  · rintro ⟨hhold, rfl, rfl⟩
    have hread := Scan.read_eq_ok_iff.mpr ⟨hhold, rfl⟩
    simp only [Scan.init, hsource, Scan.bindOutput, hread, bind, Except.bind]
    rfl

/-- **A scan that filters and succeeds** has found its source unheld and its predicate with a value on
every row. -/
theorem filtered_of_runOnce {context : Context} {params : List Value}
    (hsource : (filtering id graph children subquery predicate schema).source = .ok source)
    (hlt : source < store.tables.size)
    (h : (filtering id graph children subquery predicate schema).runOnce context params store =
      .ok (scan, after)) :
    (store.get source).hold = .free ∧
      (∀ row ∈ (store.get source).table.rows.toList, Settled (some predicate) row) ∧
      Filtered predicate schema source store scan after := by
  obtain ⟨fresh, ready, hinit, hok, rfl, rfl⟩ := runOnce_eq_ok_iff.mp h
  obtain ⟨-, rfl, rfl⟩ := (init_filtering_iff hsource).mp hinit
  have hkept {id : TableId} (hid : id < store.tables.size) :=
    Store.get_add_of_lt (.empty (store.get source).table.name schema) hid
  have hnew := store.get_add_self (.empty (store.get source).table.name schema)
  obtain ⟨hscan, hopen, images, hselects, -, hpage⟩ :=
    Scan.page_of_window (Scan.inUse_of_init hinit hlt) rfl rfl rfl rfl hok
  have hfree := hopen.source_free
  have hdelivered := hpage.output_eq
  rw [hkept hlt] at hfree
  rw [Scan.sourceRows, hkept hlt] at hselects
  obtain ⟨hsettled, rfl⟩ := selects_filtering_iff.mp hselects
  rw [show Store.get _ (Output.owned store.tables.size).table = _ from hnew] at hdelivered
  refine ⟨hfree, hsettled, ?_⟩
  exact {
    output_eq := by rw [hscan]
    delivered := by rw [hscan]; exact hdelivered
    drained := hpage.sourceRows_eq.trans List.drop_length
    others_eq := fun id hid hne => (hpage.others_eq id hne (Nat.ne_of_lt hid)).trans (hkept hid)
    size_eq := hpage.size_eq.trans (by simp [Store.add]) }

/-- **Such a scan succeeds** if nobody holds its source, the predicate has a value on every row, and the
matches fit the schema. -/
theorem exists_runOnce (context : Context) (params : List Value)
    (hsource : (filtering id graph children subquery predicate schema).source = .ok source)
    (hlt : source < store.tables.size) (hfree : (store.get source).hold = .free)
    (hsettled : ∀ row ∈ (store.get source).table.rows.toList, Settled (some predicate) row)
    (hfits : ∀ row ∈ (store.get source).table.rows.toList.filter (admits (some predicate)),
      schema.Fits row) :
    ∃ scan after, (filtering id graph children subquery predicate schema).runOnce context params store =
      .ok (scan, after) := by
  have hinit := (init_filtering_iff hsource).mpr ⟨by rw [hfree]; nofun, rfl, rfl⟩
  have huse := Scan.inUse_of_init hinit hlt
  have hkept := Store.get_add_of_lt (.empty (store.get source).table.name schema) hlt
  have hnew := store.get_add_self (.empty (store.get source).table.name schema)
  have hwindow : WindowSpec.resolveOptional none params = .ok .everything := rfl
  have hok := Scan.execute_of_open context huse rfl rfl rfl hwindow ⟨?_, ?_, nofun⟩
    (selects_filtering_iff.mpr ⟨?_, rfl⟩) ?_
  · exact ⟨_, _, runOnce_eq_ok_iff.mpr ⟨_, _, hinit, hok, rfl, rfl⟩⟩
  · rwa [hkept]
  · rw [show Store.get _ (Output.owned store.tables.size).table = _ from hnew]
    nofun
  · rwa [Scan.sourceRows, hkept]
  · rw [show Store.get _ (Output.owned store.tables.size).table = _ from hnew, Scan.sourceRows, hkept]
    exact fun row hrow => ⟨rfl, hfits row hrow⟩

/-! ## Two filters in a row -/

/-- **A subquery over the output of a scan that filters** succeeds if its predicate has a value on the rows
delivered, and its matches fit.  It empties the output, and leaves the source of the first scan as it
is. -/
theorem Filtered.exists_subquery {p q : Expr} {schema' : Schema} {first : Scan} {middle : Store}
    (h : Filtered p schema source store first middle) (hlt : source < store.tables.size)
    (context : Context) (params : List Value)
    (hsettled : ∀ row ∈ (store.get source).table.rows.toList.filter (admits (some p)),
      Settled (some q) row)
    (hfits : ∀ row ∈ ((store.get source).table.rows.toList.filter (admits (some p))).filter
      (admits (some q)), schema'.Fits row) :
    ∃ second last,
      (filtering id graph [first.output.table] true q schema').runOnce context params middle =
        .ok (second, last) ∧
      (last.get second.output.table).table.rows.toList =
        ((store.get source).table.rows.toList.filter (admits (some p))).filter (admits (some q)) ∧
      (last.get source).table.rows.toList = [] ∧
      (last.get first.output.table).table.rows.toList = [] := by
  have houtput : first.output.table = store.tables.size := by rw [h.output_eq, Output.table]
  have hlt' : first.output.table < middle.tables.size := by
    rw [houtput, h.size_eq]
    exact Nat.lt_succ_self _
  have hfree : (middle.get first.output.table).hold = .free := by
    rw [h.delivered]
    rfl
  have hchild : (filtering id graph [first.output.table] true q schema').source =
      .ok first.output.table := rfl
  obtain ⟨second, last, hsecond⟩ := exists_runOnce context params hchild hlt' hfree
    (by rwa [h.rows_eq]) (by rwa [h.rows_eq])
  obtain ⟨-, -, hfiltered⟩ := filtered_of_runOnce hchild hlt' hsecond
  refine ⟨second, last, hsecond, ?_, ?_, hfiltered.drained⟩
  · rw [hfiltered.rows_eq, h.rows_eq]
  · have hsource : source < middle.tables.size := by
      rw [h.size_eq]
      exact Nat.lt_succ_of_lt hlt
    rw [hfiltered.others_eq _ hsource (houtput ▸ Nat.ne_of_lt hlt), h.drained]

/-- **Two scans in a row**, the second over the output of the first, succeed if nobody holds the vertex
table, the conjunction of their predicates has a value on every row, and the rows fit.  They deliver the
matches of the first that are matches of the second. -/
theorem exists_pipeline {graph : Graph} {p q : Expr} (hlt : graph.vertexTable < store.tables.size)
    (hfree : (store.get graph.vertexTable).hold = .free)
    (hsettled : ∀ row ∈ (store.get graph.vertexTable).table.rows.toList,
      Settled (some (.all [p, q])) row)
    (hfits : ∀ row ∈ (store.get graph.vertexTable).table.rows.toList, schema.Fits row)
    (firstId secondId : Nat) (secondGraph : Option Graph) (firstContext secondContext : Context)
    (firstParams secondParams : List Value) :
    ∃ first middle second last,
      (filtering firstId (some graph) [] false p schema).runOnce firstContext firstParams store =
        .ok (first, middle) ∧
      (filtering secondId secondGraph [first.output.table] true q schema).runOnce secondContext
        secondParams middle = .ok (second, last) ∧
      (last.get second.output.table).table.rows.toList =
        ((store.get graph.vertexTable).table.rows.toList.filter (admits (some p))).filter
          (admits (some q)) ∧
      (last.get graph.vertexTable).table.rows.toList = [] ∧
      (last.get first.output.table).table.rows.toList = [] := by
  -- `p` has a value on every row, and `q` on those where `p` is true: elsewhere it may fail.
  have hsettledFirst : ∀ row ∈ (store.get graph.vertexTable).table.rows.toList,
      Settled (some p) row :=
    fun row hrow => (settled_of_all (hsettled row hrow)).1
  have hsettledSecond : ∀ row ∈ (store.get graph.vertexTable).table.rows.toList.filter
      (admits (some p)), Settled (some q) row := by
    intro row hrow
    obtain ⟨hmem, hadmits⟩ := List.mem_filter.mp hrow
    exact (settled_of_all ((settled_of_all (hsettled row hmem)).2 hadmits)).1
  have hgraph : (filtering firstId (some graph) [] false p schema).source = .ok graph.vertexTable := rfl
  obtain ⟨first, middle, hfirst⟩ := exists_runOnce firstContext firstParams hgraph hlt hfree
    hsettledFirst fun row hrow => hfits row (List.mem_of_mem_filter hrow)
  obtain ⟨-, -, hfiltered⟩ := filtered_of_runOnce hgraph hlt hfirst
  obtain ⟨second, last, hsecond, hdone⟩ :=
    hfiltered.exists_subquery hlt secondContext secondParams hsettledSecond fun row hrow =>
      hfits row (List.mem_of_mem_filter (List.mem_of_mem_filter hrow))
  exact ⟨first, middle, second, last, hfirst, hsecond, hdone⟩

/-- **A pipeline of two filters is one filter.**  Let the scan of a graph with the conjunction of `p` and
`q` succeed, into a table with the schema of the vertex table or any other that its rows fit; they fit their
own, for a table refuses all others.  Then in the same store the scan with `p` succeeds, and behind it the
scan of its output with `q`.  The output of the second has the rows of the fused scan in the same order.
The vertex table ends empty either way, and so does the output in between. -/
theorem pipeline_of_fused {graph : Graph} {p q : Expr} {context : Context} {params : List Value}
    {fused : Scan} (hlt : graph.vertexTable < store.tables.size)
    (hfits : ∀ row ∈ (store.get graph.vertexTable).table.rows.toList, schema.Fits row)
    (hfused : (filtering id (some graph) [] false (.all [p, q]) schema).runOnce context params store =
      .ok (fused, after))
    (firstId secondId : Nat) (secondGraph : Option Graph) (firstContext secondContext : Context)
    (firstParams secondParams : List Value) :
    ∃ first middle second last,
      (filtering firstId (some graph) [] false p schema).runOnce firstContext firstParams store =
        .ok (first, middle) ∧
      (filtering secondId secondGraph [first.output.table] true q schema).runOnce secondContext
        secondParams middle = .ok (second, last) ∧
      (last.get second.output.table).table.rows.toList =
        (after.get fused.output.table).table.rows.toList ∧
      (after.get graph.vertexTable).table.rows.toList = [] ∧
      (last.get graph.vertexTable).table.rows.toList = [] ∧
      (last.get first.output.table).table.rows.toList = [] := by
  obtain ⟨hfree, hsettled, hone⟩ := filtered_of_runOnce rfl hlt hfused
  obtain ⟨first, middle, second, last, hfirst, hsecond, hrows, hbase, hbetween⟩ :=
    exists_pipeline hlt hfree hsettled hfits firstId secondId secondGraph firstContext secondContext
      firstParams secondParams
  refine ⟨first, middle, second, last, hfirst, hsecond, ?_, hone.drained, hbase, hbetween⟩
  rw [hrows, hone.rows_eq, filter_admits_pair]

/-- Six divided by the id less one is more than two. -/
def sixthTest : Expr :=
  .compare .gt (.arith .div (.constant (.int 6)) (.arith .sub (.column 0) (.constant (.int 1))))
    (.constant (.int 2))

/-- The first filter keeps from the second the row on which that would divide by zero, in the pipeline as
in the conjunction. -/
theorem pipeline_of_fused_sixthTest :
    let positive : Expr := .compare .gt (.column 0) (.constant (.int 1))
    let context : Context := ⟨0, default, none, false, false⟩
    sixthTest.eval [.int 1] = .error .divisionByZero ∧
      ∃ first middle second last,
        (filtering 1 (some Scan.people) [] false positive Scan.idSchema).runOnce context []
          Scan.peopleStore = .ok (first, middle) ∧
        (filtering 2 none [first.output.table] true sixthTest Scan.idSchema).runOnce context [] middle =
          .ok (second, last) ∧
        (last.get second.output.table).table.rows.toList = [[.int 2], [.int 3]] ∧
        (last.get 0).table.rows.toList = [] := by
  intro positive context
  have hlt : Scan.people.vertexTable < Scan.peopleStore.tables.size := by decide
  have hfits : ∀ row ∈ (Scan.peopleStore.get Scan.people.vertexTable).table.rows.toList,
      Scan.idSchema.Fits row := by
    rw [show (Scan.peopleStore.get Scan.people.vertexTable).table.rows.toList =
      ([1, 2, 3, 4] : List Int64).map fun n => [.int n] from rfl, List.forall_mem_map]
    exact fun n _ => .cons rfl .nil
  obtain ⟨⟨fused, after⟩, hfused⟩ : ∃ made, (filtering 0 (some Scan.people) [] false
      (.all [positive, sixthTest]) Scan.idSchema).runOnce context [] Scan.peopleStore = .ok made :=
    ⟨_, rfl⟩
  obtain ⟨first, middle, second, last, hfirst, hsecond, hrows, -, hdrained, -⟩ :=
    pipeline_of_fused hlt hfits hfused 1 2 none context context [] []
  obtain ⟨-, -, hone⟩ := filtered_of_runOnce rfl hlt hfused
  refine ⟨by decide, first, middle, second, last, hfirst, hsecond, ?_, hdrained⟩
  rw [hrows, hone.rows_eq]
  decide

end ScanNode

end GraphScan
