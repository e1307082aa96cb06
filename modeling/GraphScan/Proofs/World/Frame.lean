import Mathlib
import GraphScan.Proofs.World.Sound

/-!
# What an execution may touch

An execution takes rows from one table and adds rows to another one.  Which names these two tables have
is settled when the plan is accepted, and everything else in the world is left alone.

* `World.Frame` — **what an execution leaves of a world**: the output gains, the source loses, all
  other tables are as before.
* `World.Chain` — scans without stages, each a subquery of the one below.
* `World.execute_frame` — an execution leaves the frame, whatever its outcome; a chain ends at the table
  at its base; and no handle of a scan ever changes.
-/

namespace GraphScan

namespace Scan

variable {scan : Scan} {store after : Store}

/-- **An effect table by table.** -/
theorem Effect.get (h : Effect scan store after) (huse : InUse scan.node scan store) :
    (∃ taken, after.get scan.source =
      { store.get scan.source with
        table := (store.get scan.source).table.withRows
          ((store.get scan.source).table.rows.toList.drop taken) }) ∧
      (∀ id, scan.output = .owned id →
        ∃ gained, after.get id = (store.get id).appendAll gained) ∧
      (∀ id, id ≠ scan.source → scan.output ≠ .owned id → after.get id = store.get id) ∧
      (scan.node.isPassThrough = true ∨ scan.node.emptyScan = true → after = store) := by
  cases h with
  | nothing => exact ⟨⟨0, rfl⟩, fun id _ => ⟨[], rfl⟩, fun _ _ _ => rfl, fun _ => rfl⟩
  | moved hfull hstages taken gained =>
      obtain ⟨hsource, houtput, hne⟩ := huse.tables hstages
      have howned := (huse.owned hstages).1
      refine ⟨⟨taken, ?_⟩, fun id hid => ⟨gained, ?_⟩, fun id hidSource hidOutput => ?_, ?_⟩
      · rw [Store.get_set, if_neg fun h => hne h.1.symm, Store.get_set, if_pos ⟨rfl, hsource⟩]
      · obtain rfl : scan.output.table = id := by rw [hid, Output.table]
        rw [Store.get_set, if_pos ⟨rfl, by rwa [Store.size_set]⟩]
      · have hidTable : scan.output.table ≠ id := by
          rintro rfl
          exact hidOutput howned
        rw [Store.get_set, if_neg fun h => hidTable h.1, Store.get_set,
          if_neg fun h => hidSource h.1.symm]
      · rintro (htrue | htrue)
        · rw [hstages] at htrue
          cases htrue
        · rw [hfull] at htrue
          cases htrue

end Scan

namespace World

variable {world : World}

/-! ## Frames -/

/-- **What an execution of a scan leaves of a world.** -/
structure Frame (world later : World) (index : Nat) (scan : Scan) : Prop where
  /-- The output is the source itself exactly if the plan has no stage. -/
  aliased_iff : scan.output = .aliased scan.source ↔ scan.node.isPassThrough = true
  /-- Else it is a table of the scan's own, which was not there when the plan was accepted. -/
  owned : scan.node.isPassThrough = false → ∃ id made before ready, scan.output = .owned id ∧
    Scan.init (.scan scan.node) before = .ok (made, ready) ∧ made.output = scan.output ∧
    ready.Later world.store ∧ scan.source < id ∧ ∀ earlier < before.tables.size, earlier ≠ id
  /-- That table gains rows, or none, and nothing else about it changes. -/
  gains : ∀ id, scan.output = .owned id →
    ∃ gained, later.store.get id = (world.store.get id).appendAll gained
  /-- The source loses rows from its front, or none, and nothing else about it changes. -/
  loses : ∃ taken, later.store.get scan.source =
    { world.store.get scan.source with
      table := (world.store.get scan.source).table.withRows
        ((world.store.get scan.source).table.rows.toList.drop taken) }
  /-- No other table changes. -/
  others : ∀ id, id ≠ scan.source → scan.output ≠ .owned id →
    later.store.get id = world.store.get id
  /-- No record of a vertex or an edge changes. -/
  graphs_eq : later.graphs = world.graphs
  edges : ∀ graph ∈ world.graphs, ¬ scan.node.Reads graph.edgeTable →
    later.store.get graph.edgeTable = world.store.get graph.edgeTable
  vertices : scan.node.subquery = true → ∀ graph ∈ world.graphs,
    ¬ scan.node.Reads graph.vertexTable →
    later.store.get graph.vertexTable = world.store.get graph.vertexTable
  children : ∀ child ∈ scan.node.children, child ≠ scan.source →
    later.store.get child = world.store.get child
  /-- What other scans own changes only if it is the child that this scan reads. -/
  outputs : ∀ other id, other ≠ index → world.Owns other id → ¬ scan.node.Reads id →
    later.store.get id = world.store.get id
  /-- A plan without stages, or one that is marked empty, changes no table at all. -/
  untouched : scan.node.isPassThrough = true ∨ scan.node.emptyScan = true →
    later.store = world.store

/-- The output of a scan is one of a sort, which the scan has for good. -/
theorem Sound.aliased_iff (h : Sound world) {index : Nat} {scan : Scan}
    (hscan : world.scan? index = some scan) :
    scan.output = .aliased scan.source ↔ scan.node.isPassThrough = true := by
  have huse := h.inUse index scan hscan
  constructor
  · intro haliased
    rw [← huse.isAliased_iff, haliased]
    rfl
  · exact huse.aliased

/-- **An execution leaves the frame**, whatever its outcome. -/
theorem Sound.frame (h : Sound world) {index : Nat} {scan : Scan}
    (hscan : world.scan? index = some scan) (context : Context) (params : List Value) :
    Frame world (world.execute index scan context params).2 index scan := by
  have huse := h.inUse index scan hscan
  obtain ⟨hloses, hgains, hothers, huntouched⟩ := (huse.effect context params).1.get huse
  have hforeign {id : TableId} (hreads : ¬ scan.node.Reads id)
      (hgraph : ∀ graph ∈ world.graphs, id ≠ graph.vertexTable) : id ≠ scan.source := by
    rintro rfl
    rcases ScanNode.source_cases huse.source_eq with hread | ⟨-, graph, hnode, hsource⟩
    · exact hreads hread
    · exact hgraph graph (h.graph_mem index scan hscan graph hnode) hsource
  refine ⟨h.aliased_iff hscan, ?_, hgains, hloses, hothers, rfl, ?_, ?_, ?_, ?_, huntouched⟩
  · intro hstages
    obtain ⟨made, before, ready, hinit, hlater, hsource, hsame⟩ := huse.accepted
    obtain ⟨howned, -, -⟩ := (Scan.accepted_of_init hinit).output_eq hstages
    have houtput : made.output = scan.output := by rw [hsame]
    have hmade : scan.source = made.source := by rw [hsame]
    exact ⟨before.tables.size, made, before, ready, houtput ▸ howned, hinit, houtput, hlater,
      hmade ▸ hsource, fun earlier hearlier => Nat.ne_of_lt hearlier⟩
  · intro graph hgraph hreads
    refine hothers _ (hforeign hreads fun other hother => (h.graph_ne other hother graph hgraph).symm) ?_
    intro howned
    exact (h.owned_graph index _ ⟨scan, hscan, howned⟩ graph hgraph).2 rfl
  · intro hsubquery graph hgraph hreads
    refine hothers _ ?_ ?_
    · intro heq
      rcases ScanNode.source_cases huse.source_eq with hread | ⟨hfalse, -⟩
      · exact hreads (heq ▸ hread)
      · rw [hsubquery] at hfalse
        cases hfalse
    · intro howned
      exact (h.owned_graph index _ ⟨scan, hscan, howned⟩ graph hgraph).1 rfl
  · intro child hchild hne
    refine hothers child hne ?_
    intro howned
    exact Nat.lt_irrefl child (h.children_lt index scan child hscan howned child hchild)
  · intro other id hne howns hreads
    refine hothers id (hforeign hreads fun graph hgraph => (h.owned_graph other id howns graph hgraph).1) ?_
    intro howned
    exact hne (h.owned_ne other index id howns ⟨scan, hscan, howned⟩)

/-! ## Chains -/

/-- **A chain of scans without stages**, each a subquery of the one below.  The lowest one reads the
table `base`. -/
inductive Chain (world : World) (base : TableId) : Scan → Prop where
  | lowest {index : Nat} {scan : Scan} (hscan : world.scan? index = some scan)
      (hstages : scan.node.isPassThrough = true) (hsource : scan.node.source = .ok base) :
      Chain world base scan
  | above {index : Nat} {scan below : Scan} (hscan : world.scan? index = some scan)
      (hstages : scan.node.isPassThrough = true) (hbelow : Chain world base below)
      (hreads : scan.node.Reads below.output.table) : Chain world base scan

/-- **A chain ends at the table at its base.** -/
theorem Chain.output_eq (h : Sound world) {base : TableId} {scan : Scan}
    (hchain : Chain world base scan) : scan.output = .aliased base := by
  induction hchain with
  | @lowest index scan hscan hstages hsource =>
      have huse := h.inUse index scan hscan
      rw [huse.aliased hstages, Except.ok.inj (hsource.symm.trans huse.source_eq)]
  | @above index scan below hscan hstages hbelow hreads ih =>
      have huse := h.inUse index scan hscan
      have hsource : scan.node.source = .ok base := by
        rw [ScanNode.source, if_pos hreads.1, hreads.2, ih, Output.table]
      rw [huse.aliased hstages, Except.ok.inj (hsource.symm.trans huse.source_eq)]

/-! ## The theorem -/

/-- **What an execution may touch.**  In any world that can come about,

* an execution of a scan leaves the frame, whatever its outcome: only the table that the scan owns can
  gain rows, only its source can lose rows, and then from the front, and nothing else changes;
* a chain of subqueries without stages hands on the table at its base;
* and a scan keeps its plan, its source and its output for good. -/
theorem execute_frame (hworld : Reachable world) :
    (∀ index scan, world.scan? index = some scan → ∀ (context : Context) (params : List Value),
      Frame world (world.execute index scan context params).2 index scan) ∧
    (∀ base scan, Chain world base scan → scan.output = .aliased base) ∧
    ∀ later, Leads world later → ∀ index scan, world.scan? index = some scan →
      ∃ now, later.scan? index = some now ∧ now = { scan with machine := now.machine } := by
  refine ⟨?_, ?_, ?_⟩
  · intro index scan hscan context params
    exact hworld.sound.frame hscan context params
  · intro base scan hchain
    exact hchain.output_eq hworld.sound
  · intro later hleads index scan hscan
    exact scan_later hworld hleads hscan

/-! ### An example: subqueries of subqueries -/

def peopleEdges : Schema :=
  ⟨[⟨"id", .int⟩, ⟨"from_id", .int⟩, ⟨"to_id", .int⟩]⟩

def peopleRows : List GraphRow :=
  [.vertex [.int 1], .vertex [.int 2], .vertex [.int 3], .edge [.int 7, .int 1, .int 2],
    .edge [.int 8, .int 2, .int 3]]

/-- Three vertices and two edges, in the tables 0 and 1. -/
def peopleGraph : Graph :=
  (empty.addGraph "people" Scan.idSchema peopleEdges peopleRows).2.1

def peopleWorld : World :=
  (empty.addGraph "people" Scan.idSchema peopleEdges peopleRows).2.2

/-- A subquery of one child for the rows whose first column is greater than a bound, if there is
one. -/
def peopleSubquery (id : Nat) (child : TableId) (bound : Option Int64) (schema : Schema) : ScanNode :=
  ⟨id, some peopleGraph, [child], true, false,
    bound.map fun n => .compare .gt (.column 0) (.constant (.int n)), none, none, none, schema⟩

/-- A scan of the graph without stages, a subquery on top of it without stages, and two subqueries
with one: on top of these, and of the edges. -/
def peopleReaders : List ScanNode :=
  [⟨0, some peopleGraph, [], false, false, none, none, none, none, Scan.idSchema⟩,
    peopleSubquery 1 0 none Scan.idSchema, peopleSubquery 2 0 (some 1) Scan.idSchema,
    peopleSubquery 3 1 (some 7) peopleEdges]

def readersWorld : World :=
  peopleReaders.foldl (fun world node => (world.addScan (.scan node)).2) peopleWorld

theorem reachable_readersWorld : Reachable readersWorld := by
  have hpeople : Reachable peopleWorld := .tail .refl (.graph _ _ _ _ _)
  refine hpeople.addScans fun node hnode => ?_
  have hgraph : ∀ graph ∈ some peopleGraph, graph ∈ peopleWorld.graphs := by
    intro graph hmem
    rw [← Option.some.inj hmem]
    exact Array.mem_push_self
  have hsize : 2 ≤ peopleWorld.store.tables.size := by
    obtain ⟨graph, store, hworld, -, -, -, hlt⟩ :=
      exists_addGraph empty "people" Scan.idSchema peopleEdges peopleRows
    rw [peopleWorld, hworld]
    exact hlt
  have hchild (child : TableId) (hlt : child < 2) :
      ∀ other ∈ [child], other < peopleWorld.store.tables.size := by
    intro other hother
    rw [List.mem_singleton.mp hother]
    exact Nat.lt_of_lt_of_le hlt hsize
  simp only [peopleReaders, List.mem_cons, List.not_mem_nil, or_false] at hnode
  rcases hnode with rfl | rfl | rfl | rfl
  · exact ⟨hgraph, fun child hmem => by cases hmem⟩
  · exact ⟨hgraph, hchild 0 (by decide)⟩
  · exact ⟨hgraph, hchild 0 (by decide)⟩
  · exact ⟨hgraph, hchild 1 (by decide)⟩

/-- The second scan, which hands on the vertex table. -/
def secondReader : Scan :=
  ⟨peopleSubquery 1 0 none Scan.idSchema, 0, .aliased 0, none⟩

/-- The third scan, which owns a table. -/
def thirdReader : Scan :=
  ⟨peopleSubquery 2 0 (some 1) Scan.idSchema, 0, .owned 2, none⟩

/-- The third scan drains the vertex table, which is at the base of the chain below it.  It leaves the
edges alone, and the table that the fourth scan owns. -/
theorem execute_frame_thirdReader :
    let later := (readersWorld.execute 2 thirdReader ⟨0, default, none, false, false⟩ []).2
    readersWorld.scan? 2 = some thirdReader ∧ Frame readersWorld later 2 thirdReader ∧
      Chain readersWorld 0 secondReader ∧ secondReader.output = .aliased 0 ∧
      (later.store.get 0).table.rows = #[] ∧
      (later.store.get 2).table.rows = #[[.int 2], [.int 3]] ∧
      later.store.get 1 = readersWorld.store.get 1 ∧
      later.store.get 3 = readersWorld.store.get 3 ∧
      ∃ now, later.scan? 2 = some now ∧ now.output = .owned 2 := by
  intro later
  obtain ⟨hframes, hchains, hhandles⟩ := execute_frame reachable_readersWorld
  have hthird : readersWorld.scan? 2 = some thirdReader := by cbv
  have hsecond : readersWorld.scan? 1 = some secondReader := by cbv
  have hfirst : readersWorld.scan? 0 = some ⟨⟨0, some peopleGraph, [], false, false, none, none, none,
      none, Scan.idSchema⟩, 0, .aliased 0, none⟩ := by cbv
  have hframe : Frame readersWorld later 2 thirdReader := hframes 2 thirdReader hthird _ _
  have hchain : Chain readersWorld 0 secondReader :=
    .above hsecond rfl (.lowest hfirst rfl (by cbv)) ⟨rfl, rfl⟩
  have hvertices : (later.store.get 0).table.rows = #[] := by
    simp only [later]
    cbv
  have hkept : (later.store.get 2).table.rows = #[[.int 2], [.int 3]] := by
    simp only [later]
    cbv
  obtain ⟨now, hnow, hsame⟩ := hhandles later (.tail .refl (.execute readersWorld hthird _ _)) 2
    thirdReader hthird
  refine ⟨hthird, hframe, hchain, hchains 0 secondReader hchain, hvertices, hkept,
    hframe.others 1 (by decide) (by simp [thirdReader]),
    hframe.others 3 (by decide) (by simp [thirdReader]), now, hnow, ?_⟩
  rw [hsame]
  rfl

/-- The fourth scan, which reads the edges, and one more, which reads what the third owns. -/
def fourthReader : Scan :=
  ⟨peopleSubquery 3 1 (some 7) peopleEdges, 1, .owned 3, none⟩

def fifthReader : Scan :=
  ⟨peopleSubquery 4 2 (some 2) Scan.idSchema, 2, .owned 4, none⟩

/-- **A subquery of the edges drains the edge table, and a subquery of what another scan owns drains
that.**  Neither is the vertex table of the graph. -/
theorem execute_frame_drainsChild :
    let context : Context := ⟨0, default, none, false, false⟩
    let drained := (readersWorld.execute 3 fourthReader context []).2
    let world := ((readersWorld.execute 2 thirdReader context []).2.addScan
      (.scan fifthReader.node)).2
    let later := (world.execute 4 fifthReader context []).2
    Reachable readersWorld ∧ readersWorld.scan? 3 = some fourthReader ∧
      (readersWorld.execute 3 fourthReader context []).1.outcome = .ok ⟨.scanned, ⟨2, 1⟩⟩ ∧
      peopleGraph ∈ readersWorld.graphs ∧
      drained.store.get peopleGraph.edgeTable ≠ readersWorld.store.get peopleGraph.edgeTable ∧
      Reachable world ∧ world.scan? 4 = some fifthReader ∧ world.Owns 2 2 ∧
      (world.execute 4 fifthReader context []).1.outcome = .ok ⟨.scanned, ⟨2, 1⟩⟩ ∧
      later.store.get 2 ≠ world.store.get 2 := by
  intro context drained world later
  have hthird : readersWorld.scan? 2 = some thirdReader := by cbv
  have hfourth : readersWorld.scan? 3 = some fourthReader := by cbv
  have hgraph : peopleGraph ∈ readersWorld.graphs :=
    reachable_readersWorld.sound.graph_mem 3 fourthReader hfourth peopleGraph rfl
  have hsize : (readersWorld.execute 2 thirdReader context []).2.store.tables.size = 4 := by
    simp only [context]
    cbv
  have hexecuted : Reachable (readersWorld.execute 2 thirdReader context []).2 :=
    reachable_readersWorld.tail (.execute readersWorld hthird context [])
  have hworld : Reachable world := by
    refine hexecuted.tail (.scan _ _ ⟨?_, ?_⟩)
    · intro graph hmem
      rw [← Option.some.inj hmem]
      exact hgraph
    · intro child hmem
      rw [List.mem_singleton.mp hmem, hsize]
      decide
  have hedges : (drained.store.get peopleGraph.edgeTable).table.rows = #[] ∧
      (readersWorld.store.get peopleGraph.edgeTable).table.rows.size = 2 := by
    simp only [drained, context]
    constructor <;> cbv
  have howned : (later.store.get 2).table.rows = #[] ∧ (world.store.get 2).table.rows.size = 2 := by
    simp only [later, world, context]
    constructor <;> cbv
  refine ⟨reachable_readersWorld, hfourth, ?_, hgraph, ?_, hworld, ?_, ⟨thirdReader, ?_, rfl⟩, ?_, ?_⟩
  · simp only [context]
    cbv
  · intro hsame
    rw [hsame] at hedges
    rw [hedges.1] at hedges
    exact absurd hedges.2 (by decide)
  · simp only [world, context]
    cbv
  · simp only [world, context]
    cbv
  · simp only [world, context]
    cbv
  · intro hsame
    rw [hsame] at howned
    rw [howned.1] at howned
    exact absurd howned.2 (by decide)

end World

end GraphScan
