import GraphScan.Proofs.Table.Fit
import GraphScan.World

/-!
# The records of a graph

A graph is given rows one by one, and keeps a record of each that it takes.  Between two calls others
use its tables as they like.

* `Graph.Consistent` — **what holds of the records**: ids are unique, degrees are the numbers of edges
  up to `maxDegree`, and the end points of every edge are on record.
* `Graph.Consistent.addVertex`, `Graph.Consistent.addEdge` — a call that succeeds keeps it.
* `Ledger` — a graph, the tables and the calls so far; `Ledger.after` goes on for some turns.
* `Ledger.after_new` — **the records agree with the calls**, whatever others do.
-/

namespace GraphScan

namespace Graph

/-! ## Consistent records -/

/-- The edges on record that leave a vertex. -/
def outgoing (graph : Graph) (id : Int64) : Nat :=
  graph.edges.countP fun edge => edge.source == id

/-- The edges on record that enter a vertex.  A loop does both. -/
def incoming (graph : Graph) (id : Int64) : Nat :=
  graph.edges.countP fun edge => edge.target == id

/-- **Consistent records.** -/
structure Consistent (graph : Graph) : Prop where
  vertexIds : (graph.vertices.map Vertex.id).Nodup
  edgeIds : (graph.edges.map Edge.id).Nodup
  fanOut_eq : ∀ vertex ∈ graph.vertices, vertex.fanOut = min maxDegree (graph.outgoing vertex.id)
  fanIn_eq : ∀ vertex ∈ graph.vertices, vertex.fanIn = min maxDegree (graph.incoming vertex.id)
  source_mem : ∀ edge ∈ graph.edges, edge.source ∈ graph.vertices.map Vertex.id
  target_mem : ∀ edge ∈ graph.edges, edge.target ∈ graph.vertices.map Vertex.id

theorem isSome_vertex?_iff {graph : Graph} {id : Int64} :
    (graph.vertex? id).isSome = true ↔ id ∈ graph.vertices.map Vertex.id := by
  simp [vertex?, List.find?_isSome, List.mem_map]

theorem isSome_edge?_iff {graph : Graph} {id : Int64} :
    (graph.edge? id).isSome = true ↔ id ∈ graph.edges.map Edge.id := by
  simp [edge?, List.find?_isSome, List.mem_map]

/-- Among items with different keys each is the one that is found under its key. -/
theorem find?_of_nodup {α : Type} {key : α → Int64} {items : List α}
    (hnodup : (items.map key).Nodup) {item : α} (hmem : item ∈ items) :
    items.find? (fun other => key other == key item) = some item := by
  induction items with
  | nil => cases hmem
  | cons first items ih =>
      rw [List.map_cons, List.nodup_cons] at hnodup
      rcases List.mem_cons.mp hmem with rfl | hrest
      · simp
      · have hne : key first ≠ key item := by
          intro heq
          exact hnodup.1 (heq ▸ List.mem_map_of_mem hrest)
        rw [List.find?_cons_of_neg (by simpa using hne)]
        exact ih hnodup.2 hrest

/-- Counting an edge keeps the ids. -/
@[simp] theorem map_id_countEdge (edge : Edge) (vertices : List Vertex) :
    (vertices.map (countEdge edge)).map Vertex.id = vertices.map Vertex.id := by
  simp [Function.comp_def, countEdge]

/-- One more edge counts for the vertex at its end `endpoint`, its source or its target. -/
theorem countP_cons_endpoint (endpoint : Edge → Int64) (edge : Edge) (edges : List Edge)
    (id : Int64) :
    (edge :: edges).countP (fun other => endpoint other == id) =
      edges.countP (fun other => endpoint other == id) + if id = endpoint edge then 1 else 0 := by
  rw [List.countP_cons]
  by_cases h : id = endpoint edge
  · rw [if_pos h, if_pos (by rw [h, beq_self_eq_true])]
  · rw [if_neg h, if_neg (by simpa using Ne.symm h)]

/-- A degree that is counted on stays the count up to the greatest degree. -/
theorem count_degree (known : Prop) [Decidable known] (count : Nat) :
    (if known then saturatingAdd maxDegree (min maxDegree count) 1 else min maxDegree count) =
      min maxDegree (count + if known then 1 else 0) := by
  rw [saturatingAdd]
  split_ifs <;> omega

namespace Consistent

variable {graph : Graph}

/-- A graph without records. -/
theorem empty (name : String) (vertexTable edgeTable : TableId) :
    Consistent ⟨name, vertexTable, edgeTable, [], []⟩ := by
  constructor <;> simp

/-- **Each vertex is found under its own id**, and no other is. -/
theorem vertex?_eq_some_iff (h : Consistent graph) {id : Int64} {vertex : Vertex} :
    graph.vertex? id = some vertex ↔ vertex ∈ graph.vertices ∧ vertex.id = id := by
  constructor
  · intro hfound
    exact ⟨List.mem_of_find?_eq_some hfound, by simpa using List.find?_some hfound⟩
  · rintro ⟨hmem, rfl⟩
    exact find?_of_nodup h.vertexIds hmem

/-- Each edge is found under its own id, and no other is. -/
theorem edge?_eq_some_iff (h : Consistent graph) {id : Int64} {edge : Edge} :
    graph.edge? id = some edge ↔ edge ∈ graph.edges ∧ edge.id = id := by
  constructor
  · intro hfound
    exact ⟨List.mem_of_find?_eq_some hfound, by simpa using List.find?_some hfound⟩
  · rintro ⟨hmem, rfl⟩
    exact find?_of_nodup h.edgeIds hmem

/-- **A new vertex** has no edges: the end points of all edges are on record already. -/
theorem recordVertex (h : Consistent graph) {id : Int64} (hnew : id ∉ graph.vertices.map Vertex.id) :
    Consistent (graph.recordVertex id) := by
  have houtgoing : graph.outgoing id = 0 := by
    rw [outgoing, List.countP_eq_zero]
    intro edge hedge heq
    rw [beq_iff_eq] at heq
    exact hnew (heq ▸ h.source_mem edge hedge)
  have hincoming : graph.incoming id = 0 := by
    rw [incoming, List.countP_eq_zero]
    intro edge hedge heq
    rw [beq_iff_eq] at heq
    exact hnew (heq ▸ h.target_mem edge hedge)
  constructor
  · exact List.nodup_cons.mpr ⟨hnew, h.vertexIds⟩
  · exact h.edgeIds
  · intro vertex hvertex
    rcases List.mem_cons.mp hvertex with rfl | hmem
    · show 0 = min maxDegree (graph.outgoing id)
      rw [houtgoing, Nat.min_zero]
    · exact h.fanOut_eq vertex hmem
  · intro vertex hvertex
    rcases List.mem_cons.mp hvertex with rfl | hmem
    · show 0 = min maxDegree (graph.incoming id)
      rw [hincoming, Nat.min_zero]
    · exact h.fanIn_eq vertex hmem
  · intro edge hedge
    exact List.mem_cons_of_mem _ (h.source_mem edge hedge)
  · intro edge hedge
    exact List.mem_cons_of_mem _ (h.target_mem edge hedge)

/-- **A new edge** between vertices on record is counted on both of them, or twice on one. -/
theorem recordEdge (h : Consistent graph) {edge : Edge} (hnew : edge.id ∉ graph.edges.map Edge.id)
    (hsource : edge.source ∈ graph.vertices.map Vertex.id)
    (htarget : edge.target ∈ graph.vertices.map Vertex.id) : Consistent (graph.recordEdge edge) := by
  have hids : (graph.recordEdge edge).vertices.map Vertex.id = graph.vertices.map Vertex.id :=
    map_id_countEdge edge graph.vertices
  constructor
  · rw [hids]
    exact h.vertexIds
  · exact List.nodup_cons.mpr ⟨hnew, h.edgeIds⟩
  · intro counted hcounted
    obtain ⟨vertex, hvertex, rfl⟩ := List.mem_map.mp hcounted
    show (if vertex.id = edge.source then saturatingAdd maxDegree vertex.fanOut 1
      else vertex.fanOut) = min maxDegree ((edge :: graph.edges).countP _)
    rw [countP_cons_endpoint Edge.source, h.fanOut_eq vertex hvertex]
    exact count_degree (vertex.id = edge.source) (graph.outgoing vertex.id)
  · intro counted hcounted
    obtain ⟨vertex, hvertex, rfl⟩ := List.mem_map.mp hcounted
    show (if vertex.id = edge.target then saturatingAdd maxDegree vertex.fanIn 1
      else vertex.fanIn) = min maxDegree ((edge :: graph.edges).countP _)
    rw [countP_cons_endpoint Edge.target, h.fanIn_eq vertex hvertex]
    exact count_degree (vertex.id = edge.target) (graph.incoming vertex.id)
  · rw [hids]
    intro other hother
    rcases List.mem_cons.mp hother with rfl | hmem
    · exact hsource
    · exact h.source_mem other hmem
  · rw [hids]
    intro other hother
    rcases List.mem_cons.mp hother with rfl | hmem
    · exact htarget
    · exact h.target_mem other hmem

end Consistent

/-! ## Calls that succeed -/

@[simp] theorem vertexTable_recordVertex (graph : Graph) (id : Int64) :
    (graph.recordVertex id).vertexTable = graph.vertexTable := rfl

@[simp] theorem edgeTable_recordVertex (graph : Graph) (id : Int64) :
    (graph.recordVertex id).edgeTable = graph.edgeTable := rfl

@[simp] theorem vertexTable_recordEdge (graph : Graph) (edge : Edge) :
    (graph.recordEdge edge).vertexTable = graph.vertexTable := rfl

@[simp] theorem edgeTable_recordEdge (graph : Graph) (edge : Edge) :
    (graph.recordEdge edge).edgeTable = graph.edgeTable := rfl

variable {graph next : Graph} {store later : Store} {row : Row} {id : Int64}

/-- An insertion that succeeds has appended the row. -/
theorem insert_eq_ok {table : TableId} (h : store.insert table row = (.ok (), later)) :
    later = store.set table ((store.get table).appendAll [row]) := by
  simp only [Store.insert, Prod.mk.injEq] at h
  obtain ⟨hok, rfl⟩ := h
  obtain ⟨-, -, hnext⟩ := SharedTable.insert_eq_ok_iff.mp (Prod.ext hok rfl)
  exact congrArg (store.set table) hnext

/-- **What a row that was filed has come to**: it could be read, it has been inserted into its table,
and the records are those that go with it. -/
theorem file_eq_ok {table : TableId} {given : Except EngineError (Int64 × Graph)}
    (h : graph.file store table row given = (.ok id, next, later)) :
    given = .ok (id, next) ∧ store.insert table row = (.ok (), later) := by
  cases given with
  | error e => cases h
  | ok added =>
      simp only [file] at h
      rcases hinsert : store.insert table row with ⟨e | _, after⟩
      all_goals rw [hinsert] at h
      all_goals cases h
      exact ⟨rfl, rfl⟩

/-- **What a vertex that was added has come to**: its id was new and is now on record, and its row has
been inserted into the vertex table. -/
theorem addVertex_eq_ok (h : graph.addVertex store row = (.ok id, next, later)) :
    id ∉ graph.vertices.map Vertex.id ∧ next = graph.recordVertex id ∧
      store.insert graph.vertexTable row = (.ok (), later) := by
  obtain ⟨hgiven, hinsert⟩ := file_eq_ok h
  obtain ⟨found, hread, hrecord⟩ := exists_of_map_eq_ok hgiven
  cases hrecord
  rw [readVertex] at hread
  obtain ⟨given, -, hread⟩ := exists_of_bind_eq_ok hread
  split_ifs at hread with hknown
  cases hread
  exact ⟨fun hmem => hknown (isSome_vertex?_iff.mpr hmem), rfl, hinsert⟩

theorem checkEndpoint_eq_ok {edge vertex : Int64}
    (h : graph.checkEndpoint edge vertex = .ok ()) : vertex ∈ graph.vertices.map Vertex.id := by
  rw [checkEndpoint] at h
  split_ifs at h with hknown
  exact isSome_vertex?_iff.mp hknown

/-- **What an edge that was added has come to**: its id was new, its end points were on record, the
edge is on record now, and its row has been inserted into the edge table. -/
theorem addEdge_eq_ok (h : graph.addEdge store row = (.ok id, next, later)) :
    ∃ edge : Edge, edge.id = id ∧ id ∉ graph.edges.map Edge.id ∧
      edge.source ∈ graph.vertices.map Vertex.id ∧ edge.target ∈ graph.vertices.map Vertex.id ∧
      next = graph.recordEdge edge ∧ store.insert graph.edgeTable row = (.ok (), later) := by
  obtain ⟨hgiven, hinsert⟩ := file_eq_ok h
  obtain ⟨edge, hread, hrecord⟩ := exists_of_map_eq_ok hgiven
  cases hrecord
  rw [readEdge] at hread
  obtain ⟨found, -, hread⟩ := exists_of_bind_eq_ok hread
  obtain ⟨source, -, hread⟩ := exists_of_bind_eq_ok hread
  obtain ⟨target, -, hread⟩ := exists_of_bind_eq_ok hread
  split_ifs at hread with hknown
  obtain ⟨_, hsource, hread⟩ := exists_of_bind_eq_ok hread
  obtain ⟨_, htarget, hread⟩ := exists_of_bind_eq_ok hread
  cases hread
  exact ⟨_, rfl, fun hmem => hknown (isSome_edge?_iff.mpr hmem), checkEndpoint_eq_ok hsource,
    checkEndpoint_eq_ok htarget, rfl, hinsert⟩

/-- **A row that a graph refuses changes nothing**, neither the records nor any table. -/
theorem addGraphRow_of_error {given : World.GraphRow} {e : EngineError}
    (h : (World.addGraphRow graph store given).1 = .error e) :
    World.addGraphRow graph store given = (.error e, graph, store) := by
  cases given with
  | vertex row => exact file_of_error h
  | edge row => exact file_of_error h

/-- **What a call does**: it is refused and changes nothing, or it adds a vertex, or it adds an edge. -/
theorem addGraphRow_cases (graph : Graph) (store : Store) (given : World.GraphRow) :
    (∃ e, World.addGraphRow graph store given = (.error e, graph, store)) ∨
    (∃ row id, given = .vertex row ∧ id ∉ graph.vertices.map Vertex.id ∧
      World.addGraphRow graph store given = (.ok id, graph.recordVertex id,
        store.set graph.vertexTable ((store.get graph.vertexTable).appendAll [row]))) ∨
    (∃ row, ∃ edge : Edge, given = .edge row ∧ edge.id ∉ graph.edges.map Edge.id ∧
      edge.source ∈ graph.vertices.map Vertex.id ∧ edge.target ∈ graph.vertices.map Vertex.id ∧
      World.addGraphRow graph store given = (.ok edge.id, graph.recordEdge edge,
        store.set graph.edgeTable ((store.get graph.edgeTable).appendAll [row]))) := by
  rcases hadd : World.addGraphRow graph store given with ⟨e | id, next, later⟩
  · refine .inl ⟨e, ?_⟩
    rw [← hadd]
    exact addGraphRow_of_error (congrArg Prod.fst hadd)
  · cases given with
    | vertex row =>
        obtain ⟨hnew, rfl, hinsert⟩ := addVertex_eq_ok hadd
        obtain rfl := insert_eq_ok hinsert
        exact .inr (.inl ⟨row, id, rfl, hnew, rfl⟩)
    | edge row =>
        obtain ⟨edge, rfl, hnew, hsource, htarget, rfl, hinsert⟩ := addEdge_eq_ok hadd
        obtain rfl := insert_eq_ok hinsert
        exact .inr (.inr ⟨row, edge, rfl, hnew, hsource, htarget, rfl⟩)

/-- A graph keeps its tables. -/
theorem tables_addGraphRow (graph : Graph) (store : Store) (given : World.GraphRow) :
    (World.addGraphRow graph store given).2.1.vertexTable = graph.vertexTable ∧
      (World.addGraphRow graph store given).2.1.edgeTable = graph.edgeTable := by
  rcases addGraphRow_cases graph store given with
    ⟨e, hcall⟩ | ⟨row, id, rfl, -, hcall⟩ | ⟨row, edge, rfl, -, -, -, hcall⟩ <;>
    simp [hcall]

end Graph

/-! ## Ledgers -/

/-- **A graph in use**: the graph, all tables, and the calls so far with their answers, the oldest
first. -/
structure Ledger where
  graph : Graph
  store : Store
  calls : List (World.GraphRow × Except EngineError Int64)

namespace Ledger

/-- **A turn**: the graph is given a row, or others change the tables. -/
inductive Turn where
  | add (row : World.GraphRow)
  | others (change : Store → Store)

def new (name : String) (vertexSchema edgeSchema : Schema) (store : Store) : Ledger :=
  let (graph, store) := Graph.new name vertexSchema edgeSchema store
  ⟨graph, store, []⟩

def turn (ledger : Ledger) : Turn → Ledger
  | .add row =>
    let (outcome, graph, store) := World.addGraphRow ledger.graph ledger.store row
    ⟨graph, store, ledger.calls ++ [(row, outcome)]⟩
  | .others change => { ledger with store := change ledger.store }

def after (ledger : Ledger) : List Turn → Ledger
  | [] => ledger
  | turn :: turns => (ledger.turn turn).after turns

/-- The rows of the vertices that were added, in order. -/
def vertexRows (ledger : Ledger) : List Row :=
  ledger.calls.filterMap fun
    | (.vertex row, .ok _) => some row
    | _ => none

/-- The rows of the edges that were added, in order. -/
def edgeRows (ledger : Ledger) : List Row :=
  ledger.calls.filterMap fun
    | (.edge row, .ok _) => some row
    | _ => none

/-- Others leave two tables alone.  They may hold and release them. -/
def Turn.Spares (vertexTable edgeTable : TableId) : Turn → Prop
  | .add _ => True
  | .others change => ∀ store : Store, store.tables.size ≤ (change store).tables.size ∧
    ((change store).get vertexTable).table = (store.get vertexTable).table ∧
    ((change store).get edgeTable).table = (store.get edgeTable).table

/-! ## What the ledger says of the records -/

/-- **Records that agree with the calls.** -/
structure Recorded (ledger : Ledger) : Prop where
  consistent : ledger.graph.Consistent
  vertices_length : ledger.graph.vertices.length = ledger.vertexRows.length
  edges_length : ledger.graph.edges.length = ledger.edgeRows.length

/-- A turn keeps the records in agreement, whatever it is. -/
theorem Recorded.turn {ledger : Ledger} (h : Recorded ledger) (turn : Turn) :
    Recorded (ledger.turn turn) := by
  cases turn with
  | others change => exact ⟨h.consistent, h.vertices_length, h.edges_length⟩
  | add given =>
      rcases Graph.addGraphRow_cases ledger.graph ledger.store given with
        ⟨e, hrefused⟩ | ⟨row, id, rfl, hnew, hadded⟩ |
        ⟨row, edge, rfl, hnew, hsource, htarget, hadded⟩
      · simp only [Ledger.turn, hrefused]
        refine ⟨h.consistent, ?_, ?_⟩
        · simpa [vertexRows] using h.vertices_length
        · simpa [edgeRows] using h.edges_length
      · simp only [Ledger.turn, hadded]
        refine ⟨h.consistent.recordVertex hnew, ?_, ?_⟩
        · simpa [vertexRows, Graph.recordVertex] using h.vertices_length
        · simpa [edgeRows, Graph.recordVertex] using h.edges_length
      · simp only [Ledger.turn, hadded]
        refine ⟨h.consistent.recordEdge hnew hsource htarget, ?_, ?_⟩
        · simpa [vertexRows, Graph.recordEdge] using h.vertices_length
        · simpa [edgeRows, Graph.recordEdge] using h.edges_length

/-- **So does any number of turns.** -/
theorem Recorded.after {ledger : Ledger} (h : Recorded ledger) (turns : List Turn) :
    Recorded (ledger.after turns) := by
  induction turns generalizing ledger with
  | nil => exact h
  | cons turn turns ih => exact ih (h.turn turn)

/-! ## What it says of the tables -/

/-- **Tables that hold the rows that were taken**, in order. -/
structure Filed (ledger : Ledger) : Prop where
  vertices_lt : ledger.graph.vertexTable < ledger.store.tables.size
  edges_lt : ledger.graph.edgeTable < ledger.store.tables.size
  tables_ne : ledger.graph.vertexTable ≠ ledger.graph.edgeTable
  vertexRows_eq :
    (ledger.store.get ledger.graph.vertexTable).table.rows.toList = ledger.vertexRows
  edgeRows_eq : (ledger.store.get ledger.graph.edgeTable).table.rows.toList = ledger.edgeRows

theorem tables_turn (ledger : Ledger) (turn : Turn) :
    (ledger.turn turn).graph.vertexTable = ledger.graph.vertexTable ∧
      (ledger.turn turn).graph.edgeTable = ledger.graph.edgeTable := by
  cases turn with
  | others change => exact ⟨rfl, rfl⟩
  | add given => exact Graph.tables_addGraphRow ledger.graph ledger.store given

theorem tables_after (ledger : Ledger) (turns : List Turn) :
    (ledger.after turns).graph.vertexTable = ledger.graph.vertexTable ∧
      (ledger.after turns).graph.edgeTable = ledger.graph.edgeTable := by
  induction turns generalizing ledger with
  | nil => exact ⟨rfl, rfl⟩
  | cons turn turns ih =>
      obtain ⟨hvertices, hedges⟩ := ledger.tables_turn turn
      rw [after, (ih (ledger.turn turn)).1, (ih (ledger.turn turn)).2]
      exact ⟨hvertices, hedges⟩

/-- **A turn keeps the tables filed** if others leave them alone. -/
theorem Filed.turn {ledger : Ledger} (h : Filed ledger) {turn : Turn}
    (hspares : turn.Spares ledger.graph.vertexTable ledger.graph.edgeTable) :
    Filed (ledger.turn turn) := by
  cases turn with
  | others change =>
      obtain ⟨hsize, hvertices, hedges⟩ := hspares ledger.store
      refine ⟨Nat.lt_of_lt_of_le h.vertices_lt hsize, Nat.lt_of_lt_of_le h.edges_lt hsize,
        h.tables_ne, ?_, ?_⟩
      · exact (congrArg (fun table : Table => table.rows.toList) hvertices).trans h.vertexRows_eq
      · exact (congrArg (fun table : Table => table.rows.toList) hedges).trans h.edgeRows_eq
  | add given =>
      rcases Graph.addGraphRow_cases ledger.graph ledger.store given with
        ⟨e, hcall⟩ | ⟨row, id, rfl, -, hcall⟩ | ⟨row, edge, rfl, -, -, -, hcall⟩
      · simp only [Ledger.turn, hcall]
        refine ⟨h.vertices_lt, h.edges_lt, h.tables_ne, ?_, ?_⟩
        · simpa [vertexRows] using h.vertexRows_eq
        · simpa [edgeRows] using h.edgeRows_eq
      · simp only [Ledger.turn, hcall]
        refine ⟨?_, ?_, h.tables_ne, ?_, ?_⟩
        · simpa using h.vertices_lt
        · simpa using h.edges_lt
        · simp [Store.get_set, h.vertices_lt, vertexRows, h.vertexRows_eq]
        · simp [Store.get_set, h.tables_ne, edgeRows, h.edgeRows_eq]
      · simp only [Ledger.turn, hcall]
        refine ⟨?_, ?_, h.tables_ne, ?_, ?_⟩
        · simpa using h.vertices_lt
        · simpa using h.edges_lt
        · simp [Store.get_set, h.tables_ne.symm, vertexRows, h.vertexRows_eq]
        · simp [Store.get_set, h.edges_lt, edgeRows, h.edgeRows_eq]

theorem Filed.after {ledger : Ledger} (h : Filed ledger) {turns : List Turn}
    (hspares : ∀ turn ∈ turns, turn.Spares ledger.graph.vertexTable ledger.graph.edgeTable) :
    Filed (ledger.after turns) := by
  induction turns generalizing ledger with
  | nil => exact h
  | cons turn turns ih =>
      rw [List.forall_mem_cons] at hspares
      obtain ⟨hvertices, hedges⟩ := ledger.tables_turn turn
      refine ih (h.turn hspares.1) ?_
      rw [hvertices, hedges]
      exact hspares.2

/-! ## New graphs -/

theorem recorded_new (name : String) (vertexSchema edgeSchema : Schema) (store : Store) :
    Recorded (new name vertexSchema edgeSchema store) :=
  ⟨.empty name _ _, rfl, rfl⟩

/-- A new graph has two new tables without rows. -/
theorem filed_new (name : String) (vertexSchema edgeSchema : Schema) (store : Store) :
    Filed (new name vertexSchema edgeSchema store) := by
  have hfirst : (store.add (.empty (name ++ "_vertexes") vertexSchema)).1 <
      (store.add (.empty (name ++ "_vertexes") vertexSchema)).2.tables.size := by
    simp [Store.add]
  constructor
  · show store.tables.size < ((store.tables.push _).push _).size
    rw [Array.size_push, Array.size_push]
    omega
  · simp [new, Graph.new, Store.add]
  · simp [new, Graph.new, Store.add]
  · simp only [new, Graph.new]
    rw [Store.get_add_of_lt _ hfirst, Store.get_add_self]
    rfl
  · simp only [new, Graph.new]
    rw [Store.get_add_self]
    rfl

/-- **The records of a graph agree with the calls.**  Let a new graph be given any rows, while others
do anything to the tables in between.  Then, at any time,

* its records are consistent, and each is found under its own id;
* it has as many vertices and edges as there were calls that succeeded;
* the next call, if it fails, changes neither the records nor any table;
* and if others have left the rows of its two tables alone, these are the rows of the calls that
  succeeded, in order. -/
theorem after_new (name : String) (vertexSchema edgeSchema : Schema) (store : Store)
    (turns : List Turn) :
    let now := (new name vertexSchema edgeSchema store).after turns
    let graph := now.graph
    graph.Consistent ∧
      (∀ id vertex, graph.vertex? id = some vertex ↔ vertex ∈ graph.vertices ∧ vertex.id = id) ∧
      (∀ id edge, graph.edge? id = some edge ↔ edge ∈ graph.edges ∧ edge.id = id) ∧
      graph.vertices.length = now.vertexRows.length ∧ graph.edges.length = now.edgeRows.length ∧
      (∀ given e, (World.addGraphRow graph now.store given).1 = .error e →
        (World.addGraphRow graph now.store given).2 = (graph, now.store)) ∧
      ((∀ turn ∈ turns, turn.Spares graph.vertexTable graph.edgeTable) →
        (now.store.get graph.vertexTable).table.rows.toList = now.vertexRows ∧
        (now.store.get graph.edgeTable).table.rows.toList = now.edgeRows) := by
  intro now graph
  have hrecorded : Recorded now := (recorded_new name vertexSchema edgeSchema store).after turns
  have hconsistent : graph.Consistent := hrecorded.consistent
  refine ⟨hconsistent, fun _ _ => hconsistent.vertex?_eq_some_iff,
    fun _ _ => hconsistent.edge?_eq_some_iff, hrecorded.vertices_length, hrecorded.edges_length,
    ?_, ?_⟩
  · intro given e herror
    rw [Graph.addGraphRow_of_error herror]
  · intro hspares
    obtain ⟨hvertices, hedges⟩ := tables_after (new name vertexSchema edgeSchema store) turns
    rw [show graph.vertexTable = _ from hvertices, show graph.edgeTable = _ from hedges] at hspares
    have hfiled : Filed now := (filed_new name vertexSchema edgeSchema store).after hspares
    exact ⟨hfiled.vertexRows_eq, hfiled.edgeRows_eq⟩

/-! ### An example: two vertices and two edges -/

/-- Others hold a table, or release it. -/
def holdTable (id : TableId) (hold : Hold) : Turn :=
  .others fun store => store.set id { store.get id with hold }

theorem spares_holdTable (id : TableId) (hold : Hold) (vertexTable edgeTable : TableId) :
    (holdTable id hold).Spares vertexTable edgeTable := by
  intro store
  refine ⟨Nat.le_of_eq (store.size_set id _).symm, ?_, ?_⟩
  · rw [Store.get_set]
    split_ifs with h
    · rw [h.1]
    · rfl
  · rw [Store.get_set]
    split_ifs with h
    · rw [h.1]
    · rfl

/-- Rows for vertices, all but the first two refused: an id that is no integer, an id that is known, a
table that is held. -/
def vertexTurns : List Turn :=
  [.add (.vertex [.int 1]), .add (.vertex [.int 2]), .add (.vertex [.text "x"]),
    .add (.vertex [.int 1]), holdTable 0 .readers, .add (.vertex [.int 3]), holdTable 0 .free]

/-- Rows for edges, all but the first two refused: an id that is known, an end point that is not, a row
of another shape. -/
def edgeTurns : List Turn :=
  [.add (.edge [.int 7, .int 1, .int 1]), .add (.edge [.int 8, .int 1, .int 2]),
    .add (.edge [.int 8, .int 2, .int 2]), .add (.edge [.int 9, .int 1, .int 3]),
    .add (.edge [.int 9, .int 1, .int 2, .null])]

/-- The loop counts in both degrees of the first vertex. -/
theorem after_new_twoVertices :
    let edgeSchema : Schema := ⟨[⟨"id", .int⟩, ⟨"from_id", .int⟩, ⟨"to_id", .int⟩]⟩
    let now := (new "people" ⟨[⟨"id", .int⟩]⟩ edgeSchema .empty).after (vertexTurns ++ edgeTurns)
    now.calls.length = 10 ∧ now.graph.vertices = [⟨2, 0, 1⟩, ⟨1, 2, 1⟩] ∧
      now.graph.edges = [⟨8, 1, 2⟩, ⟨7, 1, 1⟩] ∧ now.graph.Consistent ∧
      (World.addGraphRow now.graph now.store (.vertex [.int 2])).2 = (now.graph, now.store) ∧
      (now.store.get now.graph.vertexTable).table.rows.toList = now.vertexRows ∧
      now.vertexRows = [[.int 1], [.int 2]] ∧
      (now.store.get now.graph.edgeTable).table.rows.toList = now.edgeRows ∧
      now.edgeRows = [[.int 7, .int 1, .int 1], [.int 8, .int 1, .int 2]] := by
  intro edgeSchema now
  have hclaim := after_new "people" ⟨[⟨"id", .int⟩]⟩ edgeSchema .empty (vertexTurns ++ edgeTurns)
  -- The ledger is named, so that nothing below has to compute it to compare it with itself.
  have hnow : now =
    (new "people" ⟨[⟨"id", .int⟩]⟩ edgeSchema .empty).after (vertexTurns ++ edgeTurns) := rfl
  rw [← hnow] at hclaim
  clear_value now
  obtain ⟨hconsistent, -, -, -, -, hrefused, htables⟩ := hclaim
  have hspares (vertexTable edgeTable : TableId) :
      ∀ turn ∈ vertexTurns ++ edgeTurns, turn.Spares vertexTable edgeTable := by
    simp only [vertexTurns, edgeTurns, List.cons_append, List.nil_append, List.forall_mem_cons]
    refine ⟨trivial, trivial, trivial, trivial, spares_holdTable _ _ _ _, trivial,
      spares_holdTable _ _ _ _, trivial, trivial, trivial, trivial, trivial, ?_⟩
    intro turn hturn
    cases hturn
  obtain ⟨hvertices, hedges⟩ := htables (hspares _ _)
  have hduplicate : (World.addGraphRow now.graph now.store (.vertex [.int 2])).1 =
      .error (.duplicateElement "people" .vertex 2) := by
    simp only [hnow, edgeSchema]
    cbv
  refine ⟨?_, ?_, ?_, hconsistent, hrefused _ _ hduplicate, hvertices, ?_, hedges, ?_⟩ <;>
    simp only [hnow, edgeSchema] <;> cbv

end Ledger

/-- The rows that a graph is made with are turns like any others. -/
theorem World.addGraphRows_eq (graph : Graph) (store : Store)
    (calls : List (World.GraphRow × Except EngineError Int64)) (rows : List World.GraphRow) :
    let now := Ledger.after ⟨graph, store, calls⟩ (rows.map .add)
    (World.addGraphRows graph store rows).2 = (now.graph, now.store) ∧
      now.calls = calls ++ rows.zip (World.addGraphRows graph store rows).1 := by
  induction rows generalizing graph store calls with
  | nil => simp [addGraphRows, Ledger.after]
  | cons row rows ih =>
      rcases hcall : addGraphRow graph store row with ⟨outcome, next, later⟩
      obtain ⟨hstate, hcalls⟩ := ih next later (calls ++ [(row, outcome)])
      simp only [addGraphRows, List.map_cons, Ledger.after, Ledger.turn, hcall]
      refine ⟨hstate, ?_⟩
      rw [hcalls, List.zip_cons_cons, List.append_assoc, List.singleton_append]

/-- **The graphs of a world have consistent records.** -/
theorem World.consistent_addGraph (world : World) (name : String)
    (vertexSchema edgeSchema : Schema) (rows : List World.GraphRow) :
    (world.addGraph name vertexSchema edgeSchema rows).2.1.Consistent := by
  have hrecorded := (Ledger.recorded_new name vertexSchema edgeSchema world.store).after
    (rows.map .add)
  have hrows := (World.addGraphRows_eq (Graph.new name vertexSchema edgeSchema world.store).1
    (Graph.new name vertexSchema edgeSchema world.store).2 [] rows).1
  exact (congrArg Prod.fst hrows).symm ▸ hrecorded.consistent

end GraphScan
