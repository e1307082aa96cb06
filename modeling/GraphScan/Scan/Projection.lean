import GraphScan.Expr.Eval
import GraphScan.Graph.Basic

/-!
# Projecting rows

A projection turns a row of a graph into its image: the values of some expressions, and behind them
the two degrees of the row's vertex.  The image is written cell by cell into a scratch row.

* `Projection.apply` — the image, with every write checked.
* `Projection.apply_eq` — on a scratch row of the right width no write is refused and nothing of the
  scratch row is left: the image is the values followed by the degrees.
* `Projection.apply_of_used` — so an image serves as the next scratch row.
-/

namespace GraphScan

/-- The record of the vertex that a row belongs to, by the id in its first cell. -/
def Graph.vertexOf (graph : Graph) (row : Row) : Except EngineError Vertex :=
  match row.head? with
  | some (.int id) =>
    match graph.vertex? id with
    | some vertex => .ok vertex
    | none => .error (.vertexMissing graph.name id)
  | found => .error (.vertexIdNotInteger graph.name (found.map Value.kind))

/-- The degrees of a vertex as cells: the edges that leave it, then those that enter it. -/
def Vertex.degrees (vertex : Vertex) : Row :=
  [.int (Int64.ofNat vertex.fanOut), .int (Int64.ofNat vertex.fanIn)]

namespace Projection

/-- Writes the values of expressions on `row` into a scratch row, from a position on. -/
def fill (row : Row) (index : Nat) (scratch : Row) : List Expr → Except EngineError Row
  | [] => .ok scratch
  | expr :: exprs => do
    let value ← expr.eval row
    let scratch ← scratch.put index value
    fill row (index + 1) scratch exprs

/-- Writes cells into a scratch row, from a position on. -/
def place (index : Nat) (scratch : Row) : Row → Except EngineError Row
  | [] => .ok scratch
  | value :: values => do
    let scratch ← scratch.put index value
    place (index + 1) scratch values

/-- **The image of a row**, written into a scratch row. -/
def apply (projection : Projection) (graph : Graph) (scratch row : Row) :
    Except EngineError Row := do
  let vertex ← graph.vertexOf row
  let image ← fill row 0 scratch projection.exprs
  place projection.exprs.length image vertex.degrees

/-! ## Writing within the width -/

/-- A cell written at a position is the last of those up to it. -/
theorem take_set_succ {scratch : Row} {index : Nat} (value : Value) (h : index < scratch.length) :
    (scratch.set index value).take (index + 1) = scratch.take index ++ [value] := by
  rw [List.take_add_one, List.take_set_of_le (Nat.le_refl _)]
  simp [h]

/-- A cell written at a position is not among those behind it. -/
theorem drop_set_succ (scratch : Row) (index count : Nat) (value : Value) :
    (scratch.set index value).drop (index + 1 + count) = scratch.drop (index + (count + 1)) := by
  rw [List.drop_set_of_lt (by omega), Nat.add_assoc, Nat.add_comm 1]

/-- Where they fit, cells replace what stood in their places. -/
theorem place_eq (values : Row) (index : Nat) (scratch : Row)
    (h : index + values.length ≤ scratch.length) :
    place index scratch values =
      .ok (scratch.take index ++ values ++ scratch.drop (index + values.length)) := by
  induction values generalizing index scratch with
  | nil => simp [place]
  | cons value values ih =>
    rw [List.length_cons] at h
    have hlt : index < scratch.length := by omega
    simp only [place, Row.put_of_lt value hlt, bind, Except.bind]
    rw [ih (index + 1) (scratch.set index value) (by rw [List.length_set]; omega),
      take_set_succ value hlt, drop_set_succ]
    simp

/-- Filling in expressions is filling in their values. -/
theorem fill_eq (row : Row) (exprs : List Expr) (index : Nat) (scratch : Row)
    (h : index + exprs.length ≤ scratch.length) :
    fill row index scratch exprs = (Expr.evalEach row exprs).map fun values =>
      scratch.take index ++ values ++ scratch.drop (index + exprs.length) := by
  induction exprs generalizing index scratch with
  | nil => simp [fill, Expr.evalEach, Except.map]
  | cons expr exprs ih =>
    rw [List.length_cons] at h
    have hlt : index < scratch.length := by omega
    simp only [fill, Expr.evalEach, bind, Except.bind]
    cases expr.eval row with
    | error e => rfl
    | ok value =>
      simp only [Row.put_of_lt value hlt]
      rw [ih (index + 1) (scratch.set index value) (by rw [List.length_set]; omega),
        take_set_succ value hlt, drop_set_succ]
      cases Expr.evalEach row exprs with
      | error e => rfl
      | ok values => simp [Except.map]

/-- Where the image fits, it replaces the front of the scratch row and leaves the cells behind it. -/
theorem apply_of_le (projection : Projection) (graph : Graph) (scratch row : Row)
    (h : projection.exprs.length + degreeColumns ≤ scratch.length) :
    projection.apply graph scratch row =
      (graph.vertexOf row).bind fun vertex =>
        (Expr.evalEach row projection.exprs).map fun values =>
          values ++ vertex.degrees ++ scratch.drop (projection.exprs.length + degreeColumns) := by
  rw [degreeColumns] at h ⊢
  simp only [apply, bind, Except.bind]
  cases graph.vertexOf row with
  | error e => rfl
  | ok vertex =>
    dsimp only
    rw [fill_eq row projection.exprs 0 scratch (by omega)]
    cases heval : Expr.evalEach row projection.exprs with
    | error e => rfl
    | ok values =>
      have hlen : values.length = projection.exprs.length :=
        Expr.length_of_evalEach_eq_ok heval
      simp only [Except.map, List.take_zero, List.nil_append, Nat.zero_add, ← hlen]
      rw [place_eq _ _ _ (by simp [Vertex.degrees]; omega)]
      simp [Vertex.degrees]

/-- **On a scratch row of the declared width** the image is the values of the expressions followed
by the degrees, and it fails only where the vertex or an expression does. -/
theorem apply_eq (projection : Projection) (graph : Graph) (scratch row : Row)
    (h : scratch.length = projection.exprs.length + degreeColumns) :
    projection.apply graph scratch row =
      (graph.vertexOf row).bind fun vertex =>
        (Expr.evalEach row projection.exprs).map fun values => values ++ vertex.degrees := by
  simp only [apply_of_le projection graph scratch row (Nat.le_of_eq h.symm), ← h, List.drop_length,
    List.append_nil]

/-! ## Using a scratch row again -/

theorem length_of_fill {row scratch image : Row} {exprs : List Expr} {index : Nat}
    (h : fill row index scratch exprs = .ok image) : image.length = scratch.length := by
  induction exprs generalizing index scratch with
  | nil =>
    cases h
    rfl
  | cons expr exprs ih =>
    simp only [fill, bind, Except.bind] at h
    cases heval : expr.eval row with
    | error e => simp [heval] at h
    | ok value =>
      cases hput : scratch.put index value with
      | error e => simp [heval, hput] at h
      | ok filled =>
        simp only [heval, hput] at h
        rw [ih h, (Row.lt_of_put hput).2]

/-- An image that has been written did fit. -/
theorem le_of_apply {projection : Projection} {graph : Graph} {scratch row image : Row}
    (h : projection.apply graph scratch row = .ok image) :
    projection.exprs.length + degreeColumns ≤ scratch.length := by
  simp only [apply, bind, Except.bind] at h
  cases hvertex : graph.vertexOf row with
  | error e => simp [hvertex] at h
  | ok vertex =>
    cases hfill : fill row 0 scratch projection.exprs with
    | error e => simp [hvertex, hfill] at h
    | ok filled =>
      cases hfirst : filled.put projection.exprs.length (.int (Int64.ofNat vertex.fanOut)) with
      | error e => simp [hvertex, hfill, Vertex.degrees, place, bind, Except.bind, hfirst] at h
      | ok placed =>
        cases hsecond : placed.put (projection.exprs.length + 1)
            (.int (Int64.ofNat vertex.fanIn)) with
        | error e =>
          simp [hvertex, hfill, Vertex.degrees, place, bind, Except.bind, hfirst, hsecond] at h
        | ok image =>
          rw [← length_of_fill hfill, ← (Row.lt_of_put hfirst).2]
          exact (Row.lt_of_put hsecond).1

/-- Behind the cells that were written, an image has the cells of its scratch row. -/
theorem eq_append_of_apply {projection : Projection} {graph : Graph} {scratch row image : Row}
    (h : projection.apply graph scratch row = .ok image) :
    ∃ cells : Row, cells.length = projection.exprs.length + degreeColumns ∧
      image = cells ++ scratch.drop (projection.exprs.length + degreeColumns) := by
  rw [apply_of_le projection graph scratch row (le_of_apply h)] at h
  obtain ⟨vertex, -, hvalues⟩ := exists_of_bind_eq_ok h
  obtain ⟨values, heval, rfl⟩ := exists_of_map_eq_ok hvalues
  refine ⟨values ++ vertex.degrees, ?_, rfl⟩
  rw [List.length_append, Expr.length_of_evalEach_eq_ok heval]
  rfl

/-- **An image serves as the next scratch row** as well as the row that it was written into. -/
theorem apply_of_used {projection : Projection} {graph : Graph} {scratch row image : Row}
    (h : projection.apply graph scratch row = .ok image) (other : Row) :
    projection.apply graph image other = projection.apply graph scratch other := by
  obtain ⟨cells, hlength, rfl⟩ := eq_append_of_apply h
  rw [apply_of_le projection graph scratch other (le_of_apply h),
    apply_of_le projection graph _ other (by rw [List.length_append]; omega), List.drop_left' hlength]

end Projection

end GraphScan
