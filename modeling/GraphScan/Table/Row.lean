import GraphScan.Error

/-!
# Rows

A row is a list of cells; its width is its length.  Cells are read by position, and a position
beyond the width holds nothing and cannot be written.
-/

namespace GraphScan

/-- **A row of a table.** -/
abbrev Row := List Value

namespace Row

def nulls (width : Nat) : Row :=
  List.replicate width .null

/-- **Writes one cell.**  A position beyond the width is refused. -/
def put (row : Row) (index : Nat) (value : Value) : Except EngineError Row :=
  if index < row.length then .ok (row.set index value)
  else .error (.cellOutOfRange index row.length)

def render (row : Row) : String :=
  "(" ++ ", ".intercalate (row.map Value.render) ++ ")"

@[simp] theorem length_nulls (width : Nat) : (nulls width).length = width := by
  simp [nulls]

theorem put_of_lt {row : Row} {index : Nat} (value : Value) (h : index < row.length) :
    row.put index value = .ok (row.set index value) := by
  simp [put, h]

/-- A cell is written within the row, and leaves its length. -/
theorem lt_of_put {row image : Row} {index : Nat} {value : Value}
    (h : row.put index value = .ok image) : index < row.length ∧ image.length = row.length := by
  by_cases hlt : index < row.length
  · rw [put_of_lt value hlt] at h
    cases h
    exact ⟨hlt, List.length_set⟩
  · simp [put, hlt] at h

end Row

end GraphScan
