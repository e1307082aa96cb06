import GraphScan.Table.Row

/-!
# Tables

A table is a queue of rows of one schema: rows enter at the back and are consumed from the front.

* `Table.insert` — checks a row against the schema and appends it; a refused row changes nothing.
* `Table.consume` — takes rows from the front and gives the rest.
* `Table.allocated` — the greatest number of rows the table has held at once.  Consuming does not
  lower it, and refilling the room so gained does not raise it.
-/

namespace GraphScan

/-- **A table**: a name, a schema, the rows it holds and its high-water mark. -/
structure Table where
  name : String
  schema : Schema
  rows : Array Row
  allocated : Nat
deriving DecidableEq, Inhabited

namespace Table

def empty (name : String) (schema : Schema) : Table :=
  ⟨name, schema, #[], 0⟩

def active (table : Table) : Nat :=
  table.rows.size

/-- The all-null row of the table's width. -/
def scratch (table : Table) : Row :=
  Row.nulls table.schema.width

/-! ## Inserting -/

/-- The first cell of a row that does not fit its column, with its position counted from
`index`. -/
def misfit? (index : Nat) : Row → List Column → Option (Nat × Column × Kind)
  | value :: row, column :: columns =>
    if column.type.accepts value then misfit? (index + 1) row columns
    else some (index, column, value.kind)
  | _, _ => none

/-- **Whether a row fits the schema**: in width first, then cell by cell. -/
def check (table : Table) (row : Row) : Except EngineError Unit :=
  if row.length ≠ table.schema.width then
    .error (.rowWidth table.name table.schema.width row.length)
  else match misfit? 0 row table.schema.columns with
    | some (index, column, found) => .error (.cellType table.name index column found)
    | none => .ok ()

def append (table : Table) (row : Row) : Table :=
  let rows := table.rows.push row
  { table with rows, allocated := max table.allocated rows.size }

/-- **Inserts a row** that fits. -/
def insert (table : Table) (row : Row) : Except EngineError Unit × Table :=
  match table.check row with
  | .ok () => (.ok (), table.append row)
  | .error e => (.error e, table)

/-! ## Consuming -/

/-- The table with other rows in place of its own; the high-water mark stays. -/
def withRows (table : Table) (rows : List Row) : Table :=
  { table with rows := rows.toArray }

/-- **Consumes rows from the front**, as many as asked for or all of them. -/
def consume (table : Table) (count : Option Nat) : List Row × Table :=
  let rows := table.rows.toList
  let count := count.getD rows.length
  (rows.take count, table.withRows (rows.drop count))

/-! ## What is in a table

The operations by what they do to the list of rows and to the high-water mark.
-/

@[simp] theorem toList_rows_append (table : Table) (row : Row) :
    (table.append row).rows.toList = table.rows.toList ++ [row] := by
  simp [append]

@[simp] theorem schema_append (table : Table) (row : Row) :
    (table.append row).schema = table.schema := rfl

@[simp] theorem allocated_append (table : Table) (row : Row) :
    (table.append row).allocated = max table.allocated (table.active + 1) := by
  simp [append, active]

/-- An insertion succeeds exactly on the rows that pass the check, and then appends. -/
theorem insert_eq_ok_iff {table next : Table} {row : Row} :
    table.insert row = (.ok (), next) ↔ table.check row = .ok () ∧ next = table.append row := by
  rw [insert]
  cases table.check row with
  | ok u => simp [eq_comm]
  | error e => simp

/-- **A row that is refused changes nothing.** -/
theorem insert_of_error {table : Table} {row : Row} {e : EngineError}
    (h : (table.insert row).1 = .error e) : table.insert row = (.error e, table) := by
  rw [insert] at h ⊢
  cases hcheck : table.check row with
  | ok u => simp [hcheck] at h
  | error e' => simpa [hcheck] using h

@[simp] theorem toList_rows_withRows (table : Table) (rows : List Row) :
    (table.withRows rows).rows.toList = rows := by
  simp [withRows]

/-- **Consuming loses nothing**: the rows taken and the rows left are the rows there were. -/
theorem consume_append_rest (table : Table) (count : Option Nat) :
    (table.consume count).1 ++ (table.consume count).2.rows.toList = table.rows.toList := by
  simp [consume]

@[simp] theorem allocated_consume (table : Table) (count : Option Nat) :
    (table.consume count).2.allocated = table.allocated := rfl

/-! ## Listing -/

/-- **A listing**: one line about the table, then one line per row. -/
def render (table : Table) : String :=
  let active := table.active
  let allocated := table.allocated
  let header :=
    "Table " ++ table.name ++ " (" ++ table.schema.render ++ s!") active={active} " ++
      s!"allocated={allocated}\n"
  String.join (header :: table.rows.toList.map fun row => "  " ++ Row.render row ++ "\n")

end Table

end GraphScan
