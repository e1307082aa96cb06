import GraphScan.Table.Shared
import Mathlib.Data.List.Forall2

/-!
# Rows that fit

A table takes exactly the rows that fit its schema.

* `Schema.Fits` — a cell for each column, and each column accepts its cell.
* `Table.check_eq_ok_iff` — the check of a table is this property.
* `Table.appendAll` — rows put behind those of a table, one after the other.  This is what a series
  of insertions amounts to where nothing is refused.
-/

namespace GraphScan

/-- **Whether a row fits a schema**: it has a cell for each column, and the column accepts it. -/
def Schema.Fits (schema : Schema) (row : Row) : Prop :=
  List.Forall₂ (fun column value => column.type.accepts value = true) schema.columns row

/-- A column accepts nulls and the values of its own kind. -/
theorem ColumnType.accepts_iff {type : ColumnType} {value : Value} :
    type.accepts value = true ↔ value = .null ∨ value.kind = type.kind := by
  cases value <;> simp [accepts, Value.isNull, Value.kind]

/-- **A row fits if it has the width of the schema**, and each of its values is null or of the kind of
its column. -/
theorem Schema.fits_iff {schema : Schema} {row : Row} :
    schema.Fits row ↔ row.length = schema.width ∧ ∀ index value column,
      row[index]? = some value → schema.column? index = some column →
        value = .null ∨ value.kind = column.type.kind := by
  simp only [Fits, width, column?, List.forall₂_iff_get, List.get_eq_getElem,
    ColumnType.accepts_iff, List.getElem?_eq_some_iff]
  constructor
  · rintro ⟨hlength, hcells⟩
    refine ⟨hlength.symm, ?_⟩
    rintro index value column ⟨hvalue, rfl⟩ ⟨hcolumn, rfl⟩
    exact hcells index hcolumn hvalue
  · rintro ⟨hlength, hcells⟩
    exact ⟨hlength.symm, fun index hcolumn hvalue =>
      hcells index _ _ ⟨hvalue, rfl⟩ ⟨hcolumn, rfl⟩⟩

namespace Table

/-- Among as many cells as columns there is no misfit exactly if each column accepts its cell. -/
theorem misfit?_eq_none_iff {columns : List Column} {row : Row}
    (h : row.length = columns.length) (index : Nat) :
    misfit? index row columns = none ↔
      List.Forall₂ (fun column value => column.type.accepts value = true) columns row := by
  induction columns generalizing row index with
  | nil =>
      have hnil : row = [] := List.eq_nil_of_length_eq_zero h
      subst hnil
      simp [misfit?]
  | cons column columns ih =>
      cases row with
      | nil => simp at h
      | cons value row =>
          have hlen : row.length = columns.length := by simpa using h
          by_cases haccepts : column.type.accepts value = true
          · simp [misfit?, haccepts, ih hlen]
          · simp [misfit?, haccepts]

/-- **A table checks whether a row fits its schema.** -/
theorem check_eq_ok_iff (table : Table) (row : Row) :
    table.check row = .ok () ↔ table.schema.Fits row := by
  rw [check, Schema.Fits]
  by_cases hwidth : row.length = table.schema.width
  · rw [if_neg (not_not_intro hwidth), ← misfit?_eq_none_iff hwidth 0]
    cases misfit? 0 row table.schema.columns <;> simp
  · rw [if_pos hwidth]
    constructor
    · intro h
      simp at h
    · intro h
      exact absurd h.length_eq.symm hwidth

/-- A table refuses exactly the rows that do not fit. -/
theorem insert_refused_iff (table : Table) (row : Row) :
    (∃ e, (table.insert row).1 = .error e) ↔ ¬ table.schema.Fits row := by
  rw [← check_eq_ok_iff, insert]
  cases table.check row <;> simp

/-- **The table with rows behind its own.** -/
def appendAll (table : Table) (rows : List Row) : Table :=
  rows.foldl append table

@[simp] theorem appendAll_nil (table : Table) : table.appendAll [] = table := rfl

@[simp] theorem appendAll_cons (table : Table) (row : Row) (rows : List Row) :
    table.appendAll (row :: rows) = (table.append row).appendAll rows := rfl

theorem appendAll_append (table : Table) (rows others : List Row) :
    table.appendAll (rows ++ others) = (table.appendAll rows).appendAll others :=
  List.foldl_append

@[simp] theorem toList_rows_appendAll (table : Table) (rows : List Row) :
    (table.appendAll rows).rows.toList = table.rows.toList ++ rows := by
  induction rows generalizing table with
  | nil => simp
  | cons row rows ih => simp [ih]

@[simp] theorem name_appendAll (table : Table) (rows : List Row) :
    (table.appendAll rows).name = table.name := by
  induction rows generalizing table with
  | nil => rfl
  | cons row rows ih => simp [ih, append]

@[simp] theorem schema_appendAll (table : Table) (rows : List Row) :
    (table.appendAll rows).schema = table.schema := by
  induction rows generalizing table with
  | nil => rfl
  | cons row rows ih => simp [ih]

end Table

namespace SharedTable

/-- The table with rows behind its own, held as before. -/
def appendAll (shared : SharedTable) (rows : List Row) : SharedTable :=
  { shared with table := shared.table.appendAll rows }

@[simp] theorem appendAll_nil (shared : SharedTable) : shared.appendAll [] = shared := rfl

@[simp] theorem hold_appendAll (shared : SharedTable) (rows : List Row) :
    (shared.appendAll rows).hold = shared.hold := rfl

@[simp] theorem table_appendAll (shared : SharedTable) (rows : List Row) :
    (shared.appendAll rows).table = shared.table.appendAll rows := rfl

@[simp] theorem appendAll_appendAll (shared : SharedTable) (rows others : List Row) :
    (shared.appendAll rows).appendAll others = shared.appendAll (rows ++ others) := by
  simp [appendAll, Table.appendAll_append]

/-- An insertion succeeds exactly into a table that nobody holds and that the row fits, and then
appends the row. -/
theorem insert_eq_ok_iff {shared next : SharedTable} {row : Row} :
    shared.insert row = (.ok (), next) ↔
      shared.hold = .free ∧ shared.table.schema.Fits row ∧ next = shared.appendAll [row] := by
  obtain ⟨table, hold⟩ := shared
  rw [← Table.check_eq_ok_iff]
  cases hold with
  | free =>
      simp only [insert, write, Table.insert]
      cases table.check row <;> simp [appendAll, eq_comm]
  | readers | writer => simp [insert, write]

/-- **What an insertion comes to**: it is refused and changes nothing, or it appends a row that fits. -/
theorem insert_cases (shared : SharedTable) (row : Row) :
    (∃ e, shared.insert row = (.error e, shared)) ∨
      shared.hold = .free ∧ shared.table.schema.Fits row ∧
        shared.insert row = (.ok (), shared.appendAll [row]) := by
  rcases hinsert : shared.insert row with ⟨e | _, next⟩
  · refine .inl ⟨e, ?_⟩
    rw [← hinsert]
    exact insert_of_error (congrArg Prod.fst hinsert)
  · obtain ⟨hfree, hfits, rfl⟩ := insert_eq_ok_iff.mp hinsert
    exact .inr ⟨hfree, hfits, rfl⟩

end SharedTable

end GraphScan
