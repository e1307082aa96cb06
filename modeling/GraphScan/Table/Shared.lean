import GraphScan.Table.Basic

/-!
# Shared tables

Tables are shared between graphs, scans and their clients.  Whoever keeps a table in use holds it:
any number of readers, or one writer.

* `SharedTable.read` — fails exactly under a writer's hold.
* `SharedTable.write` — fails under any hold.
* `SharedTable.insert`, `SharedTable.consume`, `SharedTable.holdShared`, `SharedTable.holdExclusive` —
  what can be done to a shared table, with its outcome; what fails changes nothing.
* `Store` — the tables of a session, each under its number; two parties share a table when they
  know it by the same number.
-/

namespace GraphScan

inductive Hold where
  | free
  | readers
  | writer
deriving DecidableEq, Repr, Inhabited

/-- **A table and how it is held.** -/
structure SharedTable where
  table : Table
  hold : Hold
deriving DecidableEq, Inhabited

namespace SharedTable

def unheld (table : Table) : SharedTable :=
  ⟨table, .free⟩

/-- **The table, for reading.** -/
def read (shared : SharedTable) : Except EngineError Table :=
  match shared.hold with
  | .writer => .error .tableHeldExclusively
  | _ => .ok shared.table

/-- **The table, for changing it.** -/
def write (shared : SharedTable) : Except EngineError Table :=
  match shared.hold with
  | .free => .ok shared.table
  | _ => .error .tableHeld

def insert (shared : SharedTable) (row : Row) : Except EngineError Unit × SharedTable :=
  match shared.write with
  | .error e => (.error e, shared)
  | .ok table =>
    let (outcome, table) := table.insert row
    (outcome, { shared with table })

def consume (shared : SharedTable) (count : Option Nat) :
    Except EngineError (List Row) × SharedTable :=
  match shared.write with
  | .error e => (.error e, shared)
  | .ok table =>
    let (rows, table) := table.consume count
    (.ok rows, { shared with table })

def holdShared (shared : SharedTable) : Except EngineError Unit × SharedTable :=
  match shared.read with
  | .error e => (.error e, shared)
  | .ok _ => (.ok (), { shared with hold := .readers })

def holdExclusive (shared : SharedTable) : Except EngineError Unit × SharedTable :=
  match shared.write with
  | .error e => (.error e, shared)
  | .ok _ => (.ok (), { shared with hold := .writer })

def release (shared : SharedTable) : SharedTable :=
  { shared with hold := .free }

/-- **An insertion that is refused changes nothing**, be it for a hold or for the row. -/
theorem insert_of_error {shared : SharedTable} {row : Row} {e : EngineError}
    (h : (shared.insert row).1 = .error e) : shared.insert row = (.error e, shared) := by
  obtain ⟨table, hold⟩ := shared
  cases hold with
  | free =>
      have hrow : (table.insert row).1 = .error e := h
      simp only [insert, write, Table.insert_of_error hrow]
  | readers | writer => exact congrArg (·, _) h

end SharedTable

/-! ## Stores -/

abbrev TableId := Nat

/-- **The tables of a session.** -/
structure Store where
  tables : Array SharedTable
deriving DecidableEq, Inhabited

namespace Store

def empty : Store := ⟨#[]⟩

def get (store : Store) (id : TableId) : SharedTable :=
  store.tables.getD id default

/-- The store with another table under a number that is in use. -/
def set (store : Store) (id : TableId) (shared : SharedTable) : Store :=
  ⟨store.tables.setIfInBounds id shared⟩

def add (store : Store) (table : Table) : TableId × Store :=
  (store.tables.size, ⟨store.tables.push (.unheld table)⟩)

def insert (store : Store) (id : TableId) (row : Row) : Except EngineError Unit × Store :=
  let (outcome, shared) := (store.get id).insert row
  (outcome, store.set id shared)

def consume (store : Store) (id : TableId) (count : Option Nat) :
    Except EngineError (List Row) × Store :=
  let (outcome, shared) := (store.get id).consume count
  (outcome, store.set id shared)

def release (store : Store) : Store :=
  ⟨store.tables.map SharedTable.release⟩

/-! ## Reading back -/

@[simp] theorem size_set (store : Store) (id : TableId) (shared : SharedTable) :
    (store.set id shared).tables.size = store.tables.size := by
  simp [set]

/-- A table that was set is read back under its number; the others are as before. -/
theorem get_set (store : Store) (id other : TableId) (shared : SharedTable) :
    (store.set id shared).get other =
      if id = other ∧ id < store.tables.size then shared else store.get other := by
  simp only [get, set, Array.getD_eq_getD_getElem?, Array.getElem?_setIfInBounds]
  by_cases h : id = other
  · subst h
    by_cases hlt : id < store.tables.size
    · simp [hlt]
    · simp [hlt]
  · simp [h]

/-- Writing back what was read changes nothing. -/
theorem set_get (store : Store) (id : TableId) : store.set id (store.get id) = store := by
  obtain ⟨tables⟩ := store
  simp only [set, get, Store.mk.injEq]
  by_cases hid : id < tables.size
  · simp [Array.setIfInBounds, hid]
  · simp [Array.setIfInBounds, hid]

/-- **An insertion that is refused changes no table.** -/
theorem insert_of_error {store : Store} {id : TableId} {row : Row} {e : EngineError}
    (h : (store.insert id row).1 = .error e) : store.insert id row = (.error e, store) := by
  rw [insert, SharedTable.insert_of_error h]
  simp only [set_get]

@[simp] theorem get_add_self (store : Store) (table : Table) :
    (store.add table).2.get (store.add table).1 = .unheld table := by
  simp [get, add]

theorem get_add_of_lt {store : Store} {id : TableId} (table : Table)
    (h : id < store.tables.size) : (store.add table).2.get id = store.get id := by
  simp [get, add, Array.getElem?_push_lt h, h]

end Store

end GraphScan
