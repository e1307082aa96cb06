import GraphScan.Proofs.Table.Fit
import GraphScan.Table.Pass

/-!
# Tables are queues

A table is given rows, some of which it refuses, and passes take rows from it and are given up.  Besides
the table a `Queue` keeps the rows that have gone in and those that have come out.

* `Queue.use` — one row is inserted, or one pass is made; `Queue.after` goes on for some uses.
* `Queue.use_cases` — **what a use can do**: nothing, append one row that fits, or drop rows from the
  front.
* `Queue.Orderly` — the invariant: nothing is lost, the rows fit, and their number is within the
  high-water mark.
* `Queue.allocated_after` — the high-water mark was reached.
* `Queue.first_in_first_out` — **a table is a typed queue with an exact high-water mark**.
-/

namespace GraphScan

/-- **A use of a table.** -/
inductive TableUse where
  | insert (row : Row)
  /-- A pass that is asked for a row some times and then given up. -/
  | pass (pulls : Nat)

/-- **A table in use**: the rows that it has taken, and those that passes have taken from it. -/
structure Queue where
  table : Table
  entered : List Row
  yielded : List Row

namespace Queue

def new (name : String) (schema : Schema) : Queue :=
  ⟨.empty name schema, [], []⟩

/-- **One use.**  A row that is refused does not enter. -/
def use (queue : Queue) : TableUse → Queue
  | .insert row =>
    match queue.table.insert row with
    | (.ok (), table) => { queue with table, entered := queue.entered ++ [row] }
    | (.error _, table) => { queue with table }
  | .pass pulls =>
    let (rows, pass) := queue.table.pass.pull pulls
    { queue with table := pass.table, yielded := queue.yielded ++ rows }

def after (queue : Queue) : List TableUse → Queue
  | [] => queue
  | use :: uses => (queue.use use).after uses

theorem after_append (queue : Queue) (uses others : List TableUse) :
    queue.after (uses ++ others) = (queue.after uses).after others := by
  induction uses generalizing queue with
  | nil => rfl
  | cons use uses ih => exact ih (queue.use use)

/-! ## One use -/

/-- **What a use can do.** -/
theorem use_cases (queue : Queue) (use : TableUse) :
    queue.use use = queue ∨
      (∃ row, queue.table.schema.Fits row ∧
        queue.use use = ⟨queue.table.append row, queue.entered ++ [row], queue.yielded⟩) ∨
      ∃ pulls, queue.use use =
        ⟨queue.table.withRows (queue.table.rows.toList.drop pulls), queue.entered,
          queue.yielded ++ queue.table.rows.toList.take pulls⟩ := by
  cases use with
  | insert row =>
      rw [Queue.use]
      rcases hinsert : queue.table.insert row with ⟨e | _, table⟩
      · obtain rfl : queue.table = table := by
          rw [Table.insert_of_error (congrArg Prod.fst hinsert)] at hinsert
          exact congrArg Prod.snd hinsert
        exact .inl rfl
      · obtain ⟨hcheck, rfl⟩ := Table.insert_eq_ok_iff.mp hinsert
        exact .inr (.inl ⟨row, (Table.check_eq_ok_iff _ _).mp hcheck, rfl⟩)
  | pass pulls =>
      rw [Queue.use, Pass.pull_eq]
      exact .inr (.inr ⟨pulls, rfl⟩)

variable {queue : Queue} {schema : Schema}

/-- **A table in order.** -/
structure Orderly (schema : Schema) (queue : Queue) : Prop where
  schema_eq : queue.table.schema = schema
  conserved : queue.yielded ++ queue.table.rows.toList = queue.entered
  fits : ∀ row ∈ queue.table.rows.toList, schema.Fits row
  active_le : queue.table.active ≤ queue.table.allocated

theorem Orderly.use (h : Orderly schema queue) (use : TableUse) : Orderly schema (queue.use use) := by
  rcases queue.use_cases use with hsame | ⟨row, hrow, happend⟩ | ⟨pulls, hpass⟩
  · rwa [hsame]
  · rw [happend]
    refine ⟨h.schema_eq, ?_, ?_, ?_⟩
    · rw [Table.toList_rows_append, ← List.append_assoc, h.conserved]
    · rw [Table.toList_rows_append, List.forall_mem_append, List.forall_mem_singleton]
      exact ⟨h.fits, h.schema_eq ▸ hrow⟩
    · rw [Table.allocated_append, Table.active, Table.append, Array.size_push]
      exact Nat.le_max_right _ _
  · rw [hpass]
    refine ⟨h.schema_eq, ?_, ?_, ?_⟩
    · rw [Table.toList_rows_withRows, List.append_assoc, List.take_append_drop, h.conserved]
    · rw [Table.toList_rows_withRows]
      exact fun row hrow => h.fits row (List.mem_of_mem_drop hrow)
    · refine Nat.le_trans ?_ h.active_le
      simp [Table.active, Table.withRows]

/-- **A table stays in order.** -/
theorem Orderly.after (h : Orderly schema queue) (uses : List TableUse) :
    Orderly schema (queue.after uses) := by
  induction uses generalizing queue with
  | nil => exact h
  | cons use uses ih => exact ih (h.use use)

theorem orderly_new (name : String) (schema : Schema) : Orderly schema (new name schema) :=
  ⟨rfl, rfl, by simp [new, Table.empty], Nat.le_refl 0⟩

/-! ## The high-water mark -/

/-- **The high-water mark is raised only to the number of rows** that there are then. -/
theorem allocated_use (queue : Queue) (use : TableUse) :
    queue.table.allocated ≤ (queue.use use).table.allocated ∧
      ((queue.use use).table.allocated = queue.table.allocated ∨
        (queue.use use).table.allocated = (queue.use use).table.active) := by
  rcases queue.use_cases use with hsame | ⟨row, -, happend⟩ | ⟨pulls, hpass⟩
  · rw [hsame]
    exact ⟨Nat.le_refl _, .inl rfl⟩
  · rw [happend, Table.allocated_append]
    have hactive : (queue.table.append row).active = queue.table.active + 1 := by
      rw [Table.active, Table.append, Array.size_push, Table.active]
    rw [hactive]
    omega
  · rw [hpass]
    exact ⟨Nat.le_refl _, .inl rfl⟩

/-- Passes do not lower it. -/
theorem allocated_pass (queue : Queue) (pulls : Nat) :
    (queue.use (.pass pulls)).table.allocated = queue.table.allocated := by
  rw [use, Pass.pull_eq]
  rfl

/-- Rows that fill up room do not raise it. -/
theorem allocated_insert_of_lt (hroom : queue.table.active < queue.table.allocated) (row : Row) :
    (queue.use (.insert row)).table.allocated = queue.table.allocated := by
  rcases queue.use_cases (.insert row) with hsame | ⟨row, -, happend⟩ | ⟨pulls, hpass⟩
  · rw [hsame]
  · rw [happend, Table.allocated_append]
    exact Nat.max_eq_left hroom
  · rw [hpass]
    rfl

theorem allocated_le_after (queue : Queue) (uses : List TableUse) :
    queue.table.allocated ≤ (queue.after uses).table.allocated := by
  induction uses generalizing queue with
  | nil => exact Nat.le_refl _
  | cons use uses ih => exact Nat.le_trans (queue.allocated_use use).1 (ih (queue.use use))

/-- **The rows in a table are within its high-water mark**, now and later, also within a pass. -/
theorem Orderly.active_pull_le (h : Orderly schema queue) (pulls : Nat) (uses : List TableUse) :
    (queue.table.pass.pull pulls).2.table.active ≤ (queue.after uses).table.allocated := by
  have hactive := (h.use (.pass pulls)).active_le
  rw [allocated_pass] at hactive
  exact Nat.le_trans hactive (queue.allocated_le_after uses)

/-- **The high-water mark has been reached** at some time, unless it is still what it was. -/
theorem allocated_after (queue : Queue) (uses : List TableUse) :
    (queue.after uses).table.allocated = queue.table.allocated ∨
      ∃ n, (queue.after (uses.take n)).table.active = (queue.after uses).table.allocated := by
  induction uses generalizing queue with
  | nil => exact .inl rfl
  | cons use uses ih =>
      rcases ih (queue.use use) with hsame | ⟨n, hreached⟩
      · rcases (queue.allocated_use use).2 with hkept | hraised
        · exact .inl (hsame.trans hkept)
        · exact .inr ⟨1, (hsame.trans hraised).symm⟩
      · exact .inr ⟨n + 1, hreached⟩

/-- **A table is a typed queue with an exact high-water mark.**  Let a new table be used in any way.
Then, at any time,

* the rows that passes have taken, followed by those in the table, are the rows that it has taken, in
  order;
* each row in it has the width of the schema, and each value is null or of the kind of its column;
* its high-water mark is the greatest number of rows that it has held at any time, also within a pass;
  so passes do not lower it, and rows that fill up the room they made do not raise it;
* the next row is refused exactly if it has another width or a value of another kind, and then nothing
  changes;
* the next pass counts the rows that it gives, which are those that are consumed at once. -/
theorem first_in_first_out (name : String) (schema : Schema) (uses : List TableUse) :
    let queue := (new name schema).after uses
    let table := queue.table
    queue.yielded ++ table.rows.toList = queue.entered ∧
      (∀ row ∈ table.rows.toList, row.length = schema.width ∧ ∀ index value column,
        row[index]? = some value → schema.column? index = some column →
          value = .null ∨ value.kind = column.type.kind) ∧
      (∀ n pulls, (((new name schema).after (uses.take n)).table.pass.pull pulls).2.table.active ≤
        table.allocated) ∧
      (∃ n, ((new name schema).after (uses.take n)).table.active = table.allocated) ∧
      (∀ pulls, (queue.use (.pass pulls)).table.allocated = table.allocated) ∧
      (∀ row, table.active < table.allocated →
        (queue.use (.insert row)).table.allocated = table.allocated) ∧
      (∀ row, (∃ e, (table.insert row).1 = .error e) ↔
        row.length ≠ schema.width ∨ ∃ index value column, row[index]? = some value ∧
          schema.column? index = some column ∧ value ≠ .null ∧ value.kind ≠ column.type.kind) ∧
      (∀ row e, (table.insert row).1 = .error e →
        (table.insert row).2 = table ∧ queue.use (.insert row) = queue) ∧
      ∀ pulls, let (rows, pass) := table.pass.pull pulls
        pass.consumed = rows.length ∧ table.consume (some pulls) = (rows, pass.table) := by
  intro queue table
  have horderly (others : List TableUse) := (orderly_new name schema).after others
  have hfits : ∀ row ∈ table.rows.toList, schema.Fits row := (horderly uses).fits
  refine ⟨(horderly uses).conserved, fun row hrow => Schema.fits_iff.mp (hfits row hrow), ?_, ?_, ?_,
    ?_, ?_, ?_, ?_⟩
  · intro n pulls
    have hwithin := (horderly (uses.take n)).active_pull_le pulls (uses.drop n)
    rwa [← after_append, List.take_append_drop] at hwithin
  · rcases allocated_after (new name schema) uses with hzero | hreached
    · exact ⟨0, hzero.symm⟩
    · exact hreached
  · exact fun pulls => allocated_pass queue pulls
  · exact fun row hroom => allocated_insert_of_lt hroom row
  · intro row
    rw [Table.insert_refused_iff, (horderly uses).schema_eq, Schema.fits_iff, not_and_or]
    push Not
    rfl
  · intro row e hrefused
    rw [Queue.use, Table.insert_of_error hrefused]
    exact ⟨rfl, rfl⟩
  · intro pulls
    refine ⟨?_, table.consume_eq_pull (some pulls)⟩
    rw [Pass.pull_eq]
    exact Nat.zero_add _

/-- Of four rows one is refused; the last one takes the room that the first has made. -/
example :
    let queue := (new "numbers" ⟨[⟨"n", .int⟩]⟩).after
      [.insert [.int 1], .insert [.text "x"], .insert [.null], .pass 1, .insert [.int 3]]
    queue.yielded = [[.int 1]] ∧ queue.table.rows = #[[.null], [.int 3]] ∧
      queue.entered = [[.int 1], [.null], [.int 3]] ∧ queue.table.allocated = 2 := by
  decide

end Queue

end GraphScan
