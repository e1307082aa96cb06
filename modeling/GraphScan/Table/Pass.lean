import GraphScan.Table.Basic

/-!
# Passes over a table

A pass takes rows from the front of a table, one at a time, and counts them.  It can be given up at any
point: the rows that it was not asked for stay in the table.

* `Pass.next` — the next row, if there is one.
* `Pass.pull` — asks for a row a number of times.
* `Table.consume_eq_pull` — rows that are consumed at once are those that a pass takes.
-/

namespace GraphScan

/-- **A pass over a table**: the table as it is by now, and the number of rows taken from it. -/
structure Pass where
  table : Table
  consumed : Nat
deriving DecidableEq

def Table.pass (table : Table) : Pass :=
  ⟨table, 0⟩

namespace Pass

/-- **Takes the row at the front**, if there is one. -/
def next (pass : Pass) : Option Row × Pass :=
  match pass.table.rows.toList with
  | [] => (none, pass)
  | row :: rest => (some row, ⟨pass.table.withRows rest, pass.consumed + 1⟩)

/-- **Asks for a row `count` times**, and gives the rows that came. -/
def pull : Nat → Pass → List Row × Pass
  | 0, pass => ([], pass)
  | count + 1, pass =>
    let (row, pass) := pass.next
    let (rows, pass) := pull count pass
    (row.toList ++ rows, pass)

end Pass

/-! ## What a pass does -/

@[simp] theorem Table.withRows_toList (table : Table) : table.withRows table.rows.toList = table := rfl

namespace Pass

/-- **A pass takes the rows at the front**, up to as many as it is asked for, and counts them. -/
theorem pull_eq (count : Nat) (pass : Pass) :
    pass.pull count =
      (pass.table.rows.toList.take count,
        ⟨pass.table.withRows (pass.table.rows.toList.drop count),
          pass.consumed + (pass.table.rows.toList.take count).length⟩) := by
  induction count generalizing pass with
  | zero => simp [pull]
  | succ count ih =>
      rw [pull, next]
      cases hrows : pass.table.rows.toList with
      | nil => simp [ih, hrows]
      | cons row rest =>
          simp only [ih, Table.toList_rows_withRows, Option.toList_some, List.singleton_append,
            List.take_succ_cons, List.drop_succ_cons, List.length_cons, Prod.mk.injEq, true_and]
          rw [Nat.add_assoc, Nat.add_comm 1]
          rfl

end Pass

/-- **Consuming rows at once is a pass** that asks for as many. -/
theorem Table.consume_eq_pull (table : Table) (count : Option Nat) :
    table.consume count =
      ((table.pass.pull (count.getD table.active)).1,
        (table.pass.pull (count.getD table.active)).2.table) := by
  rw [Pass.pull_eq, consume, active, ← Array.length_toList]
  rfl

end GraphScan
