import GraphScan.Aggregate.Machine
import Mathlib.Data.List.Forall2
import Mathlib.Data.List.Induction
import Mathlib.Data.List.SplitBy

/-!
# Grouping

What an aggregation is meant to compute, as a function of the rows alone: no machine, no index, no
gate.

* `AggregateExpr.fold` — the accumulator of an aggregate after some rows.
* `runs` — the maximal runs of rows that agree in the leading values of their keys.
* `groupsOf` — the groups of a run, in the order in which their keys are first seen.
* `AggregateNode.groups` — **the groups of an aggregation**: those of each run, one run after the
  other; without grouping there is always one.
* `groupsOf_append_of_disjoint`, `groupsOf_concat` — how groups come about part by part and row by
  row.
-/

namespace GraphScan

variable {α β : Type}

theorem mapM_eq_ok_iff {f : α → Except EngineError β} {xs : List α} {ys : List β} :
    xs.mapM f = .ok ys ↔ List.Forall₂ (fun x y => f x = .ok y) xs ys := by
  induction xs generalizing ys with
  | nil =>
      rw [List.mapM_nil, List.forall₂_nil_left_iff]
      exact ⟨fun h => (Except.ok.inj h).symm, fun h => by rw [h]; rfl⟩
  | cons x xs ih =>
      rw [List.mapM_cons, List.forall₂_cons_left_iff]
      cases hx : f x with
      | error e =>
          refine ⟨fun h => (by cases h), ?_⟩
          rintro ⟨y, _, hy, -, -⟩
          cases hy
      | ok y =>
          cases hxs : xs.mapM f with
          | error e =>
              refine ⟨fun h => (by cases h), ?_⟩
              rintro ⟨_, others, -, hothers, -⟩
              rw [← ih, hxs] at hothers
              cases hothers
          | ok others =>
              constructor
              · intro h
                exact ⟨y, others, rfl, ih.mp hxs, (Except.ok.inj h).symm⟩
              · rintro ⟨_, zs, hy, hzs, rfl⟩
                obtain rfl := Except.ok.inj hy
                rw [← ih, hxs] at hzs
                obtain rfl := Except.ok.inj hzs
                rfl

theorem mapM_congr_of_mem {f g : α → Except EngineError β} {xs : List α}
    (h : ∀ x ∈ xs, f x = g x) : xs.mapM f = xs.mapM g := by
  induction xs with
  | nil => rfl
  | cons x xs ih =>
      obtain ⟨hx, hxs⟩ := List.forall_mem_cons.mp h
      rw [List.mapM_cons, List.mapM_cons, hx, ih hxs]

/-- A traversal succeeds if there is something for every element. -/
theorem exists_mapM_eq_ok_iff {f : α → Except EngineError β} {xs : List α} :
    (∃ ys, xs.mapM f = .ok ys) ↔ ∀ x ∈ xs, ∃ y, f x = .ok y := by
  simp only [mapM_eq_ok_iff]
  induction xs with
  | nil => simp
  | cons x xs ih =>
      simp only [List.forall₂_cons_left_iff, List.forall_mem_cons, ← ih]
      constructor
      · rintro ⟨_, y, ys, hy, hys, -⟩
        exact ⟨⟨y, hy⟩, ys, hys⟩
      · rintro ⟨⟨y, hy⟩, ys, hys⟩
        exact ⟨y :: ys, y, ys, hy, hys, rfl⟩

/-- What a traversal has collected comes from an element. -/
theorem exists_of_mem_mapM {f : α → Except EngineError β} {xs : List α} {ys : List β} {y : β}
    (h : xs.mapM f = .ok ys) (hy : y ∈ ys) :
    ∃ x ∈ xs, f x = .ok y := by
  rw [mapM_eq_ok_iff] at h
  induction h with
  | nil => cases hy
  | @cons x z xs zs hxz _ ih =>
      rcases List.mem_cons.mp hy with rfl | hmem
      · exact ⟨x, List.mem_cons_self, hxz⟩
      · obtain ⟨x', hx', hy'⟩ := ih hmem
        exact ⟨x', List.mem_cons_of_mem x hx', hy'⟩

/-! ## Folding -/

namespace AggregateExpr

/-- Folds what an aggregate takes from a row into its accumulator. -/
def take (aggregate : AggregateExpr) (acc : Accumulator) (row : Row) :
    Except EngineError Accumulator := do
  let value ← Group.input aggregate row
  acc.update value

/-- **The accumulator of an aggregate after rows**, in order. -/
def fold (aggregate : AggregateExpr) (rows : List Row) : Except EngineError Accumulator :=
  rows.foldlM aggregate.take (.new aggregate.kind)

theorem fold_concat (aggregate : AggregateExpr) (rows : List Row) (row : Row) :
    aggregate.fold (rows ++ [row]) = (aggregate.fold rows).bind (aggregate.take · row) := by
  rw [fold, List.foldlM_append, fold]
  cases rows.foldlM aggregate.take (.new aggregate.kind) with
  | error e => rfl
  | ok acc =>
      show [row].foldlM aggregate.take acc = aggregate.take acc row
      rw [List.foldlM_cons]
      cases aggregate.take acc row <;> rfl

/-- Rows that can be folded can be folded up to any of them. -/
theorem exists_fold_of_append {aggregate : AggregateExpr} {rows others : List Row}
    {acc : Accumulator} (h : aggregate.fold (rows ++ others) = .ok acc) :
    ∃ before, aggregate.fold rows = .ok before := by
  rw [fold, List.foldlM_append] at h
  cases hrows : rows.foldlM aggregate.take (.new aggregate.kind) with
  | error e =>
      rw [hrows] at h
      cases h
  | ok before => exact ⟨before, hrows⟩

end AggregateExpr

namespace Group

/-- **What it means that a group has folded rows**: each accumulator has. -/
def Folds (aggregates : List AggregateExpr) (rows : List Row) (accs : List Accumulator) : Prop :=
  List.Forall₂ (fun aggregate acc => aggregate.fold rows = .ok acc) aggregates accs

/-- The group of a key, of all its rows. -/
def ofRows (aggregates : List AggregateExpr) (key : GroupKey) (rows : List Row) :
    Except EngineError Group := do
  let accumulators ← aggregates.mapM fun aggregate => aggregate.fold rows
  .ok ⟨key, accumulators⟩

theorem ofRows_eq_ok_iff {aggregates : List AggregateExpr} {key : GroupKey} {rows : List Row}
    {group : Group} :
    ofRows aggregates key rows = .ok group ↔
      group.key = key ∧ Folds aggregates rows group.accumulators := by
  rw [ofRows, Folds, ← mapM_eq_ok_iff]
  cases aggregates.mapM fun aggregate => aggregate.fold rows with
  | error e =>
      refine ⟨fun h => (by cases h), ?_⟩
      rintro ⟨-, h⟩
      cases h
  | ok accumulators =>
      constructor
      · intro h
        obtain rfl := Except.ok.inj h
        exact ⟨rfl, rfl⟩
      · rintro ⟨rfl, h⟩
        rw [Except.ok.inj h]
        rfl

theorem folds_nil (aggregates : List AggregateExpr) (key : GroupKey) :
    Folds aggregates [] (new key aggregates).accumulators :=
  List.forall₂_map_right_iff.mpr (List.forall₂_same.mpr fun _ _ => rfl)

/-- **Folding a row into a group** succeeds exactly if every aggregate can be folded over the rows
and this one more. -/
theorem foldRow_eq_ok_iff {aggregates : List AggregateExpr} {rows : List Row} {row : Row}
    {accs next : List Accumulator} (h : Folds aggregates rows accs) :
    foldRow row aggregates accs = (.ok (), next) ↔ Folds aggregates (rows ++ [row]) next := by
  induction h generalizing next with
  | nil =>
      rw [Folds, List.forall₂_nil_left_iff]
      exact ⟨fun h => (congrArg Prod.snd h).symm, fun h => by rw [h]; rfl⟩
  | @cons aggregate acc aggregates accs hacc _ ih =>
      rw [Folds, List.forall₂_cons_left_iff, AggregateExpr.fold_concat, hacc]
      simp only [Except.bind, AggregateExpr.take, bind, foldRow]
      cases input aggregate row with
      | error e => simp
      | ok value =>
          dsimp only
          cases acc.update value with
          | error e => simp
          | ok after =>
              rcases hfold : foldRow row aggregates accs with ⟨outcome, others⟩
              constructor
              · intro heq
                obtain ⟨rfl, rfl⟩ := Prod.mk.inj heq
                exact ⟨after, others, rfl, ih.mp hfold, rfl⟩
              · rintro ⟨_, others', hafter, hothers, rfl⟩
                obtain rfl := Except.ok.inj hafter
                obtain ⟨rfl, rfl⟩ := Prod.mk.inj (hfold.symm.trans (ih.mpr hothers))
                rfl

end Group

/-! ## Groups of a run -/

/-- **A row with its key.** -/
abbrev KeyedRow := GroupKey × Row

/-- The keys of rows, in the order in which they are first seen. -/
def keysOf (run : List KeyedRow) : List GroupKey :=
  (run.map Prod.fst).eraseDups

def rowsOf (run : List KeyedRow) (key : GroupKey) : List Row :=
  (run.filter fun keyed => keyed.1 = key).map Prod.snd

/-- **The groups of a run**, in the order in which their keys are first seen. -/
def groupsOf (aggregates : List AggregateExpr) (run : List KeyedRow) :
    Except EngineError (List Group) :=
  (keysOf run).mapM fun key => Group.ofRows aggregates key (rowsOf run key)

@[simp] theorem mem_keysOf {run : List KeyedRow} {key : GroupKey} :
    key ∈ keysOf run ↔ ∃ row, (key, row) ∈ run := by
  simp [keysOf, List.mem_eraseDups]

theorem rowsOf_of_not_mem {run : List KeyedRow} {key : GroupKey} (h : key ∉ keysOf run) :
    rowsOf run key = [] := by
  rw [mem_keysOf] at h
  rw [rowsOf, List.map_eq_nil_iff, List.filter_eq_nil_iff]
  rintro ⟨other, row⟩ hmem heq
  obtain rfl : other = key := of_decide_eq_true heq
  exact h ⟨row, hmem⟩

theorem rowsOf_append (run others : List KeyedRow) (key : GroupKey) :
    rowsOf (run ++ others) key = rowsOf run key ++ rowsOf others key := by
  rw [rowsOf, List.filter_append, List.map_append]
  rfl

theorem rowsOf_concat (run : List KeyedRow) (key other : GroupKey) (row : Row) :
    rowsOf (run ++ [(key, row)]) other =
      if key = other then rowsOf run other ++ [row] else rowsOf run other := by
  rw [rowsOf_append]
  split_ifs with h
  · simp [rowsOf, h]
  · simp [rowsOf, h]

/-- One more row has a key that was seen before, or a new one. -/
theorem keysOf_concat (run : List KeyedRow) (key : GroupKey) (row : Row) :
    keysOf (run ++ [(key, row)]) =
      if key ∈ keysOf run then keysOf run else keysOf run ++ [key] := by
  have hmem : key ∈ run.map Prod.fst ↔ key ∈ keysOf run := by
    rw [keysOf, List.mem_eraseDups]
  rw [keysOf, List.map_append, List.eraseDups_append]
  split_ifs with h
  · have hseen : [key].removeAll (run.map Prod.fst) = [] := by
      simpa [List.removeAll] using hmem.mpr h
    rw [List.map_singleton, hseen, List.eraseDups_nil, List.append_nil, keysOf]
  · have hnew : [key].removeAll (run.map Prod.fst) = [key] := by
      simpa [List.removeAll] using mt hmem.mp h
    rw [List.map_singleton, hnew, keysOf]
    simp [List.eraseDups_cons]

/-- **Every key is listed once.** -/
theorem nodup_keysOf (run : List KeyedRow) : (keysOf run).Nodup := by
  induction run using List.reverseRecOn with
  | nil => exact List.nodup_nil
  | append_singleton run keyed ih =>
      rw [keysOf_concat]
      split
      · exact ih
      · next hkey =>
        refine List.nodup_append.mpr ⟨ih, by simp, fun key hmem other hother => ?_⟩
        rw [List.mem_singleton.mp hother]
        rintro rfl
        exact hkey hmem

/-- Parts without a common key have their own keys. -/
theorem keysOf_append_of_disjoint {run others : List KeyedRow}
    (h : ∀ key ∈ keysOf run, key ∉ keysOf others) :
    keysOf (run ++ others) = keysOf run ++ keysOf others := by
  have hall : (others.map Prod.fst).removeAll (run.map Prod.fst) = others.map Prod.fst := by
    rw [List.removeAll, List.filter_eq_self]
    intro key hkey
    have hother : key ∈ keysOf others := by rwa [keysOf, List.mem_eraseDups]
    have hrun : key ∉ run.map Prod.fst := by
      intro hmem
      exact h key (by rwa [keysOf, List.mem_eraseDups]) hother
    simpa using hrun
  rw [keysOf, List.map_append, List.eraseDups_append, hall]
  rfl

/-- **Parts without a common key have their own groups.** -/
theorem groupsOf_append_of_disjoint (aggregates : List AggregateExpr) {run others : List KeyedRow}
    (h : ∀ key ∈ keysOf run, key ∉ keysOf others) :
    groupsOf aggregates (run ++ others) = do
      let groups ← groupsOf aggregates run
      let more ← groupsOf aggregates others
      return groups ++ more := by
  have hrun : (keysOf run).mapM (fun key => Group.ofRows aggregates key (rowsOf (run ++ others) key)) =
      groupsOf aggregates run := by
    refine mapM_congr_of_mem fun key hkey => ?_
    rw [rowsOf_append, rowsOf_of_not_mem (h key hkey), List.append_nil]
  have hothers : (keysOf others).mapM
      (fun key => Group.ofRows aggregates key (rowsOf (run ++ others) key)) =
      groupsOf aggregates others := by
    refine mapM_congr_of_mem fun key hkey => ?_
    rw [rowsOf_append, rowsOf_of_not_mem (fun hmem => h key hmem hkey), List.nil_append]
  rw [groupsOf, keysOf_append_of_disjoint h, List.mapM_append, hrun, hothers]

/-- Rows that can be grouped can be grouped up to any of them. -/
theorem exists_groupsOf_of_append {aggregates : List AggregateExpr} {run others : List KeyedRow}
    {groups : List Group} (h : groupsOf aggregates (run ++ others) = .ok groups) :
    ∃ before, groupsOf aggregates run = .ok before := by
  refine exists_mapM_eq_ok_iff.mpr ?_
  intro key hkey
  obtain ⟨row, hrow⟩ := mem_keysOf.mp hkey
  have hboth : key ∈ keysOf (run ++ others) :=
    mem_keysOf.mpr ⟨row, List.mem_append_left _ hrow⟩
  obtain ⟨group, hgroup⟩ := exists_mapM_eq_ok_iff.mp ⟨groups, h⟩ key hboth
  rw [rowsOf_append] at hgroup
  have hfolds : ∀ aggregate ∈ aggregates, ∃ acc, aggregate.fold (rowsOf run key) = .ok acc := by
    intro aggregate haggregate
    have hall : ∀ aggregate ∈ aggregates, ∃ acc,
        aggregate.fold (rowsOf run key ++ rowsOf others key) = .ok acc :=
      exists_mapM_eq_ok_iff.mp ⟨group.accumulators, mapM_eq_ok_iff.mpr (Group.ofRows_eq_ok_iff.mp hgroup).2⟩
    obtain ⟨acc, hacc⟩ := hall aggregate haggregate
    exact AggregateExpr.exists_fold_of_append hacc
  obtain ⟨accs, haccs⟩ := exists_mapM_eq_ok_iff.mpr hfolds
  exact ⟨⟨key, accs⟩, Group.ofRows_eq_ok_iff.mpr ⟨rfl, mapM_eq_ok_iff.mp haccs⟩⟩

/-! ## Runs -/

/-- The leading values of a key. -/
def KeyedRow.lead (width : Nat) (keyed : KeyedRow) : GroupKey :=
  keyed.1.take width

/-- **The maximal runs** of rows that agree in the leading values of their keys. -/
def runs (width : Nat) (rows : List KeyedRow) : List (List KeyedRow) :=
  rows.splitBy fun a b => KeyedRow.lead width a = KeyedRow.lead width b

namespace AggregateNode

/-- **The number of leading key values that delimit a run.** -/
def runWidth (node : AggregateNode) : Nat :=
  match node.strategy with
  | .serial => node.groupBy.length
  | .partialOrder sorted => min sorted node.groupBy.length
  | .hash => 0

/-- The rows with their keys. -/
def keyed (node : AggregateNode) (rows : List Row) : Except EngineError (List KeyedRow) :=
  rows.mapM fun row => (Expr.evalEach row node.groupBy).map fun key => (key, row)

/-- The groups of all rows when that many leading key values delimit a run. -/
def groupsBy (node : AggregateNode) (width : Nat) (rows : List Row) :
    Except EngineError (List Group) :=
  if rows.isEmpty && node.groupBy.isEmpty then .ok [.new [] node.aggregates]
  else do
    let keyed ← node.keyed rows
    let groups ← (runs width keyed).mapM (groupsOf node.aggregates)
    .ok groups.flatten

/-- **The groups of an aggregation**, in the order of its output. -/
def groups (node : AggregateNode) (rows : List Row) : Except EngineError (List Group) :=
  node.groupsBy node.runWidth rows

end AggregateNode

/-! ### How runs come about -/

theorem uniform_concat {width : Nat} {run : List KeyedRow} {keyed : KeyedRow} {lead : GroupKey}
    (h : ∀ other ∈ run, other.lead width = lead) (hkeyed : keyed.lead width = lead) :
    ∀ other ∈ run ++ [keyed], other.lead width = lead := by
  intro other hother
  rcases List.mem_append.mp hother with hmem | hmem
  · exact h other hmem
  · rw [List.mem_singleton.mp hmem, hkeyed]

theorem runs_of_uniform {width : Nat} {run : List KeyedRow} {lead : GroupKey} (hne : run ≠ [])
    (h : ∀ keyed ∈ run, keyed.lead width = lead) : runs width run = [run] := by
  refine List.splitBy_of_isChain hne (List.Pairwise.isChain ?_)
  refine List.pairwise_of_forall_mem_list ?_
  intro a ha b hb
  rw [decide_eq_true_iff, h a ha, h b hb]

/-- A row with other leading key values begins a run. -/
theorem runs_append_cons {width : Nat} {run : List KeyedRow} {keyed : KeyedRow}
    {lead : GroupKey} (hne : run ≠ []) (h : ∀ keyed ∈ run, keyed.lead width = lead)
    (hkeyed : keyed.lead width ≠ lead) (rest : List KeyedRow) :
    runs width (run ++ keyed :: rest) = run :: runs width (keyed :: rest) := by
  rw [runs, List.splitBy_append_cons]
  · show runs width run ++ _ = _
    rw [runs_of_uniform hne h, List.singleton_append]
    rfl
  · intro last hlast
    rw [decide_eq_false_iff_not, h last (List.mem_of_getLast? hlast)]
    exact fun heq => hkeyed heq.symm

/-- Rows with common leading key values begin the first run. -/
theorem exists_runs_of_uniform {width : Nat} {run : List KeyedRow} {lead : GroupKey}
    (hne : run ≠ []) (h : ∀ keyed ∈ run, keyed.lead width = lead) (rest : List KeyedRow) :
    ∃ more others, runs width (run ++ rest) = (run ++ more) :: others := by
  induction rest generalizing run with
  | nil => exact ⟨[], [], by rw [List.append_nil, runs_of_uniform hne h]⟩
  | cons keyed rest ih =>
      by_cases hkeyed : keyed.lead width = lead
      · obtain ⟨more, others, hruns⟩ := ih (by simp) (uniform_concat h hkeyed)
        rw [List.append_cons run keyed rest]
        exact ⟨keyed :: more, others, by rw [hruns, List.append_cons run keyed more]⟩
      · exact ⟨[], _, by rw [runs_append_cons hne h hkeyed, List.append_nil]⟩

end GraphScan
