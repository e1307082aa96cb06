import GraphScan.Proofs.Aggregate.Meaning

/-!
# The choice of a strategy

A strategy promises something about the order of the rows.  Where it keeps its promise the answer is
that of the strategy that promises nothing.

* `Contiguous` — the promise: rows with the same leading key values stand together.
* `groupsOf_of_contiguous` — then a key belongs to one run only, and grouping run by run is grouping
  all rows at once.
* `Machine.drive_of_contiguous` — **if the hash strategy succeeds, so does every other whose promise
  is kept, with the same output**; without a window the converse holds as well.
-/

namespace GraphScan

/-- **Rows with the same leading key values stand together**: whatever stands between two of them has
these values too. -/
def Contiguous (width : Nat) (rows : List KeyedRow) : Prop :=
  ∀ first between last : KeyedRow, [first, between, last].Sublist rows →
    first.lead width = last.lead width → between.lead width = first.lead width

theorem contiguous_zero (rows : List KeyedRow) : Contiguous 0 rows :=
  fun _ _ _ _ _ => rfl

theorem Contiguous.of_append {width : Nat} {rows others : List KeyedRow}
    (h : Contiguous width (rows ++ others)) : Contiguous width others :=
  fun first between last hsublist => h first between last (hsublist.trans (List.sublist_append_right _ _))

/-- **The keys of a run do not come back** after a row with other leading values. -/
theorem Contiguous.disjoint {width : Nat} {run rest : List KeyedRow} {keyed : KeyedRow}
    {lead : GroupKey} (h : Contiguous width (run ++ keyed :: rest))
    (huniform : ∀ keyed ∈ run, keyed.lead width = lead) (hkeyed : keyed.lead width ≠ lead) :
    ∀ key ∈ keysOf run, key ∉ keysOf (keyed :: rest) := by
  intro key hrun hrest
  obtain ⟨row, hrow⟩ := mem_keysOf.mp hrun
  obtain ⟨later, hlater⟩ := mem_keysOf.mp hrest
  have hlead : KeyedRow.lead width (key, row) = lead := huniform (key, row) hrow
  have hsame : KeyedRow.lead width (key, later) = KeyedRow.lead width (key, row) := rfl
  rcases List.mem_cons.mp hlater with heq | hmem
  · rw [← heq, hsame] at hkeyed
    exact hkeyed hlead
  · have hsublist : [(key, row), keyed, (key, later)].Sublist (run ++ keyed :: rest) :=
      (List.singleton_sublist.mpr hrow).append (.cons_cons keyed (List.singleton_sublist.mpr hmem))
    exact hkeyed ((h _ _ _ hsublist hsame.symm).trans hlead)

/-- **Grouping run by run is grouping all rows at once** where runs keep together.  The induction is
on the rows behind those that are known to be of one run. -/
theorem groupsOf_append_of_contiguous (aggregates : List AggregateExpr) {width : Nat}
    {run rest : List KeyedRow} {lead : GroupKey} (hne : run ≠ [])
    (huniform : ∀ keyed ∈ run, keyed.lead width = lead) (h : Contiguous width (run ++ rest)) :
    groupsOf aggregates (run ++ rest) = do
      let all ← (runs width (run ++ rest)).mapM (groupsOf aggregates)
      return all.flatten := by
  induction rest generalizing run lead with
  | nil =>
      rw [List.append_nil, runs_of_uniform hne huniform, List.mapM_cons, List.mapM_nil]
      cases groupsOf aggregates run with
      | error e => rfl
      | ok groups => exact congrArg Except.ok (List.flatten_singleton).symm
  | cons keyed rest ih =>
      by_cases hkeyed : keyed.lead width = lead
      · rw [List.append_cons run keyed rest] at h ⊢
        exact ih (by simp) (uniform_concat huniform hkeyed) h
      · have hone : ∀ other ∈ [keyed], other.lead width = keyed.lead width := by
          intro other hother
          rw [List.mem_singleton.mp hother]
        have hrest := ih (List.cons_ne_nil keyed []) hone h.of_append
        rw [List.singleton_append] at hrest
        rw [groupsOf_append_of_disjoint aggregates (h.disjoint huniform hkeyed),
          runs_append_cons hne huniform hkeyed, List.mapM_cons, hrest]
        cases groupsOf aggregates run with
        | error e => rfl
        | ok groups =>
            cases (runs width (keyed :: rest)).mapM (groupsOf aggregates) with
            | error e => rfl
            | ok all => rfl

theorem groupsOf_of_contiguous (aggregates : List AggregateExpr) {width : Nat}
    {rows : List KeyedRow} (h : Contiguous width rows) :
    groupsOf aggregates rows = do
      let all ← (runs width rows).mapM (groupsOf aggregates)
      return all.flatten := by
  cases rows with
  | nil => rfl
  | cons keyed rest =>
      have hone : ∀ other ∈ [keyed], other.lead width = keyed.lead width := by
        intro other hother
        rw [List.mem_singleton.mp hother]
      exact groupsOf_append_of_contiguous aggregates (List.cons_ne_nil keyed []) hone h

/-- **The groups do not depend on the strategy** if its promise is kept. -/
theorem AggregateNode.groupsBy_of_contiguous (node : AggregateNode) {width : Nat} {rows : List Row}
    (h : ∀ keyed, node.keyed rows = .ok keyed → Contiguous width keyed) :
    node.groupsBy width rows = node.groupsBy 0 rows := by
  rw [groupsBy, groupsBy]
  split_ifs with hempty
  · rfl
  · cases hkeyed : node.keyed rows with
    | error e => rfl
    | ok keyed =>
        have hruns := groupsOf_of_contiguous node.aggregates (h keyed hkeyed)
        have hall := groupsOf_of_contiguous node.aggregates (contiguous_zero keyed)
        exact hruns.symm.trans hall

/-- **The strategy does not change the answer when its promise is kept.**  If the hash strategy
succeeds then the strategy of the node does, on a table that is the same, and leaves it the same.
The converse needs that there is no window: with one, rows that come after the last that is wanted
are never looked at. -/
theorem Machine.drive_of_contiguous {node : AggregateNode} {rows : List Row}
    (hcontiguous : ∀ keyed, node.keyed rows = .ok keyed → Contiguous node.runWidth keyed)
    {first second : Outlet} (hshared : first.shared = second.shared) (params : List Value)
    (columns : Nat) :
    let hash := (ofNode { node with strategy := .hash }).drive params columns rows first
    let own := (ofNode node).drive params columns rows second
    (hash.1 = .ok () → own.1 = .ok () ∧ own.2.2.shared = hash.2.2.shared) ∧
      (node.window = none → own.1 = .ok () →
        hash.1 = .ok () ∧ hash.2.2.shared = own.2.2.shared) := by
  intro hash own
  have hsame : { node with strategy := .hash }.groups rows = node.groups rows :=
    (node.groupsBy_of_contiguous hcontiguous).symm
  have hboth : ∀ window groups, WindowSpec.resolveOptional node.window params = .ok window →
      node.groups rows = .ok groups → hash.1 = own.1 ∧ hash.2.2.shared = own.2.2.shared := by
    intro window groups hwindow hgroups
    have hwindow' : WindowSpec.resolveOptional { node with strategy := .hash }.window params =
        .ok window := hwindow
    obtain ⟨hhash, hhashOutlet⟩ := drive_of_groups hwindow' (hsame.trans hgroups) columns first
    obtain ⟨hown, hownOutlet⟩ := drive_of_groups hwindow hgroups columns second
    obtain ⟨hout, -, htable⟩ :=
      ((Gate.new node.having window).emitAll_writes groups).congr hshared
    constructor
    · rw [show hash.1 = _ from hhash, show own.1 = _ from hown]
      exact congrArg _ hout
    · rw [show hash.2.2 = _ from hhashOutlet, show own.2.2 = _ from hownOutlet]
      exact htable
  constructor
  · intro hok
    obtain ⟨window, groups, hwindow, hgroups⟩ := groups_of_drive (.inl rfl) hok
    obtain ⟨hout, htable⟩ := hboth window groups hwindow (hsame.symm.trans hgroups)
    exact ⟨hout.symm.trans hok, htable.symm⟩
  · intro hnone hok
    obtain ⟨window, groups, hwindow, hgroups⟩ := groups_of_drive (.inr hnone) hok
    obtain ⟨hout, htable⟩ := hboth window groups hwindow hgroups
    exact ⟨hout.trans hok, htable⟩

/-- The visits by place and day, without a condition on their number. -/
def anyVisits : AggregateNode :=
  { visits with having := none }

def sortedVisitRows : List Row :=
  [[.int 1, .int 1, .int 10], [.int 1, .int 2, .int 20], [.int 2, .int 1, .int 40]]

theorem contiguous_sortedVisitRows (keyed : List KeyedRow)
    (hkeyed : anyVisits.keyed sortedVisitRows = .ok keyed) :
    Contiguous anyVisits.runWidth keyed := by
  obtain rfl : [([.int 1, .int 1], [.int 1, .int 1, .int 10]),
    ([.int 1, .int 2], [.int 1, .int 2, .int 20]),
    ([.int 2, .int 1], [.int 2, .int 1, .int 40])] = keyed := Except.ok.inj hkeyed
  intro first between last hsublist hlead
  have hall := hsublist.eq_of_length rfl
  simp only [List.cons.injEq, and_true] at hall
  obtain ⟨rfl, rfl, rfl⟩ := hall
  rfl

/-- With the whole window inside the first place, the third visit is not counted; the hash strategy
counts it, and gives the same answer. -/
theorem Machine.drive_of_contiguous_visits :
    ((ofNode anyVisits).drive [] 3 sortedVisitRows visitOutlet).1 = .ok () ∧
      ((ofNode anyVisits).drive [] 3 sortedVisitRows visitOutlet).2.2.shared =
        ((ofNode { anyVisits with strategy := .hash }).drive [] 3 sortedVisitRows
          visitOutlet).2.2.shared := by
  have hhash : ((ofNode { anyVisits with strategy := .hash }).drive [] 3 sortedVisitRows
      visitOutlet).1 = .ok () := rfl
  exact (drive_of_contiguous contiguous_sortedVisitRows (Eq.refl visitOutlet.shared) [] 3).1 hhash

end GraphScan
