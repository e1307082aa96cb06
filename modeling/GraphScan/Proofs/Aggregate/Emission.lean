import GraphScan.Proofs.Aggregate.Writes
import GraphScan.Proofs.Gate.Window

/-!
# Emission

What offering groups to a gate comes to.

* `Gate.emitAll_append` — groups offered in two parts are offered in one, unless the first part
  ends it.
* `Gate.emitAll_of_unlimited` — a gate without a limit never has enough.
* `Gate.emitAll_of_ok` — what such a gate has delivered if it has not failed.
* `Gate.emitAll_of_settled` — **if `having` has a value on all rows, the rows inside the window of
  those that it admits are delivered**, provided that they fit.
-/

namespace GraphScan

namespace Gate

variable {gate : Gate} {group : Group} {outlet : Outlet}

/-! ## One part after the other -/

theorem emitAll_append (gate : Gate) (outlet : Outlet) (groups others : List Group) :
    gate.emitAll outlet (groups ++ others) =
      match gate.emitAll outlet groups with
      | (.ok .more, gate, outlet) => gate.emitAll outlet others
      | stopped => stopped := by
  induction groups generalizing gate outlet with
  | nil => rfl
  | cons group groups ih =>
      rw [List.cons_append, emitAll, emitAll]
      rcases gate.emit group outlet with ⟨_ | _ | _, gate, outlet⟩
      · rfl
      · exact ih gate outlet
      · rfl

/-! ## Gates without a limit -/

/-- **A gate that never has enough.** -/
def Unlimited (gate : Gate) : Prop :=
  gate.limit = none ∧ gate.closed = false

theorem Unlimited.isOpen_eq (h : gate.Unlimited) : gate.isOpen = true := by
  rw [isOpen, h.1, h.2]
  rfl

theorem Unlimited.demand_eq (h : gate.Unlimited) : gate.demand = .more := by
  rw [demand, h.isOpen_eq]
  rfl

theorem Unlimited.countMatch (h : gate.Unlimited) : gate.countMatch.2.Unlimited := by
  rw [Gate.countMatch]
  split_ifs
  · exact h
  · exact h
  · exact h

theorem Unlimited.offer {next : Gate} {row : Row} {passes : Bool} (h : gate.Unlimited)
    (hoffer : gate.offer row = .ok (passes, next)) : next.Unlimited := by
  simp only [Gate.offer, bind, Except.bind] at hoffer
  cases hmatch : gate.isMatch row with
  | error e => simp [hmatch] at hoffer
  | ok found =>
      simp only [hmatch, Except.ok.injEq] at hoffer
      cases found with
      | false =>
          obtain rfl : gate = next := congrArg Prod.snd hoffer
          exact h
      | true =>
          obtain rfl : gate.countMatch.2 = next := congrArg Prod.snd hoffer
          exact h.countMatch

/-- An offer to a gate without a limit fails, or leaves more wanted. -/
theorem Unlimited.emit (h : gate.Unlimited) (group : Group) (outlet : Outlet) :
    (gate.emit group outlet).1 ≠ .ok .enough ∧ (gate.emit group outlet).2.1.Unlimited := by
  simp only [Gate.emit, if_pos h.isOpen_eq]
  rcases hoffer : gate.offer group.row with _ | ⟨_ | _, next⟩
  · exact ⟨by simp, h⟩
  · have hnext := h.offer hoffer
    exact ⟨by simp [hnext.demand_eq], hnext⟩
  · have hnext := h.offer hoffer
    rcases outlet.deliver group.row with ⟨e | _, after⟩
    · exact ⟨by simp, hnext⟩
    · exact ⟨by simp [hnext.demand_eq], hnext⟩

/-- **A gate without a limit never has enough.** -/
theorem emitAll_of_unlimited (h : gate.Unlimited) (groups : List Group) (outlet : Outlet) :
    (gate.emitAll outlet groups).1 ≠ .ok .enough ∧
      (gate.emitAll outlet groups).2.1.Unlimited := by
  induction groups generalizing gate outlet with
  | nil => exact ⟨by simp [emitAll], h⟩
  | cons group groups ih =>
      have hemit := h.emit group outlet
      rw [emitAll]
      rcases hgroup : gate.emit group outlet with ⟨_ | _ | _, next, outlet⟩
      · rw [hgroup] at hemit
        exact hemit
      · rw [hgroup] at hemit
        exact ih hemit.2 outlet
      · rw [hgroup] at hemit
        exact absurd rfl hemit.1

/-! ## Offers on which the filter has a value -/

theorem emit_of_not_isOpen (h : gate.isOpen = false) (group : Group) (outlet : Outlet) :
    gate.emit group outlet = (.ok .enough, gate, outlet) := by
  rw [emit, if_neg (by simp [h])]

theorem emit_of_reject (hopen : gate.isOpen = true) (hsettled : Settled gate.predicate group.row)
    (hadmits : admits gate.predicate group.row = false) (outlet : Outlet) :
    gate.emit group outlet = (.ok .more, gate, outlet) := by
  simp only [emit, hopen, if_true, offer_of_reject hsettled hadmits, demand]

theorem emit_of_drop (hopen : gate.isOpen = true) (hsettled : Settled gate.predicate group.row)
    (hadmits : admits gate.predicate group.row = true) (hoffset : gate.window.offset ≠ 0)
    (outlet : Outlet) :
    gate.emit group outlet = (.ok gate.countMatch.2.demand, gate.countMatch.2, outlet) := by
  simp only [emit, hopen, if_true, offer_of_drop hsettled hadmits hopen hoffset]

theorem emit_of_pass (hopen : gate.isOpen = true) (hsettled : Settled gate.predicate group.row)
    (hadmits : admits gate.predicate group.row = true) (hoffset : gate.window.offset = 0)
    (hfree : outlet.shared.hold = .free) (hfits : outlet.shared.table.schema.Fits group.row) :
    gate.emit group outlet =
      (.ok gate.countMatch.2.demand, gate.countMatch.2, outlet.receiveAll [group.row]) := by
  have hdeliver := Outlet.deliver_eq_ok_iff.mpr ⟨hfree, hfits, rfl⟩
  simp only [emit, hopen, if_true, offer_of_pass hsettled hadmits hopen hoffset, hdeliver]

theorem emitAll_of_not_isOpen (h : gate.isOpen = false) (groups : List Group) (outlet : Outlet) :
    ∃ demand, gate.emitAll outlet groups = (.ok demand, gate, outlet) := by
  cases groups with
  | nil => exact ⟨.more, rfl⟩
  | cons group groups => exact ⟨.enough, by rw [emitAll, emit_of_not_isOpen h]⟩

/-- After an offer that does not fail it is the turn of the other groups, even if the gate has
closed. -/
theorem emitAll_cons_of_emit {next : Gate} {after : Outlet}
    (h : gate.emit group outlet = (.ok next.demand, next, after)) (groups : List Group) :
    ((gate.emitAll outlet (group :: groups)).1.map fun _ => ()) =
        ((next.emitAll after groups).1.map fun _ => ()) ∧
      (gate.emitAll outlet (group :: groups)).2.2 = (next.emitAll after groups).2.2 := by
  rw [emitAll, h, demand]
  cases hopen : next.isOpen with
  | true => exact ⟨rfl, rfl⟩
  | false =>
      obtain ⟨demand, hall⟩ := emitAll_of_not_isOpen hopen groups after
      rw [hall]
      exact ⟨rfl, rfl⟩

/-- **What is emitted where the filter has a value on all rows**: the rows inside the window of
those that it admits, provided that they fit.  The induction is on the groups; what is left of the
window at each of them is the window of the gate. -/
theorem emitAll_of_settled (gate : Gate) (outlet : Outlet) {groups : List Group}
    (hclosed : gate.closed = false)
    (hfree : outlet.shared.hold = .free)
    (hsettled : ∀ group ∈ groups, Settled gate.predicate group.row)
    (hfits : ∀ row ∈ gate.window.cut ((groups.map Group.row).filter (admits gate.predicate)),
      outlet.shared.table.schema.Fits row) :
    ((gate.emitAll outlet groups).1.map fun _ => ()) = .ok () ∧
      (gate.emitAll outlet groups).2.2 = outlet.receiveAll
        (gate.window.cut ((groups.map Group.row).filter (admits gate.predicate))) := by
  induction groups generalizing gate outlet with
  | nil => exact ⟨rfl, by simp [emitAll]⟩
  | cons group groups ih =>
      obtain ⟨hgroup, hrest⟩ := List.forall_mem_cons.mp hsettled
      have hwindow : gate.window.isOpen = gate.isOpen := by
        rw [isOpen_eq, hclosed, Bool.not_false, Bool.true_and]
      cases hopen : gate.isOpen with
      | false =>
          rw [emitAll, emit_of_not_isOpen hopen, Window.cut_of_not_isOpen (hwindow.trans hopen)]
          exact ⟨rfl, rfl⟩
      | true =>
          cases hadmits : admits gate.predicate group.row with
          | false =>
              rw [List.map_cons, List.filter_cons_of_neg (by simp [hadmits])] at hfits ⊢
              rw [emitAll, emit_of_reject hopen hgroup hadmits]
              exact ih gate outlet hclosed hfree hrest hfits
          | true =>
              have hclosed' : gate.countMatch.2.closed = false := by simpa using hclosed
              have hrest' : ∀ group ∈ groups, Settled gate.countMatch.2.predicate group.row := by
                simpa using hrest
              rw [List.map_cons, List.filter_cons_of_pos hadmits] at hfits ⊢
              by_cases hoffset : gate.window.offset = 0
              · rw [Window.cut_cons_of_isOpen hoffset (hwindow.trans hopen),
                  ← window_countMatch hopen] at hfits ⊢
                obtain ⟨hrow, hrows⟩ := List.forall_mem_cons.mp hfits
                obtain ⟨hout, houtlet⟩ := emitAll_cons_of_emit
                  (emit_of_pass hopen hgroup hadmits hoffset hfree hrow) groups
                have hih := ih gate.countMatch.2 (outlet.receiveAll [group.row]) hclosed' hfree
                  hrest' (by simpa using hrows)
                rw [hout, houtlet, hih.1, hih.2, Outlet.receiveAll_append, List.singleton_append,
                  predicate_countMatch]
                exact ⟨rfl, rfl⟩
              · rw [Window.cut_cons_of_offset (Nat.pos_of_ne_zero hoffset),
                  ← window_countMatch hopen] at hfits ⊢
                obtain ⟨hout, houtlet⟩ := emitAll_cons_of_emit
                  (emit_of_drop hopen hgroup hadmits hoffset outlet) groups
                have hih := ih gate.countMatch.2 outlet hclosed' hfree hrest'
                  (by simpa using hfits)
                rw [hout, houtlet, hih.1, hih.2, predicate_countMatch]
                exact ⟨rfl, rfl⟩

/-! ## Gates without a limit that do not fail -/

/-- The filter has a value on a row on which an offer does not fail. -/
theorem settled_of_emit (hopen : gate.isOpen = true) {group : Group} {demand : Demand}
    (hok : (gate.emit group outlet).1 = .ok demand) : Settled gate.predicate group.row := by
  cases hmatch : gate.isMatch group.row with
  | ok found => exact settled_of_isMatch hmatch
  | error e =>
      have hoffer : gate.offer group.row = .error e := by
        simp [offer, hmatch, bind, Except.bind]
      simp [emit, hopen, hoffer] at hok

theorem skip_countMatch (hskip : gate.skip = 0) : gate.countMatch.2.skip = 0 := by
  rw [countMatch, if_neg (by omega)]
  split <;> exact hskip

/-- An offer that does not fail delivers the row of the group, if the filter admits it. -/
theorem Unlimited.emit_of_ok (h : gate.Unlimited) (hskip : gate.skip = 0) {group : Group}
    {demand : Demand} (hok : (gate.emit group outlet).1 = .ok demand) :
    ∃ next, next.Unlimited ∧ next.skip = 0 ∧ next.predicate = gate.predicate ∧
      gate.emit group outlet =
        (.ok .more, next, outlet.receiveAll ([group.row].filter (admits gate.predicate))) := by
  have hopen := h.isOpen_eq
  have hsettled := settled_of_emit hopen hok
  cases hadmits : admits gate.predicate group.row with
  | false =>
      rw [List.filter_cons_of_neg (by simp [hadmits])]
      exact ⟨gate, h, hskip, rfl, emit_of_reject hopen hsettled hadmits outlet⟩
  | true =>
      rw [List.filter_cons_of_pos hadmits, List.filter_nil]
      have hpasses := offer_of_pass hsettled hadmits hopen hskip
      rcases hdeliver : outlet.deliver group.row with ⟨e | _, after⟩
      · simp [Gate.emit, hopen, hpasses, hdeliver] at hok
      · obtain ⟨hfree, hfits, -⟩ := Outlet.deliver_eq_ok_iff.mp hdeliver
        refine ⟨gate.countMatch.2, h.countMatch, skip_countMatch hskip, predicate_countMatch gate,
          ?_⟩
        rw [emit_of_pass hopen hsettled hadmits hskip hfree hfits, h.countMatch.demand_eq]

/-- **What a gate without a limit or an offset has delivered if it has not failed**: the rows that its
filter admits. -/
theorem emitAll_of_ok (h : gate.Unlimited) (hskip : gate.skip = 0) {groups : List Group}
    {demand : Demand} (hok : (gate.emitAll outlet groups).1 = .ok demand) :
    (gate.emitAll outlet groups).2.2 =
      outlet.receiveAll ((groups.map Group.row).filter (admits gate.predicate)) := by
  induction groups generalizing gate outlet with
  | nil => rfl
  | cons group groups ih =>
      rw [emitAll] at hok ⊢
      cases hemit : (gate.emit group outlet).1 with
      | error e =>
          rcases hgroup : gate.emit group outlet with ⟨outcome, next, after⟩
          rw [hgroup] at hok hemit
          obtain rfl : outcome = .error e := hemit
          cases hok
      | ok demand =>
          obtain ⟨next, hnext, hzero, hpredicate, hgroup⟩ := h.emit_of_ok hskip hemit
          rw [hgroup] at hok ⊢
          dsimp only at hok ⊢
          rw [ih hnext hzero hok, Outlet.receiveAll_append, hpredicate, List.map_cons,
            ← List.filter_append, List.singleton_append]

end Gate

end GraphScan
