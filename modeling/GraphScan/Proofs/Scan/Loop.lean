import GraphScan.Proofs.Aggregate.Drive
import GraphScan.Proofs.Gate.Window
import GraphScan.Scan.Execute

/-!
# What the row loop does

The loop takes rows apart from what it delivers them to: the gate alone decides which rows are
taken and which of them go on, until the sink fails or wants no more.

* `Run.sink` — where a run delivers to, its aggregation and its output table.  The meter, which the
  loop itself ticks, is not part of it.
* `Run.step_of_reject`, `Run.step_of_drop`, `Run.step_of_pass` — the three things that can happen to
  a row on which the predicate has a value.
* `Run.loop_cons_of_ok` — what is left in the scratch row does not matter for the rows to come.
* `Run.Follows` — that a loop does what feeding the selected images to the sink does.
* `Run.loop_follows` — **the loop follows the feeding of the selected images**, and takes exactly the
  rows up to the one after which nothing more can pass.
-/

namespace GraphScan

namespace Run

/-! ## The sink of a run -/

/-- **Where a run delivers to.** -/
def sink (run : Run) : Option Machine × SharedTable :=
  (run.machine, run.outlet.shared)

def count (run : Run) : Run :=
  { run with gate := run.gate.countMatch.2 }

@[simp] theorem gate_take (run : Run) : run.take.gate = run.gate := rfl

@[simp] theorem scanned_take (run : Run) : run.take.scanned = run.scanned + 1 := rfl

@[simp] theorem sink_take (run : Run) : run.take.sink = run.sink := rfl

@[simp] theorem gate_count (run : Run) : run.count.gate = run.gate.countMatch.2 := rfl

@[simp] theorem scanned_count (run : Run) : run.count.scanned = run.scanned := rfl

@[simp] theorem sink_count (run : Run) : run.count.sink = run.sink := rfl

@[simp] theorem gate_tick (run : Run) : run.tick.gate = run.gate := rfl

@[simp] theorem scanned_tick (run : Run) : run.tick.scanned = run.scanned := rfl

@[simp] theorem sink_tick (run : Run) : run.tick.sink = run.sink := rfl

@[simp] theorem gate_deliver (run : Run) (image : Row) :
    (run.deliver image).2.gate = run.gate := by
  rw [deliver]
  split <;> rfl

@[simp] theorem scanned_deliver (run : Run) (image : Row) :
    (run.deliver image).2.scanned = run.scanned := by
  rw [deliver]
  split <;> rfl

/-- A delivery shows nothing but the sink. -/
theorem deliver_congr {run hand : Run} (h : run.sink = hand.sink) (image : Row) :
    (run.deliver image).1 = (hand.deliver image).1 ∧
      (run.deliver image).2.sink = (hand.deliver image).2.sink := by
  have hmachine : run.machine = hand.machine := congrArg Prod.fst h
  have hshared : run.outlet.shared = hand.outlet.shared := congrArg Prod.snd h
  rw [deliver, deliver, ← hmachine, ← hshared]
  cases run.machine with
  | some machine =>
      obtain ⟨hout, hstate, htable⟩ := (machine.feed_writes image).congr hshared
      exact ⟨hout, Prod.ext (congrArg some hstate) htable⟩
  | none => exact ⟨rfl, rfl⟩

/-! ## One row -/

/-- A row that the predicate rejects is taken and nothing else. -/
theorem step_of_reject {run : Run} {row : Row} (route : Route)
    (hsettled : Settled run.gate.predicate row) (hadmits : admits run.gate.predicate row = false) :
    run.step route row = (.ok route, run.take) := by
  have hoffer : run.take.gate.offer row = .ok (false, run.gate) :=
    Gate.offer_of_reject hsettled hadmits
  simp only [step, hoffer]
  rfl

/-- A match before the offset is taken and counted. -/
theorem step_of_drop {run : Run} {row : Row} (route : Route)
    (hsettled : Settled run.gate.predicate row) (hadmits : admits run.gate.predicate row = true)
    (hopen : run.gate.isOpen = true) (hoffset : run.gate.window.offset ≠ 0) :
    run.step route row = (.ok route, run.take.count) := by
  have hoffer : run.take.gate.offer row = .ok (false, run.gate.countMatch.2) :=
    Gate.offer_of_drop hsettled hadmits hopen hoffset
  simp only [step, hoffer]
  rfl

/-- A match behind the offset is taken, counted and handed on. -/
theorem step_of_pass {run : Run} {row : Row} (route : Route)
    (hsettled : Settled run.gate.predicate row) (hadmits : admits run.gate.predicate row = true)
    (hopen : run.gate.isOpen = true) (hoffset : run.gate.window.offset = 0) :
    run.step route row = run.take.count.pass route row := by
  have hoffer : run.take.gate.offer row = .ok (true, run.gate.countMatch.2) :=
    Gate.offer_of_pass hsettled hadmits hopen hoffset
  simp only [step, hoffer]
  rfl

/-- A row on which the predicate has no value fails. -/
theorem settled_of_step {run next : Run} {row : Row} {route used : Route}
    (h : run.step route row = (.ok used, next)) : Settled run.gate.predicate row := by
  cases hmatch : run.gate.isMatch row with
  | ok found => exact Gate.settled_of_isMatch hmatch
  | error e =>
      have hoffer : run.gate.offer row = .error e := by
        simp [Gate.offer, hmatch, bind, Except.bind]
      simp [step, hoffer] at h

/-- **A match that passes is delivered** just as by any other run with the same sink. -/
theorem step_of_image {run hand : Run} {route : Route} {row image : Row}
    (hsettled : Settled run.gate.predicate row) (hadmits : admits run.gate.predicate row = true)
    (hopen : run.gate.isOpen = true) (hoffset : run.gate.window.offset = 0)
    (himage : route.image row = .ok image) (hsink : run.sink = hand.sink) :
    ∃ next : Run,
      next.sink = (hand.deliver image).2.sink ∧ next.gate = run.gate.countMatch.2 ∧
      next.gate.passed = run.gate.passed + 1 ∧ next.scanned = run.scanned + 1 ∧
      run.step route row =
        match (hand.deliver image).1 with
        | .error e => (.error e, next)
        | .ok demand => (.ok (route.reuse image), (next.heed demand).tick) := by
  have hcount : run.take.count.sink = hand.sink := hsink
  obtain ⟨hout, hnext⟩ := deliver_congr hcount image
  have hfst : run.gate.countMatch.1 = true := by
    rw [Gate.countMatch_fst_of_isOpen hopen, decide_eq_true hoffset]
  refine ⟨(run.take.count.deliver image).2, hnext, gate_deliver _ image, ?_,
    scanned_deliver _ image, ?_⟩
  · rw [gate_deliver, gate_count, gate_take, Gate.passed_countMatch, hfst, Bool.toNat_true]
  · rw [step_of_pass route hsettled hadmits hopen hoffset, ← hout]
    simp only [pass, himage]
    rcases run.take.count.deliver image with ⟨_ | _, next⟩ <;> rfl

/-! ## How the output is held

A run appends to its output and does nothing else to it. -/

@[simp] theorem hold_deliver (run : Run) (image : Row) :
    (run.deliver image).2.outlet.shared.hold = run.outlet.shared.hold := by
  rw [deliver]
  cases run.machine with
  | none =>
      rcases run.outlet.shared.insert_cases image with ⟨e, hinsert⟩ | ⟨-, -, hinsert⟩ <;>
        simp [hinsert]
  | some machine =>
      obtain ⟨outcome, state, gained, heq⟩ := machine.feed_writes image run.outlet.shared
      simp [show machine.feed image run.outlet = _ from heq run.outlet.meter]

@[simp] theorem hold_finish (run : Run) :
    run.finish.2.outlet.shared.hold = run.outlet.shared.hold := by
  rw [finish]
  cases run.machine with
  | none => rfl
  | some machine =>
      obtain ⟨outcome, state, gained, heq⟩ := machine.finish_writes run.outlet.shared
      simp [show machine.finish run.outlet = _ from heq run.outlet.meter]

@[simp] theorem outlet_heed (run : Run) (demand : Demand) :
    (run.heed demand).outlet = run.outlet := by
  cases demand <;> rfl

theorem hold_step (run : Run) (route : Route) (row : Row) :
    (run.step route row).2.outlet.shared.hold = run.outlet.shared.hold := by
  simp only [step, pass]
  split
  · rfl
  · rfl
  · rename_i gate _
    cases route.image row with
    | error e => rfl
    | ok image =>
      have hdeliver := hold_deliver { run.take with gate } image
      dsimp only
      split <;> rename_i hafter <;> rw [hafter] at hdeliver
      · exact hdeliver
      · show (heed _ _).outlet.shared.hold = _
        rw [outlet_heed]
        exact hdeliver

theorem hold_loop (route : Route) (rows : List Row) (run : Run) :
    (run.loop route rows).2.2.outlet.shared.hold = run.outlet.shared.hold := by
  induction rows generalizing route run with
  | nil => rfl
  | cons row rows ih =>
    rw [loop]
    split
    · have hstep := run.hold_step route row
      split <;> rename_i hafter <;> rw [hafter] at hstep
      · rw [ih, hstep]
      · exact hstep
    · rfl

/-! ## The scratch row -/

/-- **The image of a row does not depend on those before it**, although it is written over them. -/
theorem image_of_reuse {route : Route} {row image : Row} (h : route.image row = .ok image) :
    (route.reuse image).image = route.image := by
  funext other
  cases route with
  | none => rfl
  | some projector => exact Projection.apply_of_used h other

/-- After a row, images are what they were before it. -/
theorem image_of_step {run next : Run} {route used : Route} {row : Row}
    (h : run.step route row = (.ok used, next)) : used.image = route.image := by
  simp only [step] at h
  split at h
  · simp at h
  · simp only [Prod.mk.injEq, Except.ok.injEq] at h
    rw [h.1]
  · simp only [pass] at h
    split at h
    · simp at h
    · rename_i image himage
      split at h
      · simp at h
      · simp only [Prod.mk.injEq, Except.ok.injEq] at h
        rw [← h.1, image_of_reuse himage]

/-- Routes that give the same images do the same with a row. -/
theorem step_congr {route other : Route} (h : route.image = other.image) (run : Run) (row : Row) :
    (run.step route row).1.map Route.image = (run.step other row).1.map Route.image ∧
      (run.step route row).2 = (run.step other row).2 := by
  simp only [step, pass, h]
  split
  · exact ⟨rfl, rfl⟩
  · exact ⟨congrArg Except.ok h, rfl⟩
  · cases himage : other.image row with
    | error e => exact ⟨rfl, rfl⟩
    | ok image =>
      dsimp only
      split
      · exact ⟨rfl, rfl⟩
      · refine ⟨?_, rfl⟩
        simp only [Except.map, image_of_reuse himage, image_of_reuse ((congrFun h row).trans himage), h]

/-! ## All rows -/

/-- So they do with all rows. -/
theorem loop_congr {route other : Route} (h : route.image = other.image) (rows : List Row)
    (run : Run) : run.loop route rows = run.loop other rows := by
  induction rows generalizing run route other with
  | nil => rfl
  | cons row rows ih =>
    obtain ⟨houtcome, hnext⟩ := step_congr h run row
    rcases hroute : run.step route row with ⟨_ | used, next⟩ <;>
      rcases hother : run.step other row with ⟨_ | spent, after⟩ <;>
      simp only [hroute, hother, Except.map, Except.ok.injEq, Except.error.injEq, reduceCtorEq]
        at houtcome hnext <;>
      subst hnext
    · simp only [loop, hroute, hother, houtcome]
    · simp only [loop, hroute, hother, ih houtcome]

theorem loop_of_not_isOpen {run : Run} (h : run.gate.isOpen = false) (route : Route)
    (rows : List Row) : run.loop route rows = (.ok (), rows, run) := by
  cases rows with
  | nil => rfl
  | cons row rows => simp [loop, h]

/-- **After a row the loop goes on as if its scratch row had not been used.** -/
theorem loop_cons_of_ok {run next : Run} {route used : Route} {row : Row}
    (hopen : run.gate.isOpen = true) (hstep : run.step route row = (.ok used, next))
    (rows : List Row) : run.loop route (row :: rows) = next.loop route rows := by
  simp only [loop, hopen, hstep, if_true]
  exact loop_congr (image_of_step hstep) rows next

theorem loop_cons_of_error {run next : Run} {route : Route} {row : Row} {e : EngineError}
    (hopen : run.gate.isOpen = true) (hstep : run.step route row = (.error e, next))
    (rows : List Row) : run.loop route (row :: rows) = (.error e, rows, next) := by
  simp [loop, hopen, hstep]

end Run

/-! ## How many rows are taken -/

namespace Feeding

variable {σ : Type}

/-- **How many rows are taken** for a feeding: those up to the row that failed or was enough, else
those that the window looks at. -/
def taken (feeding : Feeding σ) (window : Window) (p : Row → Bool) (rows : List Row) : Nat :=
  match feeding.outcome with
  | .ok .more => window.extent p rows
  | _ => reach p (window.offset + feeding.fed) rows

/-- A rejected row is one more row taken. -/
theorem taken_cons_of_reject {feeding : Feeding σ} {window : Window} {p : Row → Bool} {row : Row}
    (hfed : feeding.outcome = .ok .more ∨ 0 < feeding.fed) (hopen : window.isOpen = true)
    (hp : p row = false) (rows : List Row) :
    feeding.taken window p (row :: rows) = feeding.taken window p rows + 1 := by
  obtain ⟨outcome, fed, state⟩ := feeding
  match outcome with
  | .ok .more => simp [taken, Window.extent_cons hopen, hp]
  | .ok .enough | .error e =>
      obtain ⟨count, rfl⟩ : ∃ count, fed = count + 1 := Nat.exists_eq_succ_of_ne_zero
        (Nat.ne_of_gt (by simpa using hfed))
      simp [taken, ← Nat.add_assoc, reach, hp]

/-- A match before the offset is one more row taken, and has used up one row of the offset. -/
theorem taken_cons_of_drop (feeding : Feeding σ) {window : Window} {p : Row → Bool} {row : Row}
    (hopen : window.isOpen = true) (hp : p row = true) (hoffset : window.offset ≠ 0)
    (rows : List Row) :
    feeding.taken window p (row :: rows) = feeding.taken window.next p rows + 1 := by
  obtain ⟨outcome, fed, state⟩ := feeding
  obtain ⟨limit, offset⟩ := window
  obtain ⟨offset, rfl⟩ : ∃ n, offset = n + 1 := Nat.exists_eq_succ_of_ne_zero hoffset
  match outcome with
  | .ok .more => simp [taken, Window.extent_cons hopen, hp]
  | .ok .enough | .error e => simp [taken, Window.next, Nat.add_right_comm, reach, hp]

/-- A match behind the offset is one more row taken, for one more row fed. -/
theorem taken_cons_of_pass (feeding : Feeding σ) {window : Window} {p : Row → Bool} {row : Row}
    (hopen : window.isOpen = true) (hp : p row = true) (hoffset : window.offset = 0)
    (rows : List Row) :
    Feeding.taken { feeding with fed := feeding.fed + 1 } window p (row :: rows) =
      feeding.taken window.next p rows + 1 := by
  obtain ⟨outcome, fed, state⟩ := feeding
  obtain ⟨limit, offset⟩ := window
  subst hoffset
  match outcome with
  | .ok .more => simp [taken, Window.extent_cons hopen, hp]
  | .ok .enough | .error e => simp [taken, Window.next, reach, hp]

end Feeding

namespace Run

/-- **What it means that a loop over `rows` follows a feeding of the rows selected from them**, with
`window` left at the start. -/
structure Follows (run : Run) (window : Window) (p : Row → Bool) (rows : List Row)
    (feeding : Feeding Run) (result : Except EngineError Unit × List Row × Run) : Prop where
  outcome : result.1 = feeding.outcome.map fun _ => ()
  rest : result.2.1 = rows.drop (feeding.taken window p rows)
  sink : result.2.2.sink = feeding.state.sink
  scanned : result.2.2.scanned = run.scanned + feeding.taken window p rows
  passed : result.2.2.gate.passed = run.gate.passed + feeding.fed

namespace Follows

variable {run next : Run} {window : Window} {p : Row → Bool} {row : Row} {rows : List Row}
  {feeding : Feeding Run} {result : Except EngineError Unit × List Row × Run}

theorem cons_of_reject (h : Follows next window p rows feeding result)
    (hfed : feeding.outcome = .ok .more ∨ 0 < feeding.fed) (hopen : window.isOpen = true)
    (hp : p row = false) (hscanned : next.scanned = run.scanned + 1)
    (hpassed : next.gate.passed = run.gate.passed) :
    Follows run window p (row :: rows) feeding result := by
  have htaken := Feeding.taken_cons_of_reject hfed hopen hp rows
  refine ⟨h.outcome, ?_, h.sink, ?_, ?_⟩
  · rw [h.rest, htaken, List.drop_succ_cons]
  · rw [h.scanned, htaken, hscanned, Nat.add_assoc, Nat.add_comm 1]
  · rw [h.passed, hpassed]

theorem cons_of_drop (h : Follows next window.next p rows feeding result)
    (hopen : window.isOpen = true) (hp : p row = true) (hoffset : window.offset ≠ 0)
    (hscanned : next.scanned = run.scanned + 1) (hpassed : next.gate.passed = run.gate.passed) :
    Follows run window p (row :: rows) feeding result := by
  have htaken := feeding.taken_cons_of_drop hopen hp hoffset rows
  refine ⟨h.outcome, ?_, h.sink, ?_, ?_⟩
  · rw [h.rest, htaken, List.drop_succ_cons]
  · rw [h.scanned, htaken, hscanned, Nat.add_assoc, Nat.add_comm 1]
  · rw [h.passed, hpassed]

theorem cons_of_pass (h : Follows next window.next p rows feeding result)
    (hopen : window.isOpen = true) (hp : p row = true) (hoffset : window.offset = 0)
    (hscanned : next.scanned = run.scanned + 1)
    (hpassed : next.gate.passed = run.gate.passed + 1) :
    Follows run window p (row :: rows) { feeding with fed := feeding.fed + 1 } result := by
  have htaken := feeding.taken_cons_of_pass hopen hp hoffset rows
  refine ⟨h.outcome, ?_, h.sink, ?_, ?_⟩
  · rw [h.rest, htaken, List.drop_succ_cons]
  · rw [h.scanned, htaken, hscanned, Nat.add_assoc, Nat.add_comm 1]
  · rw [h.passed, hpassed, Nat.add_assoc, Nat.add_comm 1]

/-- A match that is the last one fed is the last row taken. -/
theorem last {outcome : Except EngineError Demand} {state final : Run}
    (hlast : outcome ≠ .ok .more) (hp : p row = true) (hoffset : window.offset = 0)
    (hsink : final.sink = state.sink) (hscanned : final.scanned = run.scanned + 1)
    (hpassed : final.gate.passed = run.gate.passed + 1) :
    Follows run window p (row :: rows) ⟨outcome, 1, state⟩
      (outcome.map fun _ => (), rows, final) := by
  have htaken : Feeding.taken ⟨outcome, 1, state⟩ window p (row :: rows) = 1 := by
    match outcome with
    | .ok .more => exact absurd rfl hlast
    | .ok .enough | .error e => simp [Feeding.taken, hoffset, reach, hp]
  refine ⟨rfl, ?_, hsink, ?_, hpassed⟩
  · rw [htaken, List.drop_succ_cons, List.drop_zero]
  · rw [htaken, hscanned]

end Follows

/-- **The loop feeds the selected images to the sink.**  The predicate has to have a value on the
rows that the window looks at, and the selected rows need images.  The induction is on the rows; the
window of the gate is what is left of it at each of them. -/
theorem loop_follows {route : Route} {filter : Option Expr} {window : Window}
    {rows images : List Row} (run : Run) {hand : Run}
    (hclosed : run.gate.closed = false) (hfilter : run.gate.predicate = filter)
    (hwindow : run.gate.window = window) (hsink : run.sink = hand.sink)
    (hsettled : ∀ row ∈ rows.take (window.extent (admits filter) rows), Settled filter row)
    (himages : List.Forall₂ (fun row image => route.image row = .ok image)
      (window.cut (rows.filter (admits filter))) images) :
    Follows run window (admits filter) rows (feedAll Run.deliver hand images)
      (run.loop route rows) := by
  induction rows generalizing run hand window images with
  | nil =>
      have hnil : images = [] := by simpa using himages
      subst hnil
      constructor <;> simp [loop, feedAll, Feeding.taken, Except.map, hsink]
  | cons row rows ih =>
      have hgate : run.gate.isOpen = window.isOpen := by
        rw [Gate.isOpen_eq, hclosed, hwindow, Bool.not_false, Bool.true_and]
      cases hopen : window.isOpen with
      | false =>
          have hnil : images = [] := by simpa [Window.cut_of_not_isOpen hopen] using himages
          subst hnil
          rw [loop_of_not_isOpen (hgate.trans hopen)]
          constructor <;>
            simp [feedAll, Feeding.taken, Except.map, Window.extent_of_not_isOpen hopen, hsink]
      | true =>
          rw [hopen] at hgate
          rw [Window.extent_cons hopen, List.take_succ_cons, List.forall_mem_cons] at hsettled
          obtain ⟨hrow, hrest⟩ := hsettled
          rw [← hfilter] at hrow
          have hafter : run.take.count.gate.window = window.next := by
            rw [gate_count, gate_take, Gate.window_countMatch hgate, hwindow]
          cases hadmits : admits filter row with
          | false =>
              rw [List.filter_cons_of_neg (by simp [hadmits])] at himages
              rw [hadmits, if_neg (by simp)] at hrest
              rw [loop_cons_of_ok hgate (step_of_reject route hrow (by rw [hfilter, hadmits]))]
              exact (ih run.take hclosed hfilter hwindow hsink hrest himages).cons_of_reject
                (fed_feedAll_pos _ _ _) hopen hadmits rfl rfl
          | true =>
              have hmatch : admits run.gate.predicate row = true := by rw [hfilter, hadmits]
              rw [List.filter_cons_of_pos hadmits] at himages
              rw [hadmits, if_pos rfl] at hrest
              by_cases hoffset : window.offset = 0
              · rw [Window.cut_cons_of_isOpen hoffset hopen] at himages
                cases himages with
                | @cons _ image _ images himage himages =>
                  obtain ⟨next, hnext, hgateNext, hpassed, hscanned, hstep⟩ :=
                    step_of_image hrow hmatch hgate (by rw [hwindow, hoffset]) himage hsink
                  rcases hhand : hand.deliver image with ⟨outcome, hand'⟩
                  rw [hhand] at hnext hstep
                  cases outcome with
                  | error e =>
                      rw [loop_cons_of_error hgate hstep, feedAll_cons_of_error hhand]
                      exact .last (by simp) hadmits hoffset hnext hscanned hpassed
                  | ok demand =>
                      cases demand with
                      | more =>
                          have hticked : run.step route row =
                            (.ok (route.reuse image), next.tick) := hstep
                          rw [loop_cons_of_ok hgate hticked, feedAll_cons_of_more hhand]
                          exact (ih next.tick (by simpa [hgateNext] using hclosed)
                            (by simpa [hgateNext] using hfilter)
                            (by simpa [hgateNext] using hafter) hnext hrest himages).cons_of_pass
                              hopen hadmits hoffset hscanned hpassed
                      | enough =>
                          rw [loop_cons_of_ok hgate hstep, feedAll_cons_of_enough hhand,
                            loop_of_not_isOpen (by simp [heed, Gate.isOpen_close])]
                          exact .last (by simp) hadmits hoffset hnext hscanned hpassed
              · have hfst : run.gate.countMatch.1 = false := by
                  rw [Gate.countMatch_fst_of_isOpen hgate, hwindow, decide_eq_false hoffset]
                rw [Window.cut_cons_of_offset (Nat.pos_of_ne_zero hoffset)] at himages
                rw [loop_cons_of_ok hgate
                  (step_of_drop route hrow hmatch hgate (by rw [hwindow]; exact hoffset))]
                exact (ih run.take.count (by simpa using hclosed) (by simpa using hfilter)
                  hafter hsink hrest himages).cons_of_drop hopen hadmits hoffset rfl
                  (by simp [Gate.passed_countMatch, hfst])

end Run

end GraphScan
