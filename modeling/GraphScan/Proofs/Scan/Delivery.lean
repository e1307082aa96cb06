import GraphScan.Proofs.Scan.Loop

/-!
# Delivering into a table

A scan without an aggregation inserts the images of its selected rows into its output table.

* `Run.feedAll_deliver_of_fits` — into a table that nobody holds, images that fit are all inserted.
* `Run.feedAll_deliver_of_ok` — if they are all inserted, they stand behind the rows of the table,
  in order.
* `Run.selected_of_loop` — a loop that succeeds has had a value of the predicate for every row it
  took, and an image for every row it selected.
-/

namespace GraphScan

namespace Run

/-- Without an aggregation an image that can be inserted is inserted, and more are wanted. -/
theorem deliver_of_insert {run : Run} {image : Row} {shared : SharedTable}
    (h : run.machine = none) (hinsert : run.outlet.shared.insert image = (.ok (), shared)) :
    run.deliver image = (.ok .more, { run with outlet := { run.outlet with shared } }) := by
  simp only [deliver, h, hinsert, Except.map]

/-- One that is refused leaves everything as it was. -/
theorem deliver_of_insert_error {run : Run} {image : Row} {e : EngineError}
    (h : run.machine = none) (hinsert : (run.outlet.shared.insert image).1 = .error e) :
    run.deliver image = (.error e, run) := by
  simp only [deliver, h, SharedTable.insert_of_error hinsert, Except.map]
  rw [← h]

/-- Without an aggregation a delivery that succeeds appends the image and wants more. -/
theorem deliver_of_ok {run next : Run} {demand : Demand} {image : Row} (h : run.machine = none)
    (hok : run.deliver image = (.ok demand, next)) :
    demand = .more ∧ next.machine = none ∧
      next.outlet.shared = run.outlet.shared.appendAll [image] := by
  rcases hinsert : run.outlet.shared.insert image with ⟨_ | _, shared⟩
  · rw [deliver_of_insert_error h (congrArg Prod.fst hinsert)] at hok
    cases hok
  · rw [deliver_of_insert h hinsert] at hok
    obtain ⟨-, -, rfl⟩ := SharedTable.insert_eq_ok_iff.mp hinsert
    cases hok
    exact ⟨rfl, h, rfl⟩

/-- Without an aggregation a delivery that fails is an insertion that was refused, and leaves
everything as it was. -/
theorem deliver_error_of_none {run : Run} {image : Row} {e : EngineError} (h : run.machine = none)
    (herror : (run.deliver image).1 = .error e) :
    (run.outlet.shared.insert image).1 = .error e ∧ (run.deliver image).2 = run := by
  rcases hinsert : run.outlet.shared.insert image with ⟨_ | _, shared⟩
  · rw [deliver_of_insert_error h (congrArg Prod.fst hinsert)] at herror ⊢
    exact ⟨congrArg Except.error (Except.error.inj herror), rfl⟩
  · rw [deliver_of_insert h hinsert] at herror
    cases herror

/-- Images that fit are inserted into a table that nobody holds. -/
theorem feedAll_deliver_of_fits (run : Run) (hmachine : run.machine = none)
    (hfree : run.outlet.shared.hold = .free) {images : List Row}
    (hfits : ∀ image ∈ images, run.outlet.shared.table.schema.Fits image) :
    (feedAll Run.deliver run images).outcome = .ok .more := by
  induction images generalizing run with
  | nil => rfl
  | cons image images ih =>
      obtain ⟨hfirst, hrest⟩ := List.forall_mem_cons.mp hfits
      have hinsert := SharedTable.insert_eq_ok_iff.mpr ⟨hfree, hfirst, rfl⟩
      rw [feedAll_cons_of_more (deliver_of_insert hmachine hinsert)]
      exact ih _ hmachine hfree (by simpa using hrest)

/-- **Inserted images stand behind the rows of the table.** -/
theorem feedAll_deliver_of_ok {run : Run} (hmachine : run.machine = none) {images : List Row}
    {demand : Demand} (hok : (feedAll Run.deliver run images).outcome = .ok demand) :
    (feedAll Run.deliver run images).outcome = .ok .more ∧
      (feedAll Run.deliver run images).fed = images.length ∧
      (feedAll Run.deliver run images).state.sink =
        (none, run.outlet.shared.appendAll images) := by
  induction images generalizing run with
  | nil => exact ⟨rfl, rfl, by simp [feedAll, sink, hmachine]⟩
  | cons image images ih =>
      rcases hdeliver : run.deliver image with ⟨outcome, next⟩
      cases outcome with
      | error e => simp [feedAll_cons_of_error hdeliver] at hok
      | ok wanted =>
          obtain ⟨rfl, hnext, hshared⟩ := deliver_of_ok hmachine hdeliver
          rw [feedAll_cons_of_more hdeliver] at hok ⊢
          obtain ⟨hout, hfed, hsink⟩ := ih hnext hok
          refine ⟨hout, congrArg (· + 1) hfed, ?_⟩
          rw [hsink, hshared, SharedTable.appendAll_appendAll, List.singleton_append]

/-- Handing on a row without an error needs an image of it and, without an aggregation, leaves the
gate open. -/
theorem image_of_pass {run next : Run} {route used : Route} {row : Row} (h : run.machine = none)
    (hpass : run.pass route row = (.ok used, next)) :
    (∃ image, route.image row = .ok image) ∧ next.machine = none ∧ next.gate = run.gate := by
  cases himage : route.image row with
  | error e => simp [pass, himage] at hpass
  | ok image =>
      simp only [pass, himage] at hpass
      have hgate := gate_deliver run image
      rcases hdeliver : run.deliver image with ⟨outcome, after⟩
      rw [hdeliver] at hpass hgate
      cases outcome with
      | error e => simp at hpass
      | ok demand =>
          obtain ⟨rfl, hafter, -⟩ := deliver_of_ok h hdeliver
          obtain rfl : (after.heed .more).tick = next := congrArg Prod.snd hpass
          exact ⟨⟨image, rfl⟩, hafter, hgate⟩

/-- **What a loop into a table that succeeds has found**: a value of the predicate for every row
that it took, and an image for every row that it selected. -/
theorem selected_of_loop {route : Route} {filter : Option Expr} {window : Window}
    {rows : List Row} (run : Run) (hmachine : run.machine = none)
    (hclosed : run.gate.closed = false) (hfilter : run.gate.predicate = filter)
    (hwindow : run.gate.window = window) (hok : (run.loop route rows).1 = .ok ()) :
    (∀ row ∈ rows.take (window.extent (admits filter) rows), Settled filter row) ∧
      ∃ images, List.Forall₂ (fun row image => route.image row = .ok image)
        (window.cut (rows.filter (admits filter))) images := by
  induction rows generalizing run window with
  | nil => exact ⟨by simp, [], by simp⟩
  | cons row rows ih =>
      have hgate : run.gate.isOpen = window.isOpen := by
        rw [Gate.isOpen_eq, hclosed, hwindow, Bool.not_false, Bool.true_and]
      cases hopen : window.isOpen with
      | false =>
          rw [Window.extent_of_not_isOpen hopen, Window.cut_of_not_isOpen hopen]
          exact ⟨by simp, [], .nil⟩
      | true =>
          rw [hopen] at hgate
          rcases hstep : run.step route row with ⟨_ | used, next⟩
          · simp [loop_cons_of_error hgate hstep] at hok
          have hrow : Settled run.gate.predicate row := settled_of_step hstep
          have hafter : run.take.count.gate.window = window.next := by
            rw [gate_count, gate_take, Gate.window_countMatch hgate, hwindow]
          rw [loop_cons_of_ok hgate hstep] at hok
          rw [Window.extent_cons hopen, List.take_succ_cons, List.forall_mem_cons, ← hfilter]
          cases hadmits : admits run.gate.predicate row with
          | false =>
              rw [step_of_reject route hrow hadmits] at hstep
              obtain rfl : run.take = next := congrArg Prod.snd hstep
              obtain ⟨hrest, himages⟩ :=
                ih run.take hmachine hclosed hfilter hwindow hok
              rw [← hfilter] at hrest himages
              rw [List.filter_cons_of_neg (by simp [hadmits])]
              exact ⟨⟨hrow, by simpa using hrest⟩, himages⟩
          | true =>
              rw [List.filter_cons_of_pos hadmits]
              by_cases hoffset : window.offset = 0
              · rw [step_of_pass route hrow hadmits hgate (by rw [hwindow, hoffset])] at hstep
                have hcount : run.take.count.machine = none := hmachine
                obtain ⟨⟨image, himage⟩, hnext, hsame⟩ :=
                  image_of_pass hcount hstep
                obtain ⟨hrest, images, himages⟩ := ih next hnext (by simpa [hsame] using hclosed)
                  (by simpa [hsame] using hfilter) (by rw [hsame, hafter]) hok
                rw [← hfilter] at hrest himages
                rw [Window.cut_cons_of_isOpen hoffset hopen]
                exact ⟨⟨hrow, by simpa using hrest⟩, image :: images, .cons himage himages⟩
              · rw [step_of_drop route hrow hadmits hgate (by rw [hwindow]; exact hoffset)] at hstep
                obtain rfl : run.take.count = next := congrArg Prod.snd hstep
                obtain ⟨hrest, himages⟩ := ih run.take.count hmachine
                  (by simpa using hclosed) (by simpa using hfilter) hafter hok
                rw [← hfilter] at hrest himages
                rw [Window.cut_cons_of_offset (Nat.pos_of_ne_zero hoffset)]
                exact ⟨⟨hrow, by simpa using hrest⟩, himages⟩

end Run

end GraphScan
