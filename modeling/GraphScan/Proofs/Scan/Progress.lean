import GraphScan.Proofs.Scan.Loop

/-!
# How far the row loop gets

The loop can end at any row: because the gate has closed, because the rows have run out, or because
the predicate, the image or the delivery of a row has failed.  Wherever it ends, what it has done is
told by the rows it has taken.

* `selectedImages` — the images of the rows selected from some rows.
* `Run.deliveries` — what delivering them to the sink comes to.
* `Run.Reached` — **the invariant of the loop**: its gate, its sink and its counts after some rows,
  in terms of these rows.
* `Run.Cause` — why a row fails, and what it leaves in the sink.
* `Run.Reached.step` — one row keeps the invariant or fails for one of these causes.
* `Run.Reached.loop` — so do all rows.
-/

namespace GraphScan

/-! ## Selected rows -/

section Selected

variable {filter : Option Expr} {window : Window} {image : Row → Except EngineError Row}
  {rows images : List Row} {row : Row}

/-- **The images of the selected rows**, as far as they have any. -/
def selectedImages (filter : Option Expr) (window : Window) (image : Row → Except EngineError Row)
    (rows : List Row) : List Row :=
  (window.cut (rows.filter (admits filter))).filterMap fun row => (image row).toOption

theorem selectedImages_of_forall₂
    (h : List.Forall₂ (fun row found => image row = .ok found)
      (window.cut (rows.filter (admits filter))) images) :
    selectedImages filter window image rows = images := by
  rw [selectedImages]
  generalize window.cut (rows.filter (admits filter)) = selected at h ⊢
  induction h with
  | nil => rfl
  | cons hrow _ ih => rw [List.filterMap_cons_some (by rw [hrow]; rfl), ih]

/-- A row that the filter does not admit has no part in the selection. -/
theorem selectedImages_concat_of_reject (h : admits filter row = false) :
    selectedImages filter window image (rows ++ [row]) =
      selectedImages filter window image rows := by
  rw [selectedImages, List.filter_append, List.filter_cons_of_neg (by simp [h]), List.filter_nil,
    List.append_nil, selectedImages]

/-- A row that is selected adds its image, if it has one. -/
theorem selectedImages_concat_of_cut
    (h : window.cut ((rows ++ [row]).filter (admits filter)) =
      window.cut (rows.filter (admits filter)) ++ [row]) :
    selectedImages filter window image (rows ++ [row]) =
      selectedImages filter window image rows ++ (image row).toOption.toList := by
  rw [selectedImages, h, List.filterMap_append, selectedImages]
  cases himage : image row <;> simp [himage, Except.toOption]

end Selected

namespace Run

/-- **What delivering the selected rows comes to.** -/
def deliveries (start : Run) (route : Route) (rows : List Row) : Feeding Run :=
  feedAll Run.deliver start
    (selectedImages start.gate.predicate start.gate.window route.image rows)

/-- **How far a run has got.**  Since `start` it has taken the rows `seen`.  Their selected rows have
the images `images`, and all of these were accepted by the sink.  The counts are those of the rows,
as they stood when the last one was taken. -/
structure Reached (start : Run) (route : Route) (seen images : List Row) (now : Run) : Prop where
  predicate_eq : now.gate.predicate = start.gate.predicate
  window_eq : now.gate.window =
    start.gate.window.after (seen.filter (admits start.gate.predicate)).length
  settled : ∀ row ∈ seen, Settled start.gate.predicate row
  image_eq : List.Forall₂ (fun row image => route.image row = .ok image)
    (start.gate.window.cut (seen.filter (admits start.gate.predicate))) images
  accepted : (feedAll Run.deliver start images).outcome =
    .ok (if now.gate.closed then .enough else .more)
  fed : (feedAll Run.deliver start images).fed = images.length
  sink_eq : now.sink = (feedAll Run.deliver start images).state.sink
  scanned_eq : now.scanned = start.scanned + seen.length
  passed_eq : now.gate.passed = start.gate.passed + images.length
  noted_eq : now.noted =
    ⟨now.scanned, start.gate.passed + (start.deliveries route seen.dropLast).accepted⟩

/-- **Why a row fails** that comes after `seen`, and what it leaves in the sink.  Only a row that is
selected can fail for want of an image, or because the sink refuses the image. -/
inductive Cause (start : Run) (route : Route) (seen images : List Row) (row : Row) (e : EngineError) :
    Option Machine × SharedTable → Prop where
  | predicate {predicate : Expr} (hpredicate : predicate ∈ start.gate.predicate)
      (herror : predicate.eval row = .error e) :
      Cause start route seen images row e (feedAll Run.deliver start images).state.sink
  | image (hselected : start.gate.window.cut ((seen ++ [row]).filter (admits start.gate.predicate)) =
        start.gate.window.cut (seen.filter (admits start.gate.predicate)) ++ [row])
      (herror : route.image row = .error e) :
      Cause start route seen images row e (feedAll Run.deliver start images).state.sink
  | delivery {image : Row}
      (hselected : start.gate.window.cut ((seen ++ [row]).filter (admits start.gate.predicate)) =
        start.gate.window.cut (seen.filter (admits start.gate.predicate)) ++ [row])
      (himage : route.image row = .ok image)
      (herror : ((feedAll Run.deliver start images).state.deliver image).1 = .error e) :
      Cause start route seen images row e
        ((feedAll Run.deliver start images).state.deliver image).2.sink

/-- **A run that has failed** at `row`, having taken the rows `seen` before it. -/
structure Failed (start : Run) (route : Route) (seen images : List Row) (row : Row)
    (e : EngineError) (final : Run) : Prop where
  reached : ∃ now, Reached start route seen images now ∧ now.gate.isOpen = true
  noted_eq : final.noted = ⟨start.scanned + seen.length + 1, start.gate.passed + images.length⟩
  cause : Cause start route seen images row e final.sink

variable {start now : Run} {route : Route} {seen images : List Row}

/-! ## The counts of a row -/

@[simp] theorem noted_deliver (run : Run) (image : Row) :
    (run.deliver image).2.noted = run.noted := by
  rw [deliver]
  split
  · rfl
  · rfl

@[simp] theorem noted_heed (run : Run) (demand : Demand) : (run.heed demand).noted = run.noted := by
  cases demand <;> rfl

@[simp] theorem noted_tick (run : Run) : run.tick.noted = run.noted := rfl

@[simp] theorem noted_pass (run : Run) (route : Route) (row : Row) :
    (run.pass route row).2.noted = run.noted := by
  rw [pass]
  cases route.image row with
  | error e => rfl
  | ok image =>
      have hnoted := noted_deliver run image
      rcases hdeliver : run.deliver image with ⟨_ | demand, next⟩ <;> rw [hdeliver] at hnoted
      · simpa [hdeliver] using hnoted
      · simpa [hdeliver] using hnoted

/-- Whatever becomes of a row, it is noted before. -/
theorem noted_step (run : Run) (route : Route) (row : Row) :
    (run.step route row).2.noted = ⟨run.scanned + 1, run.gate.passed⟩ := by
  rw [step]
  rcases run.take.gate.offer row with _ | ⟨_ | _, gate⟩
  · rfl
  · rfl
  · exact noted_pass _ route row

/-- A row fails before the gate only if the predicate does. -/
theorem step_of_predicate_error {run : Run} {row : Row} {predicate : Expr} {e : EngineError}
    (hpredicate : predicate ∈ run.gate.predicate) (herror : predicate.eval row = .error e)
    (route : Route) : run.step route row = (.error e, run.take) := by
  have hoffer : run.take.gate.offer row = .error e := by
    rw [Option.mem_def] at hpredicate
    simp [Gate.offer, Gate.isMatch, hpredicate, herror, bind, Except.bind]
  simp only [step, hoffer]

/-- A predicate has a value on a row, or an error. -/
theorem settled_or_error (filter : Option Expr) (row : Row) :
    Settled filter row ∨ ∃ predicate ∈ filter, ∃ e, predicate.eval row = .error e := by
  cases filter with
  | none => exact .inl fun predicate hpredicate => by cases hpredicate
  | some predicate =>
      cases hvalue : predicate.eval row with
      | error e => exact .inr ⟨predicate, rfl, e, hvalue⟩
      | ok value =>
          refine .inl fun other hother => ?_
          cases hother
          exact ⟨value, hvalue⟩

/-! ## One row -/

namespace Reached

/-- The run itself, before the first row. -/
theorem refl (route : Route) (hclosed : start.gate.closed = false)
    (hnoted : start.noted = ⟨start.scanned, start.gate.passed⟩) : Reached start route [] [] start := by
  constructor <;>
    simp [feedAll, hclosed, hnoted, deliveries, selectedImages, Feeding.accepted]

variable (h : Reached start route seen images now)

include h

/-- The images have been delivered. -/
theorem deliveries_eq : start.deliveries route seen = feedAll Run.deliver start images := by
  rw [deliveries, selectedImages_of_forall₂ h.image_eq]

theorem accepted_deliveries : (start.deliveries route seen).accepted = images.length := by
  rw [h.deliveries_eq, Feeding.accepted, h.accepted, ← h.fed]

/-- As long as the gate is open the sink wants more. -/
theorem wants_more (hopen : now.gate.isOpen = true) :
    now.gate.closed = false ∧ (feedAll Run.deliver start images).outcome = .ok .more := by
  have hclosed : now.gate.closed = false := by
    rw [Gate.isOpen_eq, Bool.and_eq_true, Bool.not_eq_true'] at hopen
    exact hopen.1
  exact ⟨hclosed, by rw [h.accepted, hclosed]; rfl⟩

/-- A row that is not selected is one more row taken, and nothing else. -/
theorem skip {row : Row} {next : Run} (hsettled : Settled start.gate.predicate row)
    (hcut : start.gate.window.cut ((seen ++ [row]).filter (admits start.gate.predicate)) =
      start.gate.window.cut (seen.filter (admits start.gate.predicate)))
    (hpredicate : next.gate.predicate = now.gate.predicate)
    (hclosed : next.gate.closed = now.gate.closed) (hpassed : next.gate.passed = now.gate.passed)
    (hwindow : next.gate.window = start.gate.window.after
      ((seen ++ [row]).filter (admits start.gate.predicate)).length)
    (hsink : next.sink = now.sink) (hscanned : next.scanned = now.scanned + 1)
    (hnoted : next.noted = ⟨now.scanned + 1, now.gate.passed⟩) :
    Reached start route (seen ++ [row]) images next where
  predicate_eq := hpredicate.trans h.predicate_eq
  window_eq := hwindow
  settled := by
    intro other hother
    rcases List.mem_append.mp hother with hseen | hrow
    · exact h.settled other hseen
    · rwa [List.mem_singleton.mp hrow]
  image_eq := by rw [hcut]; exact h.image_eq
  accepted := by rw [hclosed]; exact h.accepted
  fed := h.fed
  sink_eq := hsink.trans h.sink_eq
  scanned_eq := by rw [hscanned, h.scanned_eq, List.length_append, Nat.add_assoc]; rfl
  passed_eq := hpassed.trans h.passed_eq
  noted_eq := by
    rw [hnoted, hscanned, h.passed_eq, List.dropLast_concat, h.accepted_deliveries]

/-- A row that is selected and accepted is one more row taken and one more image. -/
theorem accept {row image : Row} {next : Run} {demand : Demand}
    (hsettled : Settled start.gate.predicate row)
    (hcut : start.gate.window.cut ((seen ++ [row]).filter (admits start.gate.predicate)) =
      start.gate.window.cut (seen.filter (admits start.gate.predicate)) ++ [row])
    (himage : route.image row = .ok image)
    (hmore : (feedAll Run.deliver start images).outcome = .ok .more)
    (hdeliver : ((feedAll Run.deliver start images).state.deliver image).1 = .ok demand)
    (hpredicate : next.gate.predicate = now.gate.predicate)
    (hclosed : next.gate.closed = decide (demand = .enough))
    (hpassed : next.gate.passed = now.gate.passed + 1)
    (hwindow : next.gate.window = start.gate.window.after
      ((seen ++ [row]).filter (admits start.gate.predicate)).length)
    (hsink : next.sink = ((feedAll Run.deliver start images).state.deliver image).2.sink)
    (hscanned : next.scanned = now.scanned + 1)
    (hnoted : next.noted = ⟨now.scanned + 1, now.gate.passed⟩) :
    Reached start route (seen ++ [row]) (images ++ [image]) next := by
  have hfeed : feedAll Run.deliver start (images ++ [image]) =
      ⟨.ok demand, images.length + 1,
        ((feedAll Run.deliver start images).state.deliver image).2⟩ := by
    rw [feedAll_append_of_more hmore, feedAll_singleton, hdeliver, h.fed]
  exact {
    predicate_eq := hpredicate.trans h.predicate_eq
    window_eq := hwindow
    settled := by
      intro other hother
      rcases List.mem_append.mp hother with hseen | hrow
      · exact h.settled other hseen
      · rwa [List.mem_singleton.mp hrow]
    image_eq := by
      rw [hcut]
      exact List.rel_append h.image_eq (.cons himage .nil)
    accepted := by
      rw [hfeed, hclosed]
      cases demand <;> rfl
    fed := by rw [hfeed, List.length_append, List.length_singleton]
    sink_eq := by rw [hfeed, hsink]
    scanned_eq := by rw [hscanned, h.scanned_eq, List.length_append, Nat.add_assoc]; rfl
    passed_eq := by
      rw [hpassed, h.passed_eq, List.length_append, List.length_singleton, Nat.add_assoc]
    noted_eq := by
      rw [hnoted, hscanned, h.passed_eq, List.dropLast_concat, h.accepted_deliveries] }

/-- **One row** keeps the invariant, or fails for a cause. -/
theorem step (hopen : now.gate.isOpen = true) (row : Row) :
    (∃ images' used next, now.step route row = (.ok used, next) ∧
      Reached start route (seen ++ [row]) images' next) ∨
    ∃ e final, now.step route row = (.error e, final) ∧
      Failed start route seen images row e final := by
  obtain ⟨hclosed, hmore⟩ := h.wants_more hopen
  have hnoted := noted_step now route row
  have hcounts : (⟨now.scanned + 1, now.gate.passed⟩ : RowCounts) =
      ⟨start.scanned + seen.length + 1, start.gate.passed + images.length⟩ := by
    rw [h.scanned_eq, h.passed_eq]
  have hwindow : now.gate.window.isOpen = true := by
    rw [Gate.isOpen_eq, Bool.and_eq_true] at hopen
    exact hopen.2
  rcases settled_or_error start.gate.predicate row with hrow | ⟨predicate, hmem, e, herror⟩
  · have hsettled : Settled now.gate.predicate row := by rwa [h.predicate_eq]
    cases hadmits : admits start.gate.predicate row with
    | false =>
        have hfilter : (seen ++ [row]).filter (admits start.gate.predicate) =
            seen.filter (admits start.gate.predicate) := by
          rw [List.filter_append, List.filter_cons_of_neg (by simp [hadmits]), List.filter_nil,
            List.append_nil]
        have hstep := step_of_reject route hsettled (by rw [h.predicate_eq, hadmits])
        rw [hstep] at hnoted
        refine .inl ⟨images, route, now.take, hstep, h.skip hrow ?_ rfl rfl rfl ?_ rfl rfl hnoted⟩
        · rw [hfilter]
        · rw [hfilter]
          exact h.window_eq
    | true =>
        have hfilter : (seen ++ [row]).filter (admits start.gate.predicate) =
            seen.filter (admits start.gate.predicate) ++ [row] := by
          rw [List.filter_append, List.filter_cons_of_pos hadmits, List.filter_nil]
        have hmatch : admits now.gate.predicate row = true := by rw [h.predicate_eq, hadmits]
        have hafter : now.gate.countMatch.2.window = start.gate.window.after
            ((seen ++ [row]).filter (admits start.gate.predicate)).length := by
          rw [Gate.window_countMatch hopen, h.window_eq, Window.next_after, hfilter,
            List.length_append, List.length_singleton]
        by_cases hoffset : now.gate.window.offset = 0
        · have hcut := Window.cut_concat_of_isOpen (h.window_eq ▸ hoffset) (h.window_eq ▸ hwindow) row
          rw [← hfilter] at hcut
          cases himage : route.image row with
          | error e =>
              have hstep : now.step route row = (.error e, now.take.count) := by
                rw [step_of_pass route hsettled hmatch hopen hoffset, pass, himage]
              rw [hstep] at hnoted
              refine .inr ⟨e, _, hstep, ⟨now, h, hopen⟩, hnoted.trans hcounts, ?_⟩
              rw [sink_count, sink_take, h.sink_eq]
              exact .image hcut himage
          | ok image =>
              obtain ⟨next, hnext, hgate, hpassed, hscanned, hstep⟩ :=
                step_of_image hsettled hmatch hopen hoffset himage h.sink_eq
              rcases hdeliver : ((feedAll Run.deliver start images).state.deliver image).1
                with e | demand
              · rw [hdeliver] at hstep
                rw [hstep] at hnoted
                refine .inr ⟨e, next, hstep, ⟨now, h, hopen⟩, hnoted.trans hcounts, ?_⟩
                rw [hnext]
                exact .delivery hcut himage hdeliver
              · rw [hdeliver] at hstep
                rw [hstep] at hnoted
                refine .inl ⟨images ++ [image], _, _, hstep, ?_⟩
                cases demand with
                | more =>
                    exact h.accept hrow hcut himage hmore hdeliver (by simp [heed, hgate])
                      (by simpa [heed, hgate] using hclosed) (by simpa [heed] using hpassed)
                      (by simpa [heed, hgate] using hafter) hnext hscanned hnoted
                | enough =>
                    exact h.accept hrow hcut himage hmore hdeliver
                      (by simp [heed, hgate, Gate.close]) rfl hpassed
                      (by simpa [heed, hgate, Gate.close, Gate.window] using hafter) hnext hscanned
                      hnoted
        · have hstep := step_of_drop route hsettled hmatch hopen hoffset
          rw [hstep] at hnoted
          have hfst : now.gate.countMatch.1 = false := by
            rw [Gate.countMatch_fst_of_isOpen hopen, decide_eq_false hoffset]
          refine .inl ⟨images, route, _, hstep,
            h.skip hrow ?_ (by simp) (by simp) ?_ hafter rfl rfl hnoted⟩
          · rw [hfilter, Window.cut_concat_of_offset (h.window_eq ▸ hoffset)]
          · simp [Gate.passed_countMatch, hfst]
  · have hmem' : predicate ∈ now.gate.predicate := by rwa [h.predicate_eq]
    have hstep := step_of_predicate_error hmem' herror route
    rw [hstep] at hnoted
    refine .inr ⟨e, _, hstep, ⟨now, h, hopen⟩, hnoted.trans hcounts, ?_⟩
    rw [sink_take, h.sink_eq]
    exact .predicate hmem herror

end Reached

/-- **A row that fails has delivered nothing.**  The sink is as the deliveries up to this row have
left it; one of them may be the failure. -/
theorem Failed.deliveries_eq {row : Row} {e : EngineError} {final : Run}
    (h : Failed start route seen images row e final) :
    final.sink = (start.deliveries route (seen ++ [row])).state.sink ∧
      (start.deliveries route (seen ++ [row])).accepted = images.length := by
  obtain ⟨⟨now, hreached, hopen⟩, -, hcause⟩ := h
  obtain ⟨-, hmore⟩ := hreached.wants_more hopen
  have hseen := hreached.deliveries_eq
  have hcount := hreached.accepted_deliveries
  generalize final.sink = sink at hcause ⊢
  cases hcause with
  | predicate hpredicate herror =>
      have hadmits : admits start.gate.predicate row = false := by
        rw [Option.mem_def] at hpredicate
        simp [admits, hpredicate, herror]
      rw [deliveries, selectedImages_concat_of_reject hadmits, ← deliveries, hcount, hseen]
      exact ⟨rfl, rfl⟩
  | image hselected herror =>
      rw [deliveries, selectedImages_concat_of_cut hselected, herror]
      simp only [Except.toOption, Option.toList_none, List.append_nil]
      rw [← deliveries, hcount, hseen]
      exact ⟨rfl, rfl⟩
  | delivery hselected himage herror =>
      rw [deliveries, selectedImages_concat_of_cut hselected, himage,
        selectedImages_of_forall₂ hreached.image_eq]
      simp only [Except.toOption, Option.toList_some]
      rw [feedAll_append_of_more hmore, feedAll_singleton, Feeding.accepted, herror, hreached.fed]
      exact ⟨rfl, rfl⟩

/-! ## All rows -/

/-- **The loop** takes rows until there are none or the gate has closed, and keeps the invariant, or
it fails at the row behind those taken.  The induction is on the rows to come; each of them moves to
those seen. -/
theorem Reached.loop (h : Reached start route seen images now) (rows : List Row) :
    (∃ taken rest images' final, rows = taken ++ rest ∧ now.loop route rows = (.ok (), rest, final) ∧
      Reached start route (seen ++ taken) images' final ∧
      (rest = [] ∨ final.gate.isOpen = false)) ∨
    ∃ taken row rest images' e final, rows = taken ++ row :: rest ∧
      now.loop route rows = (.error e, rest, final) ∧
      Failed start route (seen ++ taken) images' row e final := by
  induction rows generalizing seen images now with
  | nil =>
      left
      exact ⟨[], [], images, now, rfl, rfl, by rwa [List.append_nil], .inl rfl⟩
  | cons row rows ih =>
      cases hopen : now.gate.isOpen with
      | false =>
          left
          exact ⟨[], row :: rows, images, now, rfl, loop_of_not_isOpen hopen route _,
            by rwa [List.append_nil], .inr hopen⟩
      | true =>
          rcases h.step hopen row with
            ⟨images', used, next, hstep, hnext⟩ | ⟨e, final, hstep, hfailed⟩
          · rw [loop_cons_of_ok hopen hstep]
            rcases ih hnext with ⟨taken, rest, images', final, hrows, hloop, hreached, hend⟩ |
              ⟨taken, last, rest, images', e, final, hrows, hloop, hfailed⟩
            · left
              refine ⟨row :: taken, rest, images', final, by rw [hrows]; rfl, hloop, ?_, hend⟩
              rwa [← List.append_cons] at hreached
            · right
              refine ⟨row :: taken, last, rest, images', e, final, by rw [hrows]; rfl, hloop, ?_⟩
              rwa [← List.append_cons] at hfailed
          · right
            refine ⟨[], row, rows, images, e, final, rfl, loop_cons_of_error hopen hstep rows, ?_⟩
            rwa [List.append_nil]

end Run

end GraphScan
