import Mathlib
import GraphScan.Proofs.Aggregate.Restart
import GraphScan.Proofs.Scan.Ending

/-!
# Executing again

Each execution of a scan starts its aggregation anew, so that nothing of the executions before it
shows but the rows that they took from the source.

* `Run.InStep` — two runs that differ in the rows of their outputs only, and have added the same rows
  to both.
* `Run.InStep.loop` — **runs in step stay in step**, by one lemma for each function of the loop.
* `Scan.Past` — a scan after any executions, with whatever others did to the tables in between.
* `Scan.execute_renewed` — a scan with a past is executed like a new one of the same plan.
* `start_erases_history` — **nothing of the past shows**, in the calls of a session as in the executions
  of a scan.
-/

namespace GraphScan

/-! ## Runs in step -/

namespace Run

/-- **Two runs in step**, one with the output `old` and one with the output `new`: both have added the
same rows, and in everything else they are the same. -/
def InStep (old new : SharedTable) (first second : Run) : Prop :=
  ∃ gained, first.outlet.shared = old.appendAll gained ∧
    second = { first with outlet := ⟨new.appendAll gained, first.outlet.meter⟩ }

namespace InStep

variable {old new : SharedTable} {first second : Run}

theorem gate_eq (h : InStep old new first second) : second.gate = first.gate := by
  obtain ⟨gained, -, rfl⟩ := h
  rfl

theorem machine_eq (h : InStep old new first second) : second.machine = first.machine := by
  obtain ⟨gained, -, rfl⟩ := h
  rfl

theorem withGate (h : InStep old new first second) (gate : Gate) :
    InStep old new { first with gate } { second with gate } := by
  obtain ⟨gained, hshared, rfl⟩ := h
  exact ⟨gained, hshared, rfl⟩

theorem tick (h : InStep old new first second) : InStep old new first.tick second.tick := by
  obtain ⟨gained, hshared, rfl⟩ := h
  exact ⟨gained, hshared, rfl⟩

theorem take (h : InStep old new first second) : InStep old new first.take second.take := by
  obtain ⟨gained, hshared, rfl⟩ := h
  exact ⟨gained, hshared, rfl⟩

theorem heed (h : InStep old new first second) (demand : Demand) :
    InStep old new (first.heed demand) (second.heed demand) := by
  cases demand with
  | more => exact h
  | enough =>
      obtain ⟨gained, hshared, rfl⟩ := h
      exact ⟨gained, hshared, rfl⟩

/-- Runs in step have outputs of the same face if they began with such. -/
theorem face_eq (h : InStep old new first second) (hface : new.face = old.face) :
    first.outlet.shared.face = old.face ∧ second.outlet.shared.face = old.face := by
  obtain ⟨gained, hshared, rfl⟩ := h
  exact ⟨by rw [hshared, SharedTable.face_appendAll], by simp only [SharedTable.face_appendAll, hface]⟩

/-- Rows that both receive keep them in step, whatever becomes of their machines. -/
theorem receive (h : InStep old new first second) (machine : Option Machine) (rows : List Row) :
    InStep old new { first with machine, outlet := first.outlet.receiveAll rows }
      { second with machine, outlet := second.outlet.receiveAll rows } := by
  obtain ⟨gained, hshared, rfl⟩ := h
  refine ⟨gained ++ rows, ?_, ?_⟩
  · simp only [Outlet.shared_receiveAll, hshared, SharedTable.appendAll_appendAll]
  · simp only [Outlet.receiveAll, SharedTable.appendAll_appendAll]

/-- A delivery cannot tell the outputs apart if they have the same face. -/
theorem deliver (h : InStep old new first second) (hface : new.face = old.face) (image : Row) :
    (second.deliver image).1 = (first.deliver image).1 ∧
      InStep old new (first.deliver image).2 (second.deliver image).2 := by
  obtain ⟨hfirst, hsecond⟩ := h.face_eq hface
  cases hmachine : first.machine with
  | some machine =>
      obtain ⟨outcome, state, rows, hfeed⟩ := machine.feed_blind image old.face
      have hdeliver (run : Run) (hrun : run.machine = some machine)
          (hface : run.outlet.shared.face = old.face) : run.deliver image =
            (outcome, { run with machine := some state, outlet := run.outlet.receiveAll rows }) := by
        simp only [Run.deliver, hrun, hfeed run.outlet hface]
      rw [hdeliver first hmachine hfirst, hdeliver second (h.machine_eq.trans hmachine) hsecond]
      exact ⟨rfl, h.receive (some state) rows⟩
  | none =>
      have hnone : second.machine = none := h.machine_eq.trans hmachine
      cases hcheck : old.face.check image with
      | error e =>
          have hinsert (shared : SharedTable) (hshared : shared.face = old.face) :
              (shared.insert image).1 = .error e := by
            rw [SharedTable.fst_insert, hshared, hcheck]
          rw [deliver_of_insert_error hmachine (hinsert _ hfirst),
            deliver_of_insert_error hnone (hinsert _ hsecond)]
          exact ⟨rfl, h⟩
      | ok =>
          have hinsert (shared : SharedTable) (hshared : shared.face = old.face) :
              shared.insert image = (.ok (), shared.appendAll [image]) := by
            rw [SharedTable.insert_eq, hshared, hcheck]
          rw [deliver_of_insert hmachine (hinsert _ hfirst),
            deliver_of_insert hnone (hinsert _ hsecond)]
          obtain ⟨gained, hshared, rfl⟩ := h
          refine ⟨rfl, gained ++ [image], ?_, ?_⟩
          · simp only [hshared, SharedTable.appendAll_appendAll]
          · simp only [SharedTable.appendAll_appendAll]

theorem pass (h : InStep old new first second) (hface : new.face = old.face) (route : Route)
    (row : Row) :
    (second.pass route row).1 = (first.pass route row).1 ∧
      InStep old new (first.pass route row).2 (second.pass route row).2 := by
  rw [Run.pass, Run.pass]
  cases route.image row with
  | error e => exact ⟨rfl, h⟩
  | ok image =>
      obtain ⟨hout, hnext⟩ := h.deliver hface image
      rcases hfirst : first.deliver image with ⟨outcome, next⟩
      rcases hsecond : second.deliver image with ⟨outcome', next'⟩
      rw [hfirst, hsecond] at hout hnext
      obtain rfl : outcome' = outcome := hout
      simp only [hfirst, hsecond]
      cases outcome' with
      | error e => exact ⟨rfl, hnext⟩
      | ok demand => exact ⟨rfl, (hnext.heed demand).tick⟩

theorem step (h : InStep old new first second) (hface : new.face = old.face) (route : Route)
    (row : Row) :
    (second.step route row).1 = (first.step route row).1 ∧
      InStep old new (first.step route row).2 (second.step route row).2 := by
  simp only [Run.step, h.take.gate_eq]
  rcases first.take.gate.offer row with e | ⟨_ | _, gate⟩
  · exact ⟨rfl, h.take⟩
  · exact ⟨rfl, h.take.withGate gate⟩
  · exact (h.take.withGate gate).pass hface route row

/-- **Runs in step take the same rows and stay in step.** -/
theorem loop (h : InStep old new first second) (hface : new.face = old.face) (route : Route)
    (rows : List Row) :
    (second.loop route rows).1 = (first.loop route rows).1 ∧
      (second.loop route rows).2.1 = (first.loop route rows).2.1 ∧
      InStep old new (first.loop route rows).2.2 (second.loop route rows).2.2 := by
  induction rows generalizing route first second with
  | nil => exact ⟨rfl, rfl, h⟩
  | cons row rows ih =>
      rw [Run.loop, Run.loop, h.gate_eq]
      split_ifs
      · obtain ⟨hout, hnext⟩ := h.step hface route row
        rcases hfirst : first.step route row with ⟨outcome, next⟩
        rcases hsecond : second.step route row with ⟨outcome', next'⟩
        rw [hfirst, hsecond] at hout hnext
        obtain rfl : outcome' = outcome := hout
        cases outcome' with
        | error e => exact ⟨rfl, rfl, hnext⟩
        | ok route => exact ih hnext route
      · exact ⟨rfl, rfl, h⟩

theorem finish (h : InStep old new first second) (hface : new.face = old.face) :
    second.finish.1 = first.finish.1 ∧ InStep old new first.finish.2 second.finish.2 := by
  obtain ⟨hfirst, hsecond⟩ := h.face_eq hface
  rw [Run.finish, Run.finish, h.machine_eq]
  cases first.machine with
  | none => exact ⟨rfl, h⟩
  | some machine =>
      obtain ⟨outcome, state, rows, hfinish⟩ := machine.finish_blind old.face
      simp only [hfinish _ hfirst, hfinish _ hsecond]
      exact ⟨trivial, h.receive (some state) rows⟩

end InStep

end Run

/-! ## Results that agree -/

/-- **Results of two runs in step**: they are the same but for the rows that were in the outputs
before, and the machines are not compared. -/
structure RunResult.Agree (old new : SharedTable) (first second : RunResult) : Prop where
  outcome_eq : second.outcome = first.outcome
  noted_eq : second.noted = first.noted
  source_eq : second.source = first.source
  meter_eq : second.outlet.meter = first.outlet.meter
  gained : ∃ gained, first.outlet.shared = old.appendAll gained ∧
    second.outlet.shared = new.appendAll gained

/-- They are reported alike, since the outputs are held alike. -/
theorem RunResult.Agree.logged_eq {old new : SharedTable} {first second : RunResult}
    (h : Agree old new first second) (hface : new.face = old.face) (traced : Bool) :
    (second.logged traced).outcome = (first.logged traced).outcome := by
  obtain ⟨gained, hfirst, hsecond⟩ := h.gained
  have hhold : second.outlet.shared.hold = first.outlet.shared.hold := by
    simpa [hfirst, hsecond, SharedTable.face] using congrArg Face.hold hface
  simp only [logged, h.outcome_eq, SharedTable.read, hhold]
  cases first.outcome <;> cases traced <;> cases first.outlet.shared.hold <;> rfl

theorem Run.InStep.agree {old new : SharedTable} {first second : Run}
    (h : InStep old new first second) (outcome : Except EngineError RowCounts)
    {noted noted' : RowCounts} (hnoted : noted' = noted) (source : SharedTable) :
    RunResult.Agree old new ⟨outcome, noted, first.machine, source, first.outlet⟩
      ⟨outcome, noted', second.machine, source, second.outlet⟩ := by
  obtain ⟨gained, hshared, rfl⟩ := h
  exact ⟨rfl, hnoted, rfl, rfl, gained, hshared, rfl⟩

/-- Runs in step have noted the same and counted the same. -/
theorem Run.InStep.counts_eq {old new : SharedTable} {first second : Run}
    (h : InStep old new first second) :
    second.noted = first.noted ∧ second.scanned = first.scanned ∧ second.gate = first.gate := by
  obtain ⟨gained, -, rfl⟩ := h
  exact ⟨rfl, rfl, rfl⟩

/-- **Runs in step come to the same.** -/
theorem Scan.drain_agree {old new : SharedTable} {first second : Run}
    (h : Run.InStep old new first second) (hface : new.face = old.face) (source : SharedTable)
    (table : Table) (route : Route) :
    RunResult.Agree old new (drain source table route first) (drain source table route second) := by
  obtain ⟨hout, hrest, hnext⟩ := h.loop hface route table.rows.toList
  rcases hfirst : first.loop route table.rows.toList with ⟨outcome, rest, now⟩
  rcases hsecond : second.loop route table.rows.toList with ⟨outcome', rest', now'⟩
  rw [hfirst, hsecond] at hout hrest hnext
  obtain rfl : outcome' = outcome := hout
  obtain rfl : rest' = rest := hrest
  have hnow : Run.InStep old new now now' := hnext
  simp only [drain, hfirst, hsecond]
  cases outcome' with
  | error e => exact hnow.agree _ hnow.counts_eq.1 _
  | ok =>
      obtain ⟨hdone, hlast⟩ := hnow.finish hface
      rcases hend : now.finish with ⟨outcome, final⟩
      rcases hend' : now'.finish with ⟨outcome', final'⟩
      rw [hend, hend'] at hdone hlast
      obtain rfl : outcome' = outcome := hdone
      have hfinal : Run.InStep old new final final' := hlast
      obtain ⟨hnoted, hscanned, hgate⟩ := hfinal.counts_eq
      cases outcome' with
      | error e => exact hfinal.agree _ hnoted _
      | ok =>
          simp only [hscanned, hgate]
          exact hfinal.agree _ rfl _

/-! ## Starting over -/

namespace Scan

variable {node : ScanNode} {used fresh : Scan} {old new source : SharedTable} {params : List Value}

/-- The scratch row is one of the schema, and a table that cannot be read gives none. -/
theorem map_scratch_read (hface : new.face = old.face) :
    new.read.map Table.scratch = old.read.map Table.scratch := by
  obtain ⟨⟨_, schema, _, _⟩, hold⟩ := new
  obtain ⟨⟨_, schema', _, _⟩, hold'⟩ := old
  simp only [SharedTable.face, Face.mk.injEq] at hface
  obtain ⟨rfl, -, rfl⟩ := hface
  cases hold <;> rfl

/-- A machine that was used starts where a new one does, and then they are the same. -/
theorem start_renewed (params : List Value) (source : SharedTable) (hnode : fresh.node = used.node)
    (hmachine : fresh.machine = used.machine.map Machine.blank) (hface : new.face = old.face) :
    (fresh.start params source new).1 = (used.start params source old).1 ∧
      ∀ scratch, (used.start params source old).1 = .ok scratch →
        (fresh.start params source new).2 = (used.start params source old).2 := by
  cases hused : used.machine with
  | none =>
      rw [hused, Option.map_none] at hmachine
      simp only [start, hused, hmachine]
      exact ⟨map_scratch_read hface, fun _ _ => trivial⟩
  | some machine =>
      rw [hused, Option.map_some] at hmachine
      simp only [start, hused, hmachine, hnode]
      split
      · exact ⟨rfl, fun _ herror => by cases herror⟩
      · refine ⟨machine.fst_init_blank params _, fun scratch hok => ?_⟩
        exact congrArg (fun started => some started.2) (Machine.init_blank_of_ok hok)

/-- So does the whole preparation. -/
theorem prepare_renewed {id id' : TableId} (params : List Value) (source : SharedTable)
    (hnode : fresh.node = used.node)
    (hmachine : fresh.machine = used.machine.map Machine.blank)
    (hused : used.output.writable = .ok id) (hfresh : fresh.output.writable = .ok id')
    (hface : new.face = old.face) (meter : Meter) :
    (fresh.prepare params source ⟨new, meter⟩).1 = (used.prepare params source ⟨old, meter⟩).1 ∧
      ∀ settled, (used.prepare params source ⟨old, meter⟩).1 = .ok settled →
        (fresh.prepare params source ⟨new, meter⟩).2 =
          (used.prepare params source ⟨old, meter⟩).2 := by
  obtain ⟨hstart, hstarted⟩ := start_renewed params source hnode hmachine hface
  cases hwindow : WindowSpec.resolveOptional used.node.window params with
  | error e =>
      simp only [prepare, hnode, hwindow, bind, Except.bind, true_and]
      intro settled herror
      cases herror
  | ok window =>
      simp only [prepare, hnode, hwindow, hused, hfresh, bind, Except.bind]
      rcases hold : used.start params source old with ⟨e | scratch, machine⟩
      · rw [hold] at hstart
        rcases hnew : fresh.start params source new with ⟨e' | _, machine'⟩ <;>
          rw [hnew] at hstart
        · exact ⟨congrArg Except.error (Except.error.inj hstart), fun _ herror => by cases herror⟩
        · cases hstart
      · have hsame : fresh.start params source new = (.ok scratch, machine) := by
          refine Prod.ext (hstart.trans (congrArg Prod.fst hold)) ?_
          exact (hstarted scratch (congrArg Prod.fst hold)).trans (congrArg Prod.snd hold)
        have hroute : fresh.route scratch = used.route scratch := by
          simp only [route, label, hnode]
        simp only [hsame, hroute, true_and]
        intro _ _
        trivial

/-- **A run of a scan that was used is like the first run of a new one**: it comes to the same, and
adds the same rows to an output of the same face. -/
theorem run_renewed {id id' : TableId} (hnode : fresh.node = used.node)
    (hmachine : fresh.machine = used.machine.map Machine.blank)
    (hused : used.output.writable = .ok id) (hfresh : fresh.output.writable = .ok id')
    (hface : new.face = old.face) (meter : Meter) :
    RunResult.Agree old new (used.run params source ⟨old, meter⟩)
      (fresh.run params source ⟨new, meter⟩) := by
  obtain ⟨hprepare, hprepared⟩ :=
    prepare_renewed params source hnode hmachine hused hfresh hface meter
  rcases hold : used.prepare params source ⟨old, meter⟩ with ⟨e | ⟨window, route, table⟩, machine⟩
  · rw [hold] at hprepare
    rcases hnew : fresh.prepare params source ⟨new, meter⟩ with ⟨e' | _, machine'⟩ <;>
      rw [hnew] at hprepare
    · obtain rfl : e' = e := Except.error.inj hprepare
      simp only [run, hold, hnew]
      exact ⟨rfl, rfl, rfl, rfl, [], rfl, rfl⟩
    · cases hprepare
  · have hsame : fresh.prepare params source ⟨new, meter⟩ = (.ok (window, route, table), machine) := by
      refine Prod.ext (hprepare.trans (congrArg Prod.fst hold)) ?_
      exact (hprepared _ (congrArg Prod.fst hold)).trans (congrArg Prod.snd hold)
    have hstep : Run.InStep old new (used.begin window machine ⟨old, meter⟩)
        (fresh.begin window machine ⟨new, meter⟩) := by
      rw [begin, begin, hnode]
      exact ⟨[], rfl, rfl⟩
    simp only [run, hold, hsame]
    exact drain_agree hstep hface source table route

/-! ## Scans with a past -/

/-- **A scan with a past**: its plan was accepted, and since then it has been executed and others have
used the tables, any number of times and in any order. -/
inductive Past (node : ScanNode) : Scan → Store → Prop where
  | accepted {scan : Scan} {before ready : Store}
      (hinit : Scan.init (.scan node) before = .ok (scan, ready))
      (hsource : scan.source < before.tables.size) : Past node scan ready
  | executed {scan : Scan} {store : Store} (h : Past node scan store) (context : Context)
      (params : List Value) :
      Past node (scan.execute context params store).scan (scan.execute context params store).store
  | others {scan : Scan} {store later : Store} (h : Past node scan store)
      (hlater : store.Later later) : Past node scan later

namespace Past

variable {scan : Scan} {store : Store}

theorem inUse (h : Past node scan store) : InUse node scan store := by
  induction h with
  | accepted hinit hsource => exact inUse_of_init hinit hsource
  | executed _ context params ih => exact ih.execute context params
  | others _ hlater ih => exact ih.later hlater

/-- **Nothing lasts of its aggregation** but what it was made as. -/
theorem machine_blank (h : Past node scan store) :
    scan.machine.map Machine.blank = node.aggregate.map Machine.ofNode := by
  induction h with
  | accepted hinit hsource =>
      rw [(accepted_of_init hinit).machine_eq]
      cases node.aggregate <;> simp
  | executed h context params ih => exact (h.inUse.effect context params).2.2.trans ih
  | others _ _ ih => exact ih

end Past

/-- The output of a scan in use still has the name of the source. -/
theorem InUse.name_eq {scan : Scan} {store : Store} (h : InUse node scan store)
    (hstages : node.isPassThrough = false) :
    (store.get scan.output.table).table.name = (store.get scan.source).table.name := by
  obtain ⟨fresh, before, after, hinit, hlater, hsource, hscan⟩ := h.accepted
  obtain ⟨table, hread, howned, hafter⟩ := (accepted_of_init hinit).owned hstages
  have hsize : before.tables.size < after.tables.size := by simp [hafter, Store.add]
  have houtput : (after.get before.tables.size).table.name = table.name := by
    rw [hafter]
    exact congrArg (fun shared : SharedTable => shared.table.name)
      (before.get_add_self (.empty table.name node.schema))
  have hkept : (after.get fresh.source).table.name = (before.get fresh.source).table.name := by
    rw [hafter]
    exact (Store.Later.add before _).name_eq _ hsource
  have hname : table.name = (before.get fresh.source).table.name := by
    rw [(read_eq_ok_iff.mp hread).2]
  rw [hscan]
  show (store.get fresh.output.table).table.name = (store.get fresh.source).table.name
  rw [howned, Output.table, hlater.name_eq _ hsize, houtput,
    hlater.name_eq _ (Nat.lt_trans hsource hsize), hkept, hname]

/-- The two scans read the same source, and their outputs have the same face. -/
theorem renewed_tables {used fresh : Scan} {store other : Store} (hused : InUse node used store)
    (hfresh : InUse node fresh other) (hstages : node.isPassThrough = false)
    (hsource : other.get fresh.source = store.get fresh.source)
    (hhold : (other.get fresh.output.table).hold = (store.get used.output.table).hold) :
    fresh.source = used.source ∧
      (other.get fresh.output.table).face = (store.get used.output.table).face := by
  have hsame : fresh.source = used.source := by
    have hfirst := hused.source_eq
    rw [hfresh.source_eq] at hfirst
    exact Except.ok.inj hfirst
  refine ⟨hsame, ?_⟩
  rw [SharedTable.face, SharedTable.face, hhold, hfresh.name_eq hstages, hused.name_eq hstages,
    hfresh.schema_eq hstages, hused.schema_eq hstages, hsource, hsame]

/-- **A scan with a past is executed like a new one.**  Let a scan with an aggregation have any past,
and let a new scan of the same plan find the same source, and its own output held in the same way.
Then both executions have the same outcome and make the same progress reports, append the same rows
to their outputs, and leave the same in the source. -/
theorem execute_renewed {used fresh : Scan} {store before ready other : Store}
    (hused : Past node used store) (haggregate : node.aggregate.isSome = true)
    (hinit : Scan.init (.scan node) before = .ok (fresh, ready))
    (hbefore : fresh.source < before.tables.size) (hlater : ready.Later other)
    (hsource : other.get fresh.source = store.get fresh.source)
    (hhold : (other.get fresh.output.table).hold = (store.get used.output.table).hold)
    (context : Context) (params : List Value) :
    let first := used.execute context params store
    let second := fresh.execute context params other
    second.outcome = first.outcome ∧ second.progress = first.progress ∧
      (∃ gained,
        first.store.get used.output.table = (store.get used.output.table).appendAll gained ∧
        second.store.get fresh.output.table = (other.get fresh.output.table).appendAll gained) ∧
      second.store.get fresh.source = first.store.get fresh.source := by
  intro first second
  have hstages : node.isPassThrough = false := by
    cases hnone : node.aggregate with
    | none => rw [hnone] at haggregate; cases haggregate
    | some aggregate => simp [ScanNode.isPassThrough, hnone]
  have hnew : InUse node fresh other := (inUse_of_init hinit hbefore).later hlater
  have hold : InUse node used store := hused.inUse
  obtain ⟨hsame, hface⟩ := renewed_tables hold hnew hstages hsource hhold
  have hnode : fresh.node = used.node := hnew.node_eq.trans hold.node_eq.symm
  have hmachine : fresh.machine = used.machine.map Machine.blank := by
    rw [hused.machine_blank, (accepted_of_init hinit).machine_eq]
  have hname : fresh.sourceName other = used.sourceName store := by
    rw [sourceName, sourceName, hnode, hsource, hsame]
  rw [hsame] at hsource
  cases hfound : used.sourceName store with
  | error e =>
      have hfirst : first = _ := execute_of_name_error context params hfound
      have hsecond : second = _ := execute_of_name_error context params (hname.trans hfound)
      rw [hfirst, hsecond, hsame]
      exact ⟨rfl, rfl, ⟨[], rfl, rfl⟩, hsource⟩
  | ok name =>
    cases hempty : used.node.emptyScan with
    | true =>
        have hfirst : first = _ := execute_of_empty context params hfound hempty
        have hsecond : second = _ :=
          execute_of_empty context params (hname.trans hfound) (hnode ▸ hempty)
        rw [hfirst, hsecond, hsame]
        exact ⟨rfl, rfl, ⟨[], rfl, rfl⟩, hsource⟩
    | false =>
        have hstagesUsed : used.node.isPassThrough = false := hold.node_eq ▸ hstages
        have hstagesFresh : fresh.node.isPassThrough = false := hnew.node_eq ▸ hstages
        obtain ⟨houtUsed, -, hstoreUsed, -⟩ :=
          execute_of_stages context params hfound hempty hstagesUsed
        obtain ⟨houtFresh, -, hstoreFresh, -⟩ :=
          execute_of_stages context params (hname.trans hfound) (hnode ▸ hempty) hstagesFresh
        have hagree : RunResult.Agree (store.get used.output.table) (other.get fresh.output.table)
            (used.run params (store.get used.source) (used.outlet context store))
            (fresh.run params (other.get fresh.source) (fresh.outlet context other)) := by
          rw [hsame, hsource, outlet, outlet, hnode]
          exact run_renewed hnode hmachine (hold.writable hstages) (hnew.writable hstages) hface _
        obtain ⟨gained, hgainedUsed, hgainedFresh⟩ := hagree.gained
        obtain ⟨hsourceUsed, houtputUsed, hneUsed⟩ := hold.tables hstages
        obtain ⟨hsourceFresh, houtputFresh, hneFresh⟩ := hnew.tables hstages
        refine ⟨?_, ?_, ⟨gained, ?_, ?_⟩, ?_⟩
        · rw [show second.outcome = _ from houtFresh, hagree.logged_eq hface,
            show first.outcome = _ from houtUsed]
        · rw [show second.progress = _ from progress_of_stages context params (hname.trans hfound)
              (hnode ▸ hempty) hstagesFresh, hagree.meter_eq,
            show first.progress = _ from progress_of_stages context params hfound hempty hstagesUsed]
        · rw [show first.store = _ from hstoreUsed, get_output_writeBack houtputUsed, hgainedUsed]
        · rw [show second.store = _ from hstoreFresh, get_output_writeBack houtputFresh, hgainedFresh]
        · rw [show second.store = _ from hstoreFresh, get_source_writeBack hsourceFresh hneFresh,
            hagree.source_eq, show first.store = _ from hstoreUsed, hsame,
            get_source_writeBack hsourceUsed hneUsed]

end Scan

/-! ## Nothing of the past shows -/

/-- **A start that succeeds erases all history.**

In a session: let any calls have been made, with whatever answers, while others changed the tables and
the meters.  A start that succeeds, on some table and some meter, is then answered like the first start
of a new session on the same two; whatever is done next, the answers, all tables and all meters are
those of the new session turn by turn; and no call writes to another table, or counts on another meter,
unless a run is started on it.

In a scan: let its plan have been accepted and then executed any number of times, with whatever
outcomes, while others used the tables.  An execution has then the outcome and makes the progress
reports that a new scan of the plan would on the same source, appends the same rows, and leaves the
same in the source. -/
theorem start_erases_history (node : AggregateNode) :
    (∀ (store : Store) (meters : Meters) (history : List Session.Turn) (params : List Value)
        (width : Nat) (table : TableId) (meter : MeterId) (scratch : Row),
      let used := (Session.new node store meters).after history
      let fresh := Session.new node used.store used.meters
      (used.init params width table meter).1 = .ok scratch →
        (fresh.init params width table meter).1 = .ok scratch ∧
        (∀ turns, (used.init params width table meter).2.watch turns =
          (fresh.init params width table meter).2.watch turns) ∧
        ∀ turns : List Session.Turn, ∀ call : Session.Call, call.IsOwn →
          let now := (used.init params width table meter).2.after turns
          (∀ id, id ≠ table → (∀ turn ∈ turns, ¬ turn.Starts fun binding => binding.table = id) →
            (now.perform call).2.store.get id = now.store.get id) ∧
          ∀ id, id ≠ meter → (∀ turn ∈ turns, ¬ turn.Starts fun binding => binding.meter = id) →
            (now.perform call).2.meters.get id = now.meters.get id) ∧
    (∀ (plan : ScanNode) (used fresh : Scan) (store before ready other : Store),
      plan.aggregate = some node → Scan.Past plan used store →
      Scan.init (.scan plan) before = .ok (fresh, ready) → fresh.source < before.tables.size →
      ready.Later other → other.get fresh.source = store.get fresh.source →
      (other.get fresh.output.table).hold = (store.get used.output.table).hold →
      ∀ (context : Context) (params : List Value),
        let first := used.execute context params store
        let second := fresh.execute context params other
        second.outcome = first.outcome ∧ second.progress = first.progress ∧
          (∃ gained,
            first.store.get used.output.table =
              (store.get used.output.table).appendAll gained ∧
            second.store.get fresh.output.table =
              (other.get fresh.output.table).appendAll gained) ∧
          second.store.get fresh.source = first.store.get fresh.source) := by
  constructor
  · intro store meters history params width table meter scratch used fresh hok
    have hsame : used.init params width table meter = fresh.init params width table meter :=
      Session.init_after node store meters history hok
    refine ⟨hsame ▸ hok, fun turns => by rw [hsame], fun turns call hown => ?_⟩
    exact Session.get_perform_after hok hown
  · intro plan used fresh store before ready other haggregate hused hinit hbefore hlater hsource hhold
    have hsome : plan.aggregate.isSome = true := by rw [haggregate]; rfl
    exact Scan.execute_renewed hused hsome hinit hbefore hlater hsource hhold

/-! ### An example: a count that was given up -/

/-- The number of rows. -/
def countRows : AggregateNode :=
  ⟨.hash, [], [⟨.countStar, none⟩], none, some ⟨some (.parameter 0), none⟩, ⟨[⟨"n", .int⟩]⟩⟩

def countStore : Store :=
  ⟨#[.unheld (.empty "earlier" countRows.schema), .unheld (.empty "counts" countRows.schema)]⟩

def countMeters : Meters :=
  ⟨#[.new 1 1 true, .new 2 1 true]⟩

/-- A run on the first table and the first meter that nobody ended, a start on the others without its
parameter, a row for the run that was dropped, and others who count on the second meter. -/
def countTurns : List Session.Turn :=
  [.call (.init [.int 1] 1 0 0), .call (.feed [.int 7]), .call (.feed [.int 8]),
    .call (.init [] 1 1 1), .call (.feed [.int 9]),
    .meters fun meters => meters.set 1 (meters.get 1).tick]

/-- The number of ids `n` for which `6 / (n - 3)` is less than seven.  There is no such quotient for
the third of the four. -/
def countQuotients : ScanNode :=
  ⟨0, some Scan.people, [], false, false,
    some (.compare .lt (.arith .div (.constant (.int 6))
      (.arith .sub (.column 0) (.constant (.int 3)))) (.constant (.int 7))),
    none, none, some countRows, countRows.schema⟩

/-- The scan that counts them, and the store with its output. -/
def countQuotientsScan : Scan × Store :=
  (⟨countQuotients, 0, .owned 1, some (.ofNode countRows)⟩,
    (Scan.peopleStore.add (.empty "people_vertexes" countRows.schema)).2)

/-- The session counts one row, not four, and has delivered it on the second meter, which others have
counted on before.  The scan fails at the third id and then counts the one that
is left, as a new scan does. -/
theorem start_erases_history_counts :
    let used := (Session.new countRows countStore countMeters).after countTurns
    let fresh := Session.new countRows used.store used.meters
    let turns : List Session.Turn := [.call (.feed [.int 1]), .call .finish]
    let call (scan : Scan) (store : Store) :=
      scan.execute ⟨0, default, none, false, false⟩ [.int 1] store
    let failed := call countQuotientsScan.1 countQuotientsScan.2
    let again := call failed.scan failed.store
    (used.init [.int 1] 1 1 1).1 = .ok [.null] ∧
      (used.init [.int 1] 1 1 1).2.watch turns = (fresh.init [.int 1] 1 1 1).2.watch turns ∧
      (((used.init [.int 1] 1 1 1).2.after turns).store.get 1).table.rows = #[[.int 1]] ∧
      (((used.init [.int 1] 1 1 1).2.after turns).meters.meters.map Meter.processed) = #[0, 2] ∧
      failed.outcome = .error .divisionByZero ∧ again.outcome = .ok ⟨.scanned, ⟨1, 1⟩⟩ ∧
      (again.store.get 1).table.rows = #[[.int 1]] ∧
      ∃ scan ready, Scan.init (.scan countQuotients) failed.store = .ok (scan, ready) ∧
        (call scan ready).outcome = again.outcome ∧
        (call scan ready).store.get scan.source = again.store.get scan.source := by
  intro used fresh turns call failed again
  have hok : (used.init [.int 1] 1 1 1).1 = .ok [.null] := rfl
  obtain ⟨-, hwatch, -⟩ := (start_erases_history countRows).1 countStore countMeters countTurns
    [.int 1] 1 1 1 [.null] hok
  have hready : Scan.init (.scan countQuotients) Scan.peopleStore = .ok countQuotientsScan := rfl
  have hpast : Scan.Past countQuotients failed.scan failed.store :=
    (Scan.Past.accepted hready (by decide)).executed _ _
  have hfailed : failed.outcome = .error .divisionByZero := by
    simp only [failed, call]
    cbv
  have hagain : again.outcome = .ok ⟨.scanned, ⟨1, 1⟩⟩ := by
    simp only [again, failed, call]
    cbv
  have hcount : (again.store.get 1).table.rows = #[[.int 1]] := by
    simp only [again, failed, call]
    cbv
  have hrows : (((used.init [.int 1] 1 1 1).2.after turns).store.get 1).table.rows = #[[.int 1]] := by
    simp only [used, turns]
    cbv
  have hcounts : (((used.init [.int 1] 1 1 1).2.after turns).meters.meters.map Meter.processed) =
      #[0, 2] := by
    simp only [used, turns]
    cbv
  have hinit : Scan.init (.scan countQuotients) failed.store =
      .ok (⟨countQuotients, 0, .owned 2, some (.ofNode countRows)⟩,
        (failed.store.add (.empty "people_vertexes" countRows.schema)).2) := by
    simp only [failed, call]
    cbv
  refine ⟨hok, hwatch turns, hrows, hcounts, hfailed, hagain, hcount, _, _, hinit, ?_⟩
  obtain ⟨hout, -, -, hsource⟩ := (start_erases_history countRows).2 countQuotients failed.scan _
    failed.store failed.store _ _ rfl hpast hinit (by decide) (.refl _)
    (Store.get_add_of_lt _ (by decide)) rfl ⟨0, default, none, false, false⟩ [.int 1]
  exact ⟨hout, hsource⟩

end GraphScan
