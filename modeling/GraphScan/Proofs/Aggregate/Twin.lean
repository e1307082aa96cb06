import GraphScan.Proofs.Aggregate.Completion

/-!
# Serial aggregation as hashed aggregation

A serial aggregation is a hashed one whose runs are delimited by the whole key: it never has more
than one group.

* `Twin` — **the relation between the two**.  It says nothing about the run that the hashed one is in
  when it has no group.
* `Twin.init`, `Twin.feed`, `Twin.finish` — every call gives the same result on the same outlet, and
  keeps the relation.
* `Twin.drive` — so does a drive.
-/

namespace GraphScan

/-- **A serial and a hashed aggregation in the same state.** -/
structure Twin (s : Serial) (h : Hashed) : Prop where
  node_eq : h.node = s.node
  width_eq : h.runWidth = s.node.groupBy.length
  phase_eq : h.phase = s.phase
  gate_eq : h.gate = s.gate
  /-- Between a start and the end there is a gate. -/
  bound : s.phase = .running → s.gate ≠ none
  groups_eq : h.groups = s.current.toList.toArray
  index_eq : h.index = s.current.toList.map fun group => (group.key, 0)
  /-- The key of the open group is whole, and delimits the run. -/
  run_eq : ∀ group ∈ s.current, group.key.length = s.node.groupBy.length ∧
    (h.runWidth ≠ 0 → h.run = some group.key)

namespace Twin

variable {s : Serial} {h : Hashed}

theorem new (node : AggregateNode) {sorted : Nat} (hsorted : node.groupBy.length ≤ sorted) :
    Twin (.new node) (.withRuns node sorted) where
  node_eq := rfl
  width_eq := Nat.min_eq_right hsorted
  phase_eq := rfl
  gate_eq := rfl
  bound := by
    intro hphase
    cases hphase
  groups_eq := rfl
  index_eq := rfl
  run_eq := by
    intro group hgroup
    cases hgroup

/-- **A start** gives the same result. -/
theorem init (ht : Twin s h) (params : List Value) (columns : Nat) :
    (s.init params columns).1 = (h.init params columns).1 ∧
      Twin (s.init params columns).2 (h.init params columns).2 := by
  rw [Serial.init, Hashed.init, ht.node_eq]
  dsimp only
  cases s.node.gate params with
  | error e => exact ⟨rfl, rfl, ht.width_eq, ht.phase_eq, ht.gate_eq, ht.bound, rfl, rfl, by simp⟩
  | ok gate => exact ⟨rfl, rfl, ht.width_eq, rfl, rfl, by simp, rfl, rfl, by simp⟩

/-! ## Rows -/

theorem emitAll_singleton (gate : Gate) (outlet : Outlet) (group : Group) :
    gate.emitAll outlet [group] = gate.emit group outlet := by
  rw [Gate.emitAll]
  rcases gate.emit group outlet with ⟨_ | _ | _, gate, outlet⟩ <;> rfl

/-- Without an open group, or with one of the same key, a run is entered without a word. -/
theorem enter_quietly (ht : Twin s h) (hphase : s.phase = .running) {key : GroupKey}
    (hopen : ∀ group ∈ s.current, group.key = key) (outlet : Outlet) :
    s.closeOther key outlet = (.ok .more, s, outlet) ∧
      ∃ next, h.enterRun key outlet = (.ok .more, next, outlet) ∧ Twin s next ∧
        (next.runWidth ≠ 0 → next.run = some key) := by
  obtain ⟨gate, hgate⟩ := Option.ne_none_iff_exists'.mp (ht.bound hphase)
  have hclose : s.closeOther key outlet = (.ok .more, s, outlet) := by
    rw [Serial.closeOther]
    cases hcurrent : s.current with
    | none => rfl
    | some group =>
        dsimp only
        rw [if_pos (hopen group hcurrent)]
  refine ⟨hclose, ?_⟩
  rw [Hashed.enterRun]
  by_cases hwidth : h.runWidth = 0
  · rw [if_pos hwidth]
    exact ⟨h, rfl, ht, fun hne => absurd hwidth hne⟩
  · rw [if_neg hwidth]
    cases hstarts : h.startsRun key with
    | false =>
        refine ⟨_, rfl, ?_, fun _ => rfl⟩
        refine { ht with run_eq := ?_ }
        intro group hgroup
        refine ⟨(ht.run_eq group hgroup).1, fun _ => ?_⟩
        rw [hopen group hgroup]
    | true =>
        -- Another run can only be left behind when it has no group any more.
        have hnone : s.current = none := by
          cases hcurrent : s.current with
          | none => rfl
          | some group =>
              have hrun := (ht.run_eq group hcurrent).2 hwidth
              rw [hopen group hcurrent] at hrun
              simp [Hashed.startsRun, hrun] at hstarts
        have hempty : h.groups = #[] := by rw [ht.groups_eq, hnone]; rfl
        rw [if_pos rfl, Hashed.flush_of_gate (ht.gate_eq.trans hgate), hempty]
        refine ⟨_, rfl, ?_, fun _ => rfl⟩
        exact {
          node_eq := ht.node_eq
          width_eq := ht.width_eq
          phase_eq := ht.phase_eq
          gate_eq := hgate.symm
          bound := ht.bound
          groups_eq := by rw [hnone]; rfl
          index_eq := by rw [hnone]; rfl
          run_eq := by simp [hnone] }

/-- With an open group of another key a run is entered by emitting this group. -/
theorem enter_emitting (ht : Twin s h) (hphase : s.phase = .running) {key : GroupKey}
    (hkey : key.length = s.node.groupBy.length) {group : Group} (hcurrent : s.current = some group)
    (hother : group.key ≠ key) (outlet : Outlet) :
    (s.closeOther key outlet).1 = (h.enterRun key outlet).1 ∧
      Twin (s.closeOther key outlet).2.1 (h.enterRun key outlet).2.1 ∧
      (s.closeOther key outlet).2.2 = (h.enterRun key outlet).2.2 ∧
      (s.closeOther key outlet).2.1.current = none ∧ (s.closeOther key outlet).2.1.node = s.node ∧
      ((h.enterRun key outlet).1 = .ok .more → (h.enterRun key outlet).2.1.run = some key) := by
  obtain ⟨gate, hgate⟩ := Option.ne_none_iff_exists'.mp (ht.bound hphase)
  obtain ⟨hlength, hrun⟩ := ht.run_eq group hcurrent
  have hwidth : h.runWidth ≠ 0 := by
    intro hzero
    rw [ht.width_eq] at hzero
    rw [hzero] at hlength hkey
    rw [List.eq_nil_of_length_eq_zero hlength, List.eq_nil_of_length_eq_zero hkey] at hother
    exact hother rfl
  have hgroups : h.groups.toList = [group] := by rw [ht.groups_eq, hcurrent]; rfl
  have hstarts : h.startsRun key = true := by
    simp [Hashed.startsRun, hrun hwidth, hother]
  have hclose : s.closeOther key outlet = ((gate.emit group outlet).1,
      { s with current := none, gate := some (gate.emit group outlet).2.1 },
      (gate.emit group outlet).2.2) := by
    simp only [Serial.closeOther, hcurrent, if_neg hother, Serial.emit, hgate]
  rw [Hashed.enterRun, if_neg hwidth, hstarts, if_pos rfl,
    Hashed.flush_of_gate (ht.gate_eq.trans hgate), hgroups, emitAll_singleton, hclose]
  have hrelated : ∀ run, Twin { s with current := none, gate := some (gate.emit group outlet).2.1 }
      { h with gate := some (gate.emit group outlet).2.1, index := [], groups := #[], run } :=
    fun _ => ⟨ht.node_eq, ht.width_eq, ht.phase_eq, rfl, by simp, rfl, rfl, by simp⟩
  rcases hemit : gate.emit group outlet with ⟨_ | _ | _, after, delivered⟩
  · rw [hemit] at hrelated
    exact ⟨rfl, hrelated h.run, rfl, rfl, rfl, fun hmore => (by cases hmore)⟩
  · rw [hemit] at hrelated
    exact ⟨rfl, hrelated (some key), rfl, rfl, rfl, fun _ => rfl⟩
  · rw [hemit] at hrelated
    exact ⟨rfl, hrelated h.run, rfl, rfl, rfl, fun hmore => (by cases hmore)⟩

/-- A row is collected into the open group, or opens one. -/
theorem collect (ht : Twin s h) {key : GroupKey} (hkey : key.length = s.node.groupBy.length)
    (hopen : ∀ group ∈ s.current, group.key = key) (hrun : h.runWidth ≠ 0 → h.run = some key)
    (row : Row) :
    (s.collect key row).1 = (h.collect key row).1 ∧
      Twin (s.collect key row).2 (h.collect key row).2 := by
  have hslot : h.slotOf key = (0, { h with
      index := [(key, 0)]
      groups := #[s.current.getD (.new key s.node.aggregates)] }) := by
    rw [Hashed.slotOf]
    cases hcurrent : s.current with
    | none =>
        have hempty : h.groups = #[] := by rw [ht.groups_eq, hcurrent]; rfl
        have hindex : h.index = [] := by rw [ht.index_eq, hcurrent]; rfl
        simp [hempty, hindex, ht.node_eq]
    | some group =>
        have hsame : group.key = key := hopen group hcurrent
        have hone : h.groups = #[group] := by rw [ht.groups_eq, hcurrent]; rfl
        have hindex : h.index = [(key, 0)] := by rw [ht.index_eq, hcurrent, ← hsame]; rfl
        have hlookup : h.index.lookup key = some 0 := by
          rw [hindex, List.lookup_cons, beq_self_eq_true]
        rw [hlookup, Option.getD_some, ← hone, ← hindex]
  have hkept : (s.current.getD (.new key s.node.aggregates)).key = key := by
    cases hcurrent : s.current with
    | none => rfl
    | some group => exact hopen group hcurrent
  rcases hrow : Group.foldRow row s.node.aggregates
    (s.current.getD (.new key s.node.aggregates)).accumulators with ⟨outcome, accs⟩
  have hserial : s.collect key row = (outcome.map fun _ => .more,
      { s with current := some ⟨key, accs⟩ }) := by
    simp only [Serial.collect, Group.update, hrow, hkept]
  have hhashed : h.collect key row = (outcome.map fun _ => .more,
      { h with index := [(key, 0)], groups := #[⟨key, accs⟩] }) := by
    simp only [Hashed.collect, hslot, Group.update, ht.node_eq]
    simp [hrow, hkept]
  rw [hserial, hhashed]
  refine ⟨rfl, ht.node_eq, ht.width_eq, ht.phase_eq, ht.gate_eq, ht.bound, rfl, rfl, ?_⟩
  intro group hgroup
  obtain rfl : (⟨key, accs⟩ : Group) = group := Option.some.inj hgroup
  exact ⟨hkey, hrun⟩

/-- **A row** gives the same result on the same outlet. -/
theorem feed (ht : Twin s h) (row : Row) (outlet : Outlet) :
    (s.feed row outlet).1 = (h.feed row outlet).1 ∧
      Twin (s.feed row outlet).2.1 (h.feed row outlet).2.1 ∧
      (s.feed row outlet).2.2 = (h.feed row outlet).2.2 := by
  rw [Serial.feed, Hashed.feed, ht.phase_eq, ht.node_eq]
  cases hphase : s.phase with
  | created => exact ⟨rfl, ht, rfl⟩
  | finished => exact ⟨rfl, ht, rfl⟩
  | running =>
      simp only [Phase.check]
      cases hkey : Expr.evalEach row s.node.groupBy with
      | error e => exact ⟨rfl, ht, rfl⟩
      | ok key =>
          have hlength := Expr.length_of_evalEach_eq_ok hkey
          have htake : key.take h.runWidth = key := by
            rw [ht.width_eq, ← hlength, List.take_length]
          simp only [htake]
          by_cases hopen : ∀ group ∈ s.current, group.key = key
          · obtain ⟨hclose, next, henter, hnext, hrun⟩ := ht.enter_quietly hphase hopen outlet
            obtain ⟨hout, hcollected⟩ := hnext.collect hlength hopen hrun row
            simp only [hclose, henter]
            exact ⟨hout, hcollected, trivial⟩
          · obtain ⟨group, hcurrent, hother⟩ :
                ∃ group, s.current = some group ∧ group.key ≠ key := by
              simpa using hopen
            obtain ⟨hout, hnext, houtlet, hnone, hnode, hrun⟩ :=
              ht.enter_emitting hphase hlength hcurrent hother outlet
            rcases hclose : s.closeOther key outlet with ⟨outcome, closed, delivered⟩
            rcases henter : h.enterRun key outlet with ⟨outcome', entered, delivered'⟩
            rw [hclose, henter] at hout hnext houtlet
            rw [hclose] at hnone hnode
            rw [henter] at hrun
            obtain rfl : outcome = outcome' := hout
            obtain rfl : delivered = delivered' := houtlet
            cases outcome with
            | error e => exact ⟨rfl, hnext, rfl⟩
            | ok demand =>
                cases demand with
                | enough => exact ⟨rfl, hnext, rfl⟩
                | more =>
                    have hfree : ∀ group ∈ closed.current, group.key = key := by
                      rw [show closed.current = none from hnone]
                      simp
                    have hlength' : key.length = closed.node.groupBy.length := by
                      rw [show closed.node = s.node from hnode, hlength]
                    obtain ⟨hout, hcollected⟩ :=
                      Twin.collect hnext hlength' hfree (fun _ => hrun rfl) row
                    exact ⟨hout, hcollected, rfl⟩

/-! ## The end -/

theorem pending_eq (ht : Twin s h) : h.pending = s.pending.toList := by
  cases hcurrent : s.current with
  | none =>
      have hempty : h.groups = #[] := by rw [ht.groups_eq, hcurrent]; rfl
      cases hgroupBy : s.node.groupBy.isEmpty with
      | true =>
          simp [Hashed.pending, Hashed.ensureGroup, Serial.pending, hcurrent, hempty, ht.node_eq,
            hgroupBy]
      | false =>
          simp [Hashed.pending, Hashed.ensureGroup, Serial.pending, hcurrent, hempty, ht.node_eq,
            hgroupBy]
  | some group =>
      have hone : h.groups = #[group] := by rw [ht.groups_eq, hcurrent]; rfl
      simp [Hashed.pending, Hashed.ensureGroup, Serial.pending, hcurrent, hone]

/-- **The end** gives the same result on the same outlet. -/
theorem finish (ht : Twin s h) (outlet : Outlet) :
    (s.finish outlet).1 = (h.finish outlet).1 ∧
      Twin (s.finish outlet).2.1 (h.finish outlet).2.1 ∧
      (s.finish outlet).2.2 = (h.finish outlet).2.2 := by
  rw [Serial.finish, Hashed.finish, ht.phase_eq]
  cases hphase : s.phase with
  | created => exact ⟨rfl, ht, rfl⟩
  | finished => exact ⟨rfl, ht, rfl⟩
  | running =>
      obtain ⟨gate, hgate⟩ := Option.ne_none_iff_exists'.mp (ht.bound hphase)
      obtain ⟨groups, hensure, hgroups⟩ : ∃ groups,
          Hashed.ensureGroup { h with phase := .finished } = { h with phase := .finished, groups } ∧
            groups.toList = s.pending.toList := by
        rw [← ht.pending_eq, Hashed.pending, Hashed.ensureGroup, Hashed.ensureGroup]
        split_ifs
        · exact ⟨_, rfl, rfl⟩
        · exact ⟨_, rfl, rfl⟩
      have hrelated : ∀ after, Twin { s with phase := .finished, current := none, gate := some after }
          { h with phase := .finished, gate := some after, index := [], groups := #[] } :=
        fun _ => ⟨ht.node_eq, ht.width_eq, rfl, rfl, by simp, rfl, rfl, by simp⟩
      have hgate' : ({ h with phase := .finished, groups } : Hashed).gate = some gate :=
        ht.gate_eq.trans hgate
      have hhashed := Hashed.flush_of_gate hgate' outlet
      rw [hgroups] at hhashed
      simp only [Phase.check, hensure, hhashed]
      cases hpending : s.pending with
      | none =>
          simp only [hgate, Option.toList_none, Gate.emitAll]
          exact ⟨rfl, hrelated gate, trivial⟩
      | some group =>
          simp only [Serial.emit, hgate, Option.toList_some, emitAll_singleton]
          exact ⟨trivial, hrelated _, trivial⟩

/-! ## Drives -/

theorem complete (ht : Twin s h) (rows : List Row) (outlet : Outlet) :
    ((Machine.serial s).complete rows outlet).1 = ((Machine.hashed h).complete rows outlet).1 ∧
      ((Machine.serial s).complete rows outlet).2.2 =
        ((Machine.hashed h).complete rows outlet).2.2 := by
  have hstep : ∀ (a b : Machine × Outlet) (row : Row),
      (∃ s h, Twin s h ∧ a = (.serial s, b.2) ∧ b.1 = .hashed h) →
      (a.1.feed row a.2).1 = (b.1.feed row b.2).1 ∧
        ∃ s h, Twin s h ∧ (a.1.feed row a.2).2 = (.serial s, (b.1.feed row b.2).2.2) ∧
          (b.1.feed row b.2).2.1 = .hashed h := by
    rintro _ ⟨_, outlet⟩ row ⟨s, h, ht, rfl, rfl⟩
    obtain ⟨hout, hnext, houtlet⟩ := ht.feed row outlet
    refine ⟨hout, (s.feed row outlet).2.1, (h.feed row outlet).2.1, hnext, ?_, rfl⟩
    exact congrArg (Prod.mk _) houtlet
  obtain ⟨hout, -, s', h', ht', hserial, hhashed⟩ :=
    feedAll_related hstep (s := (Machine.serial s, outlet)) (t := (Machine.hashed h, outlet))
      ⟨s, h, ht, rfl, rfl⟩ rows
  rcases hfirst : feedAll (fun state row => state.1.feed row state.2) (Machine.serial s, outlet) rows
    with ⟨outcome, _, state⟩
  rcases hsecond : feedAll (fun state row => state.1.feed row state.2) (Machine.hashed h, outlet) rows
    with ⟨outcome', _, machine, delivered⟩
  rw [hfirst, hsecond] at hout
  rw [hfirst, hsecond] at hserial
  rw [hsecond] at hhashed
  obtain rfl : outcome = outcome' := hout
  obtain rfl : state = (.serial s', delivered) := hserial
  obtain rfl : machine = .hashed h' := hhashed
  simp only [Machine.complete, Machine.feedAll, hfirst, hsecond]
  cases outcome with
  | error e => exact ⟨rfl, rfl⟩
  | ok demand =>
      obtain ⟨hfinish, -, houtlet⟩ := ht'.finish delivered
      exact ⟨hfinish, houtlet⟩

/-- **A serial drive is a hashed drive** whose runs are delimited by the whole key. -/
theorem drive (node : AggregateNode) (params : List Value) (columns : Nat) (rows : List Row)
    (outlet : Outlet) :
    ((Machine.serial (.new node)).drive params columns rows outlet).1 =
        ((Machine.hashed (.withRuns node node.groupBy.length)).drive params columns rows outlet).1 ∧
      ((Machine.serial (.new node)).drive params columns rows outlet).2.2 =
        ((Machine.hashed (.withRuns node node.groupBy.length)).drive params columns rows
          outlet).2.2 := by
  obtain ⟨hout, hnext⟩ := (Twin.new node (Nat.le_refl _)).init params columns
  simp only [Machine.drive, Machine.init]
  rcases hserial : (Serial.new node).init params columns with ⟨outcome, s⟩
  rcases hhashed : (Hashed.withRuns node node.groupBy.length).init params columns with ⟨outcome', h⟩
  rw [hserial, hhashed] at hout hnext
  obtain rfl : outcome = outcome' := hout
  cases outcome with
  | error e => exact ⟨rfl, rfl⟩
  | ok scratch => exact complete hnext rows outlet

end Twin

/-! ## Starts -/

section Started

variable {s : Serial} {params : List Value} {width : Nat} {scratch : Row}

/-- A start that succeeds does not show what the serial aggregation has been through before. -/
theorem Serial.init_eq_new (hinit : (s.init params width).1 = .ok scratch) :
    s.init params width = (new s.node).init params width := by
  simp only [init, new] at hinit ⊢
  cases hgate : s.node.gate params with
  | error e => simp [hgate] at hinit
  | ok gate => rfl

/-- **A serial aggregation that has been started has a hashed twin**, whatever it has been through
before. -/
theorem Twin.of_init (hinit : (s.init params width).1 = .ok scratch) :
    let h := Hashed.withRuns s.node s.node.groupBy.length
    (h.init params width).1 = .ok scratch ∧ Twin (s.init params width).2 (h.init params width).2 := by
  intro h
  obtain ⟨hout, htwin⟩ :=
    (Twin.new s.node (Nat.le_refl s.node.groupBy.length)).init params width
  rw [← Serial.init_eq_new hinit] at hout htwin
  exact ⟨hout.symm.trans hinit, htwin⟩

end Started

end GraphScan
