import GraphScan.Gate

/-!
# What a gate lets pass

A gate counts its matches down through a window.  This file says what that counting amounts to.

* `Window.cut` — the part of a list of matches that a window lets pass.
* `Window.extent` — how many rows are looked at until the window is used up: those before which it
  is not (`Window.lt_extent_iff`), and they are enough (`Window.cut_filter_take_extent`).
* `Gate.window` — what is left of the window of a gate.  The counters of a gate are nothing but
  this window: a gate is open as long as it is, and a match turns it into `Window.next`.

`admits` is the filter of a gate as a property of rows, and `Settled` says that it gives no error.
-/

namespace GraphScan

variable {α : Type}

/-! ## Filters -/

/-- **Whether a filter admits a row**: its predicate is true there.  Without a predicate every row
is admitted. -/
def admits (filter : Option Expr) (row : Row) : Bool :=
  match filter with
  | some predicate => decide (predicate.eval row = .ok (.bool true))
  | none => true

/-- A filter is settled on a row if its predicate has a value there. -/
def Settled (filter : Option Expr) (row : Row) : Prop :=
  ∀ predicate ∈ filter, ∃ value, predicate.eval row = .ok value

/-! ## Counting matches -/

/-- **How many rows it takes to see `count` of them satisfy `p`.**  The last of these is included;
if there are fewer it takes all rows. -/
def reach (p : α → Bool) : Nat → List α → Nat
  | 0, _ => 0
  | _ + 1, [] => 0
  | count + 1, row :: rows => reach p (if p row then count else count + 1) rows + 1

/-- The rows up to the `count`-th match hold the first `count` matches. -/
theorem filter_take_reach (p : α → Bool) (count : Nat) (rows : List α) :
    (rows.take (reach p count rows)).filter p = (rows.filter p).take count := by
  induction rows generalizing count with
  | nil => cases count <;> simp [reach]
  | cons row rows ih =>
      cases count with
      | zero => simp [reach]
      | succ count =>
          rw [reach, List.take_succ_cons]
          by_cases h : p row
          · simp [h, ih]
          · simp [h, ih]

/-- A row is among them exactly if fewer than `count` matches stand before it. -/
theorem lt_reach_iff (p : α → Bool) (count : Nat) (rows : List α) (n : Nat) :
    n < reach p count rows ↔ n < rows.length ∧ ((rows.take n).filter p).length < count := by
  induction rows generalizing count n with
  | nil => cases count <;> simp [reach]
  | cons row rows ih =>
      match count, n with
      | 0, n => simp [reach]
      | count + 1, 0 => simp [reach]
      | count + 1, n + 1 =>
          rw [reach, Nat.add_lt_add_iff_right, ih, List.length_cons, Nat.add_lt_add_iff_right,
            List.take_succ_cons]
          by_cases h : p row
          · simp [h]
          · simp [h]

/-! ## Windows -/

namespace Window

/-- **What a window lets pass** of a list of matches: those behind the offset, up to the limit. -/
def cut (window : Window) (rows : List α) : List α :=
  match window.limit with
  | some limit => (rows.drop window.offset).take limit
  | none => rows.drop window.offset

/-- **How many rows are looked at** until the window over their matches is used up: none if nothing
may pass, all if there is no limit or too few matches. -/
def extent (window : Window) (p : α → Bool) (rows : List α) : Nat :=
  match window.limit with
  | some 0 => 0
  | some limit => reach p (window.offset + limit) rows
  | none => rows.length

def isOpen (window : Window) : Bool :=
  decide (window.limit ≠ some 0)

/-- What an open window is after a match: it has one less to drop or, behind the offset, one less
to let pass. -/
def next (window : Window) : Window :=
  if 0 < window.offset then { window with offset := window.offset - 1 }
  else { window with limit := window.limit.map (· - 1) }

@[simp] theorem cut_nil (window : Window) : window.cut ([] : List α) = [] := by
  rw [cut]
  split <;> simp

/-- A window lets only matches pass. -/
theorem mem_of_mem_cut {window : Window} {rows : List α} {row : α} (h : row ∈ window.cut rows) :
    row ∈ rows := by
  rw [cut] at h
  split at h
  · exact List.mem_of_mem_drop (List.mem_of_mem_take h)
  · exact List.mem_of_mem_drop h

@[simp] theorem extent_nil (window : Window) (p : α → Bool) : window.extent p [] = 0 := by
  rw [extent]
  split
  · rfl
  · cases window.offset + _ <;> rfl
  · rfl

theorem extent_succ (limit offset : Nat) (p : α → Bool) (rows : List α) :
    Window.extent ⟨some (limit + 1), offset⟩ p rows = reach p (offset + (limit + 1)) rows :=
  rfl

/-- **A row is looked at exactly if the matches before it have not used the window up.** -/
theorem lt_extent_iff (window : Window) (p : α → Bool) (rows : List α) (n : Nat) :
    n < window.extent p rows ↔ n < rows.length ∧ ∀ limit ∈ window.limit,
      0 < limit ∧ ((rows.take n).filter p).length < window.offset + limit := by
  obtain ⟨limit, offset⟩ := window
  match limit with
  | none => simp [extent]
  | some 0 => simp [extent]
  | some (limit + 1) =>
      rw [extent_succ, lt_reach_iff]
      simp

/-- **The rows looked at hold all matches that pass.** -/
theorem cut_filter_take_extent (window : Window) (p : α → Bool) (rows : List α) :
    window.cut ((rows.take (window.extent p rows)).filter p) = window.cut (rows.filter p) := by
  obtain ⟨limit, offset⟩ := window
  match limit with
  | none => rw [extent, List.take_length]
  | some 0 => simp [cut]
  | some (limit + 1) =>
      rw [extent_succ, filter_take_reach]
      simp only [cut]
      rw [List.drop_take, Nat.add_sub_cancel_left, List.take_take, Nat.min_self]

theorem cut_of_not_isOpen {window : Window} (h : window.isOpen = false) (rows : List α) :
    window.cut rows = [] := by
  have hlimit : window.limit = some 0 := by simpa [isOpen] using h
  simp [cut, hlimit]

theorem extent_of_not_isOpen {window : Window} (h : window.isOpen = false) (p : α → Bool)
    (rows : List α) : window.extent p rows = 0 := by
  have hlimit : window.limit = some 0 := by simpa [isOpen] using h
  simp [extent, hlimit]

/-- Before the offset a match is dropped. -/
theorem cut_cons_of_offset {window : Window} (h : 0 < window.offset) (row : α) (rows : List α) :
    window.cut (row :: rows) = window.next.cut rows := by
  obtain ⟨limit, offset⟩ := window
  cases offset with
  | zero => simp at h
  | succ offset => cases limit <;> simp [cut, next]

/-- Behind the offset a match passes. -/
theorem cut_cons_of_isOpen {window : Window} (hoffset : window.offset = 0)
    (hopen : window.isOpen = true) (row : α) (rows : List α) :
    window.cut (row :: rows) = row :: window.next.cut rows := by
  obtain ⟨limit, offset⟩ := window
  subst hoffset
  match limit with
  | none => simp [cut, next]
  | some 0 => simp [isOpen] at hopen
  | some (limit + 1) => simp [cut, next]

/-- The row at the head is looked at, and counts if it is a match. -/
theorem extent_cons {window : Window} (h : window.isOpen = true) (p : α → Bool) (row : α)
    (rows : List α) :
    window.extent p (row :: rows) = (if p row then window.next else window).extent p rows + 1 := by
  obtain ⟨limit, offset⟩ := window
  match limit with
  | none => cases offset <;> by_cases hp : p row <;> simp [extent, next, hp]
  | some 0 => simp [isOpen] at h
  | some (limit + 1) =>
      rw [extent_succ, ← Nat.add_assoc, reach]
      by_cases hp : p row
      · cases offset with
        | zero => cases limit <;> simp [extent, next, hp, reach]
        | succ offset => simp [extent, next, hp, Nat.succ_add_eq_add_succ]
      · simp [extent, hp, Nat.add_assoc]

/-- What a window is after a number of matches. -/
def after (window : Window) (count : Nat) : Window :=
  ⟨window.limit.map (· - (count - window.offset)), window.offset - count⟩

@[simp] theorem after_zero (window : Window) : window.after 0 = window := by
  obtain ⟨limit, offset⟩ := window
  cases limit <;> simp [after]

/-- One more match turns the window into the next one. -/
theorem next_after (window : Window) (count : Nat) :
    (window.after count).next = window.after (count + 1) := by
  obtain ⟨limit, offset⟩ := window
  rw [next]
  by_cases hoffset : 0 < (Window.after ⟨limit, offset⟩ count).offset
  · have hlt : 0 < offset - count := hoffset
    have hsame : count + 1 - offset = count - offset := by omega
    rw [if_pos hoffset, after, after, hsame, Nat.sub_sub]
  · have hle : offset - count = 0 := Nat.eq_zero_of_not_pos hoffset
    have hsucc : count + 1 - offset = count - offset + 1 := by omega
    have hzero : offset - (count + 1) = offset - count := by omega
    rw [if_neg hoffset, after, after, hsucc, hzero]
    cases limit <;> simp [Nat.sub_sub]

/-- **The match behind `count` others passes exactly if `count` falls into the window.** -/
theorem after_passes_iff (window : Window) (count : Nat) :
    (window.after count).offset = 0 ∧ (window.after count).isOpen = true ↔
      window.offset ≤ count ∧ ∀ limit ∈ window.limit, count < window.offset + limit := by
  obtain ⟨limit, offset⟩ := window
  cases limit with
  | none => simp [after, isOpen, Nat.sub_eq_zero_iff_le]
  | some limit =>
      simp only [after, isOpen, Option.map_some, Option.mem_def, Option.some.injEq, forall_eq',
        decide_eq_true_eq, ne_eq]
      omega

/-- **A window cuts a list in two parts**: what is left of it after the first part cuts the second. -/
theorem cut_append (window : Window) (rows others : List α) :
    window.cut (rows ++ others) = window.cut rows ++ (window.after rows.length).cut others := by
  obtain ⟨limit, offset⟩ := window
  cases limit with
  | none => simp [cut, after, List.drop_append]
  | some limit => simp [cut, after, List.drop_append, List.take_append]

theorem cut_concat_of_offset {window : Window} {rows : List α}
    (h : (window.after rows.length).offset ≠ 0) (row : α) :
    window.cut (rows ++ [row]) = window.cut rows := by
  rw [cut_append, cut_cons_of_offset (Nat.pos_of_ne_zero h), cut_nil, List.append_nil]

theorem cut_concat_of_isOpen {window : Window} {rows : List α}
    (hoffset : (window.after rows.length).offset = 0)
    (hopen : (window.after rows.length).isOpen = true) (row : α) :
    window.cut (rows ++ [row]) = window.cut rows ++ [row] := by
  rw [cut_append, cut_cons_of_isOpen hoffset hopen, cut_nil]

end Window

/-! ## Gates as windows -/

namespace Gate

/-- **What is left of the window of a gate.** -/
def window (gate : Gate) : Window :=
  ⟨gate.limit.map (· - gate.passed), gate.skip⟩

@[simp] theorem window_new (filter : Option Expr) (window : Window) :
    (Gate.new filter window).window = window := by
  simp [Gate.window, Gate.new]

/-- A gate is open as long as its window is, unless it was closed from outside. -/
theorem isOpen_eq (gate : Gate) : gate.isOpen = (!gate.closed && gate.window.isOpen) := by
  rw [isOpen, window, Window.isOpen]
  cases gate.limit with
  | none => simp
  | some limit =>
      congr 1
      by_cases h : gate.passed < limit
      · simp [h, Nat.sub_ne_zero_of_lt h]
      · simp [h, Nat.sub_eq_zero_of_le (Nat.le_of_not_lt h)]

theorem isMatch_of_settled {gate : Gate} {row : Row} (h : Settled gate.predicate row) :
    gate.isMatch row = .ok (admits gate.predicate row) := by
  rw [isMatch]
  cases hfilter : gate.predicate with
  | none => rfl
  | some predicate =>
      obtain ⟨value, hvalue⟩ := h predicate (by simp [hfilter])
      simp only [admits, hvalue, bind, Except.bind, Except.ok.injEq]
      cases value with
      | bool b => cases b <;> simp [Value.isTrue]
      | _ => simp [Value.isTrue]

theorem settled_of_isMatch {gate : Gate} {row : Row} {found : Bool}
    (h : gate.isMatch row = .ok found) : Settled gate.predicate row := by
  intro predicate hfilter
  rw [Option.mem_def] at hfilter
  cases hvalue : predicate.eval row with
  | ok value => exact ⟨value, rfl⟩
  | error e => simp [isMatch, hfilter, hvalue, bind, Except.bind] at h

theorem countMatch_fst_of_isOpen {gate : Gate} (h : gate.isOpen = true) :
    gate.countMatch.1 = decide (gate.window.offset = 0) := by
  rw [countMatch_fst, h, Bool.and_true]
  rfl

theorem offer_of_reject {gate : Gate} {row : Row} (hsettled : Settled gate.predicate row)
    (hadmits : admits gate.predicate row = false) : gate.offer row = .ok (false, gate) := by
  have hmatch := isMatch_of_settled hsettled
  rw [hadmits] at hmatch
  exact offer_of_isMatch_false hmatch

theorem offer_of_drop {gate : Gate} {row : Row} (hsettled : Settled gate.predicate row)
    (hadmits : admits gate.predicate row = true) (hopen : gate.isOpen = true)
    (hoffset : gate.window.offset ≠ 0) : gate.offer row = .ok (false, gate.countMatch.2) := by
  have hmatch := isMatch_of_settled hsettled
  rw [hadmits] at hmatch
  have hfst : gate.countMatch.1 = false := by
    rw [countMatch_fst_of_isOpen hopen, decide_eq_false hoffset]
  rw [← hfst]
  exact offer_of_isMatch_true hmatch

theorem offer_of_pass {gate : Gate} {row : Row} (hsettled : Settled gate.predicate row)
    (hadmits : admits gate.predicate row = true) (hopen : gate.isOpen = true)
    (hoffset : gate.window.offset = 0) : gate.offer row = .ok (true, gate.countMatch.2) := by
  have hmatch := isMatch_of_settled hsettled
  rw [hadmits] at hmatch
  have hfst : gate.countMatch.1 = true := by
    rw [countMatch_fst_of_isOpen hopen, decide_eq_true hoffset]
  rw [← hfst]
  exact offer_of_isMatch_true hmatch

/-- An offer counts the row exactly if it passes. -/
theorem passed_of_offer {gate next : Gate} {row : Row} {passes : Bool}
    (h : gate.offer row = .ok (passes, next)) : next.passed = gate.passed + passes.toNat := by
  cases hmatch : gate.isMatch row with
  | error e => simp [offer, hmatch, bind, Except.bind] at h
  | ok found =>
      cases found with
      | false =>
          rw [offer_of_isMatch_false hmatch] at h
          cases h
          rfl
      | true =>
          have hcount := gate.passed_countMatch
          rw [offer_of_isMatch_true hmatch, Except.ok.injEq] at h
          rwa [h] at hcount

/-- A match moves the window on, unless the gate was closed from outside. -/
theorem window_countMatch_of_not_closed {gate : Gate} (h : gate.closed = false) :
    gate.countMatch.2.window = gate.window.next := by
  rw [countMatch, Window.next, window, window]
  by_cases hskip : 0 < gate.skip
  · simp [hskip]
  · cases hopen : gate.isOpen with
    | true => simp [hskip, Nat.sub_sub, Function.comp_def]
    | false =>
        -- Nothing is left to pass, and taking one off leaves nothing.
        have hlimit : gate.window.limit = some 0 := by
          simpa [isOpen_eq, h, Window.isOpen] using hopen
        rw [window] at hlimit
        dsimp only at hlimit
        simp [hskip, hlimit, -Option.map_map]

/-- A match moves the window of an open gate on. -/
theorem window_countMatch {gate : Gate} (h : gate.isOpen = true) :
    gate.countMatch.2.window = gate.window.next := by
  rw [isOpen, Bool.and_eq_true, Bool.not_eq_true'] at h
  exact window_countMatch_of_not_closed h.1

@[simp] theorem limit_countMatch (gate : Gate) : gate.countMatch.2.limit = gate.limit := by
  rw [countMatch]
  split
  · rfl
  · split <;> rfl

@[simp] theorem predicate_countMatch (gate : Gate) :
    gate.countMatch.2.predicate = gate.predicate := by
  rw [countMatch]
  split
  · rfl
  · split <;> rfl

@[simp] theorem closed_countMatch (gate : Gate) : gate.countMatch.2.closed = gate.closed := by
  rw [countMatch]
  split
  · rfl
  · split <;> rfl

end Gate

end GraphScan
