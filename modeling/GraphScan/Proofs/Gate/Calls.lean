import GraphScan.Proofs.Gate.Window

/-!
# A gate under any calls

Whoever holds a gate may offer it rows and close it in any order, and go on when a predicate has
failed, when the limit is reached and when the gate is closed.

* `Gate.Call` — the calls; `Gate.after` is the gate after some of them, and `Gate.answers` what it
  has answered to the rows.
* `Gate.matchCount` — how many of the rows offered were matches.
* `Gate.Account` — what the fields of a gate say about the calls so far.  A call keeps the account
  (`Account.call`), and so does any number of them (`account_after`).
* `Gate.calls_pass_window` — **a match passes exactly if its number falls into the window and the
  gate was not closed before**, and no other row counts for anything.
-/

namespace GraphScan

namespace Gate

variable {filter : Option Expr} {window : Window} {gate : Gate}

/-! ## Calls -/

/-- **What may be asked of a gate**: to take a row, or to close. -/
inductive Call where
  | offer (row : Row)
  | close

/-- What a gate answers to a row: whether it passes, or the error of the predicate. -/
def answer (gate : Gate) (row : Row) : Except EngineError Bool :=
  (gate.offer row).map Prod.fst

/-- The gate after a call.  A row on which the predicate fails leaves it as it was. -/
def call (gate : Gate) : Call → Gate
  | .offer row =>
    match gate.offer row with
    | .ok (_, next) => next
    | .error _ => gate
  | .close => gate.close

/-- The gate after a list of calls. -/
def after (gate : Gate) (calls : List Call) : Gate :=
  calls.foldl call gate

/-- **The answers to the rows** among a list of calls, in their order. -/
def answers (gate : Gate) : List Call → List (Except EngineError Bool)
  | [] => []
  | .offer row :: calls => gate.answer row :: (gate.call (.offer row)).answers calls
  | .close :: calls => gate.close.answers calls

/-- Whether an answer lets its row pass. -/
def lets : Except EngineError Bool → Bool
  | .ok passes => passes
  | .error _ => false

/-- Whether a call offers a match. -/
def Call.isMatch (filter : Option Expr) : Call → Bool
  | .offer row => admits filter row
  | .close => false

/-- **How many of the rows offered are matches.** -/
def matchCount (filter : Option Expr) (calls : List Call) : Nat :=
  calls.countP (Call.isMatch filter)

theorem after_concat (gate : Gate) (calls : List Call) (call : Call) :
    gate.after (calls ++ [call]) = (gate.after calls).call call := by
  rw [after, List.foldl_append]
  rfl

theorem answers_append (gate : Gate) (calls later : List Call) :
    gate.answers (calls ++ later) = gate.answers calls ++ (gate.after calls).answers later := by
  induction calls generalizing gate with
  | nil => rfl
  | cons call calls ih =>
      cases call with
      | offer row => exact congrArg (gate.answer row :: ·) (ih (gate.call (.offer row)))
      | close => exact ih gate.close

/-- The rows let pass by the answers, one call more. -/
theorem countP_answers_offer (gate : Gate) (calls : List Call) (row : Row) :
    (gate.answers (calls ++ [.offer row])).countP lets =
      (gate.answers calls).countP lets + (lets ((gate.after calls).answer row)).toNat := by
  rw [answers_append, List.countP_append]
  cases hlets : lets ((gate.after calls).answer row) <;> simp [answers, hlets]

@[simp] theorem matchCount_concat (filter : Option Expr) (calls : List Call) (call : Call) :
    matchCount filter (calls ++ [call]) =
      matchCount filter calls + (Call.isMatch filter call).toNat := by
  rw [matchCount, List.countP_append, matchCount, List.countP_singleton]
  cases Call.isMatch filter call <;> rfl

/-! ## One row -/

/-- A match is counted, and told whether it passes. -/
theorem answer_of_admits (gate : Gate) {row : Row} (h : admits gate.predicate row = true) :
    gate.answer row = .ok gate.countMatch.1 ∧ gate.call (.offer row) = gate.countMatch.2 := by
  have hsettled : Settled gate.predicate row := by
    intro predicate hfilter
    rw [Option.mem_def] at hfilter
    rw [hfilter, admits, decide_eq_true_eq] at h
    exact ⟨_, h⟩
  have hmatch := isMatch_of_settled hsettled
  rw [h] at hmatch
  have hoffer := offer_of_isMatch_true hmatch
  rw [answer, call, hoffer]
  exact ⟨rfl, rfl⟩

/-- **Any other row leaves the gate as it was**; the answer is the error of the predicate, if it has
one. -/
theorem answer_of_not_admits (gate : Gate) {row : Row} (h : admits gate.predicate row = false) :
    (∀ predicate ∈ gate.predicate,
      gate.answer row = (predicate.eval row).map fun _ => false) ∧
      gate.call (.offer row) = gate := by
  cases hfilter : gate.predicate with
  | none => simp [hfilter, admits] at h
  | some predicate =>
      cases hvalue : predicate.eval row with
      | error e =>
          have hoffer : gate.offer row = .error e := by
            simp [offer, isMatch, hfilter, hvalue, bind, Except.bind]
          rw [answer, call, hoffer]
          refine ⟨?_, rfl⟩
          rintro _ ⟨⟩
          rw [hvalue]
          rfl
      | ok value =>
          have hsettled : Settled gate.predicate row := by
            rw [hfilter]
            rintro _ ⟨⟩
            exact ⟨value, hvalue⟩
          rw [answer, call, offer_of_reject hsettled h]
          refine ⟨?_, rfl⟩
          rintro _ ⟨⟩
          rw [hvalue]
          rfl

/-- The rows that have passed are those the answers tell of. -/
theorem passed_call_offer (gate : Gate) (row : Row) :
    (gate.call (.offer row)).passed = gate.passed + (lets (gate.answer row)).toNat := by
  rw [call, answer]
  cases hoffer : gate.offer row with
  | error e => rfl
  | ok result => exact passed_of_offer hoffer

/-- Only an open gate counts a row as passed. -/
theorem passed_countMatch_le {limit : Nat} (hlimit : gate.limit = some limit)
    (h : gate.passed ≤ limit) : gate.countMatch.2.passed ≤ limit := by
  rw [passed_countMatch, countMatch_fst]
  cases hopen : gate.isOpen with
  | false => simpa using h
  | true =>
      have hlt : gate.passed < limit := by
        rw [isOpen, hlimit] at hopen
        simpa using (Bool.and_eq_true_iff.mp hopen).2
      have htoNat := Bool.toNat_le (decide (gate.skip = 0) && true)
      omega

/-! ## The account of a gate -/

/-- **What the fields of a gate say about the calls so far.**  Until it is closed, what is left of
its window is what the matches have left of it. -/
structure Account (filter : Option Expr) (window : Window) (calls : List Call) (gate : Gate) :
    Prop where
  predicate : gate.predicate = filter
  limit : gate.limit = window.limit
  closed : gate.closed = true ↔ Call.close ∈ calls
  left : gate.closed = false → gate.window = window.after (matchCount filter calls)
  passed : gate.passed = ((Gate.new filter window).answers calls).countP lets
  passed_le : ∀ limit ∈ window.limit, gate.passed ≤ limit

theorem account_new (filter : Option Expr) (window : Window) :
    Account filter window [] (Gate.new filter window) where
  predicate := rfl
  limit := rfl
  closed := by simp [Gate.new]
  left := by simp [matchCount]
  passed := rfl
  passed_le := fun limit _ => Nat.zero_le limit

/-- A match is one of the window, until the gate is closed. -/
theorem Account.countMatch {calls : List Call} {row : Row} (h : Account filter window calls gate)
    (hgate : gate = (Gate.new filter window).after calls) (hadmits : admits filter row = true) :
    Account filter window (calls ++ [.offer row]) gate.countMatch.2 := by
  have hcall := (gate.answer_of_admits (h.predicate ▸ hadmits)).2
  refine ⟨by simp [h.predicate], by simp [h.limit], by simp [h.closed], ?_, ?_, ?_⟩
  · intro hopen
    rw [closed_countMatch] at hopen
    rw [window_countMatch_of_not_closed hopen, h.left hopen, Window.next_after, matchCount_concat,
      Call.isMatch, hadmits, Bool.toNat_true]
  · rw [countP_answers_offer, ← hgate, ← h.passed, ← hcall, passed_call_offer]
  · intro limit hlimit
    rw [Option.mem_def, ← h.limit] at hlimit
    exact passed_countMatch_le hlimit (h.passed_le limit (h.limit ▸ hlimit))

/-- **A call keeps the account.** -/
theorem Account.call {calls : List Call} (h : Account filter window calls gate)
    (hgate : gate = (Gate.new filter window).after calls) (call : Call) :
    Account filter window (calls ++ [call]) (gate.call call) := by
  cases call with
  | close =>
      refine ⟨h.predicate, h.limit, by simp [Gate.call, close], nofun, ?_, h.passed_le⟩
      rw [answers_append, answers, answers, List.append_nil]
      exact h.passed
  | offer row =>
      cases hadmits : admits filter row with
      | true =>
          rw [(gate.answer_of_admits (h.predicate ▸ hadmits)).2]
          exact h.countMatch hgate hadmits
      | false =>
          have hcall := (gate.answer_of_not_admits (h.predicate ▸ hadmits)).2
          have hpassed := gate.passed_call_offer row
          rw [hcall] at hpassed ⊢
          refine ⟨h.predicate, h.limit, by simp [h.closed], ?_, ?_, h.passed_le⟩
          · intro hopen
            rw [h.left hopen, matchCount_concat, Call.isMatch, hadmits, Bool.toNat_false,
              Nat.add_zero]
          · rw [countP_answers_offer, ← hgate, ← h.passed]
            exact hpassed

/-- **Any number of calls keeps it.** -/
theorem Account.after {calls : List Call} (h : Account filter window calls gate)
    (hgate : gate = (Gate.new filter window).after calls) (later : List Call) :
    Account filter window (calls ++ later) (gate.after later) := by
  induction later generalizing calls gate with
  | nil => simpa [Gate.after] using h
  | cons call later ih =>
      have hnext : gate.call call = (Gate.new filter window).after (calls ++ [call]) := by
        rw [after_concat, ← hgate]
      have hlater := ih (h.call hgate call) hnext
      rwa [List.append_assoc, List.singleton_append] at hlater

theorem account_after (filter : Option Expr) (window : Window) (calls : List Call) :
    Account filter window calls ((Gate.new filter window).after calls) :=
  (account_new filter window).after rfl calls

/-! ## What the answers are -/

/-- Whether a match passes is a matter of its number, until the gate is closed. -/
theorem Account.countMatch_fst_iff {calls : List Call} (h : Account filter window calls gate) :
    gate.countMatch.1 = true ↔ window.offset ≤ matchCount filter calls ∧
      (∀ limit ∈ window.limit, matchCount filter calls < window.offset + limit) ∧
      Call.close ∉ calls := by
  have hfst : gate.countMatch.1 = true ↔
      gate.closed = false ∧ gate.window.offset = 0 ∧ gate.window.isOpen = true := by
    rw [countMatch_fst, isOpen_eq]
    cases gate.closed <;> simp [Gate.window]
  rw [hfst, ← h.closed, Bool.not_eq_true]
  constructor
  · rintro ⟨hclosed, hpasses⟩
    rw [h.left hclosed, Window.after_passes_iff] at hpasses
    exact ⟨hpasses.1, hpasses.2, hclosed⟩
  · rintro ⟨hoffset, hlimit, hclosed⟩
    rw [h.left hclosed, Window.after_passes_iff]
    exact ⟨hclosed, hoffset, hlimit⟩

/-- A gate is open until it is closed or has let its limit pass. -/
theorem Account.isOpen_iff {calls : List Call} (h : Account filter window calls gate) :
    gate.isOpen = true ↔
      Call.close ∉ calls ∧ ∀ limit ∈ window.limit, gate.passed < limit := by
  rw [← h.closed, ← h.limit, isOpen]
  cases gate.limit <;> simp

/-- **A gate lets exactly a window of the matches pass**, whatever it is asked to do and in which
order.  After any calls the following holds for the next row.

* A match passes if and only if its number, counted from zero among the matches offered, falls into
  the window and the gate was not closed.
* Any other row does not pass, or meets the error of the predicate, and leaves the gate as it is.

The gate has counted the rows that have passed; they are never more than its limit, and it is open
until it is closed or they are as many. -/
theorem calls_pass_window (filter : Option Expr) (window : Window) (calls : List Call)
    (row : Row) :
    let gate := (Gate.new filter window).after calls
    let count := matchCount filter calls
    (admits filter row = true → ∃ passes, gate.answer row = .ok passes ∧
      (passes = true ↔ window.offset ≤ count ∧
        (∀ limit ∈ window.limit, count < window.offset + limit) ∧ Call.close ∉ calls)) ∧
    (admits filter row = false →
      (∀ predicate ∈ filter, gate.answer row = (predicate.eval row).map fun _ => false) ∧
      gate.call (.offer row) = gate) ∧
    gate.passed = ((Gate.new filter window).answers calls).countP lets ∧
    (∀ limit ∈ window.limit, gate.passed ≤ limit) ∧
    (gate.isOpen = true ↔
      Call.close ∉ calls ∧ ∀ limit ∈ window.limit, gate.passed < limit) := by
  intro gate count
  have haccount : Account filter window calls gate := account_after filter window calls
  refine ⟨?_, ?_, haccount.passed, haccount.passed_le, haccount.isOpen_iff⟩
  · intro hadmits
    exact ⟨gate.countMatch.1, (gate.answer_of_admits (haccount.predicate ▸ hadmits)).1,
      haccount.countMatch_fst_iff⟩
  · intro hadmits
    have hother := gate.answer_of_not_admits (haccount.predicate ▸ hadmits)
    rwa [haccount.predicate] at hother

/-- A window of one match behind the first.  The first match is dropped, the row without a column
fails and counts for nothing, and so the third row passes. -/
theorem calls_pass_window_behind_failure :
    let filter := Expr.compare .gt (.column 0) (.constant (.int 1))
    let gate := (Gate.new (some filter) ⟨some 1, 1⟩).after [.offer [.int 2], .offer []]
    gate.answer [.int 3] = .ok true ∧ gate.passed = 0 := by
  intro filter gate
  have hcalls := calls_pass_window (some filter) ⟨some 1, 1⟩ [.offer [.int 2], .offer []] [.int 3]
  obtain ⟨passes, hanswer, hpasses⟩ := hcalls.1 (by decide)
  have hcount : matchCount (some filter) [.offer [.int 2], .offer []] = 1 := by decide
  rw [hcount] at hpasses
  have htrue : passes = true := hpasses.mpr ⟨by decide, by simp, by simp⟩
  subst htrue
  exact ⟨hanswer, hcalls.2.2.1.trans (by decide)⟩

end Gate

end GraphScan
