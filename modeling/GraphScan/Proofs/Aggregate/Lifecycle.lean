import GraphScan.Proofs.Aggregate.Coherence

/-!
# The course of an aggregation

Rows are taken, and the end is announced, between a start and the end.  What is between them is settled
by the answers alone: a start that fails does not count, nor does an end that is refused, but an end
whose groups cannot be delivered does.

* `Session.Answer.Refuses` — whether an answer says that the call came at the wrong time.
* `Session.Underway` — **whether a run is under way**, by the answers so far.
* `Session.refuses_iff`, `Session.perform_of_not_running` — a call is refused unless a run is under way,
  and then it changes nothing.
* `Session.turn_coherent`, `Session.after_coherent` — what one turn does to a coherent session and its
  phase, and what any number of them do.
* `Session.coherent_between_calls` — **an aggregation is coherent between calls, loses no group, and
  takes calls exactly while a run is under way.**
-/

namespace GraphScan

namespace Session

/-! ## Answers -/

/-- The call of an aggregation, if it is one that checks the phase. -/
def Call.checked? : Call → Option AggregateCall
  | .feed _ => some .feed
  | .finish => some .finish
  | _ => none

/-- The error that an answer gives. -/
def Answer.error? : Answer → Option EngineError
  | .started (.error e) | .fed (.error e) | .finished (.error e) => some e
  | _ => none

/-- **Whether a call was refused** because no run was under way. -/
def Answer.Refuses (answer : Answer) : Prop :=
  ∃ call, answer.error? = some (.aggregateNotStarted call) ∨
    answer.error? = some (.aggregateFinished call)

/-- Whether an answer is that of a start that succeeded. -/
def Answer.Starts (answer : Answer) : Prop :=
  ∃ scratch, answer = .started (.ok scratch)

/-- **Whether an answer is that of an end which was not refused.**  It may have failed all the same. -/
def Answer.Ends (answer : Answer) : Prop :=
  (∃ outcome, answer = .finished outcome) ∧ ¬ answer.Refuses

/-- **A run is under way**: a start has succeeded, and the end has not come since. -/
def Underway (answers : List Answer) : Prop :=
  ∃ before start after, answers = before ++ start :: after ∧ start.Starts ∧
    ∀ answer ∈ after, ¬ answer.Ends

/-- What a session answers over a series of turns. -/
def answers (session : Session) (turns : List Turn) : List Answer :=
  (session.watch turns).map Sight.answer

theorem underway_cons {answer : Answer} {answers : List Answer} :
    Underway (answer :: answers) ↔
      Underway answers ∨ answer.Starts ∧ ∀ later ∈ answers, ¬ later.Ends := by
  constructor
  · rintro ⟨_ | ⟨first, before⟩, start, after, heq, hstarts, hafter⟩
    · obtain ⟨rfl, rfl⟩ := List.cons.inj heq
      exact .inr ⟨hstarts, hafter⟩
    · obtain ⟨-, rfl⟩ := List.cons.inj heq
      exact .inl ⟨before, start, after, rfl, hstarts, hafter⟩
  · rintro (⟨before, start, after, rfl, hstarts, hafter⟩ | ⟨hstarts, hafter⟩)
    · exact ⟨answer :: before, start, after, rfl, hstarts, hafter⟩
    · exact ⟨[], answer, answers, rfl, hstarts, hafter⟩

/-- An error of no defensive check refuses nothing. -/
theorem Answer.not_refuses {answer : Answer}
    (h : ∀ e ∈ answer.error?, e.isDefensive = false) : ¬ answer.Refuses := by
  rintro ⟨call, herror | herror⟩
  · exact Bool.noConfusion (h _ herror)
  · exact Bool.noConfusion (h _ herror)

/-! ## Calls -/

variable {session : Session} {call : Call} {kind : AggregateCall}

/-- **A call that does not pass the check of the phase** changes nothing: not the machine, no table, and
not the count of work. -/
theorem perform_of_refused {e : EngineError} (hkind : call.checked? = some kind)
    (hcheck : session.machine.phase.check kind = .error e) :
    (session.perform call).1.error? = some e ∧ (session.perform call).2 = session := by
  cases call with
  | init params width table meter | others change => cases hkind
  | feed row =>
      obtain rfl := Option.some.inj hkind
      simp only [perform, feed, Machine.feed_of_refused hcheck]
      exact ⟨rfl, session.settle_outlet⟩
  | finish =>
      obtain rfl := Option.some.inj hkind
      simp only [perform, finish, Machine.finish_of_refused hcheck]
      exact ⟨rfl, session.settle_outlet⟩

theorem check_eq_ok_iff {phase : Phase} : phase.check kind = .ok () ↔ phase = .running := by
  cases phase <;> simp [Phase.check]

theorem check_eq_error {phase : Phase} {e : EngineError} (hcheck : phase.check kind = .error e) :
    phase ≠ .running ∧ (e = .aggregateNotStarted kind ∨ e = .aggregateFinished kind) := by
  cases phase with
  | created => exact ⟨nofun, .inl (Except.error.inj hcheck).symm⟩
  | running => cases hcheck
  | finished => exact ⟨nofun, .inr (Except.error.inj hcheck).symm⟩

/-- A call that passes it fails at no defensive check. -/
theorem perform_of_running (hc : session.machine.Coherent) (hkind : call.checked? = some kind)
    (hphase : session.machine.phase = .running) :
    ∀ e ∈ (session.perform call).1.error?, e.isDefensive = false := by
  intro e he
  cases call with
  | init params width table meter | others change => cases hkind
  | feed row =>
      have hspared := (hc.feed row session.outlet).2.2 hphase
      simp only [perform, feed] at he
      cases hout : (session.machine.feed row session.outlet).1 with
      | ok demand => simp [hout, Answer.error?] at he
      | error found =>
          obtain rfl : found = e := by simpa [hout, Answer.error?] using he
          exact hspared.of_error hout
  | finish =>
      have hspared := ((hc.finish session.outlet).2 hphase).2
      simp only [perform, finish] at he
      cases hout : (session.machine.finish session.outlet).1 with
      | ok => simp [hout, Answer.error?] at he
      | error found =>
          obtain rfl : found = e := by simpa [hout, Answer.error?] using he
          exact hspared.of_error hout

/-- **A call is refused unless a run is under way.** -/
theorem refuses_iff (hc : session.machine.Coherent) (hkind : call.checked? = some kind) :
    (session.perform call).1.Refuses ↔ session.machine.phase ≠ .running := by
  cases hcheck : session.machine.phase.check kind with
  | ok =>
      have hrunning := check_eq_ok_iff.mp hcheck
      have hpasses := Answer.not_refuses (perform_of_running hc hkind hrunning)
      exact iff_of_false hpasses (not_not_intro hrunning)
  | error e =>
      obtain ⟨hstill, hrefusal⟩ := check_eq_error hcheck
      have herror := (perform_of_refused hkind hcheck).1
      refine iff_of_true ⟨kind, ?_⟩ hstill
      rwa [herror, Option.some_inj, Option.some_inj]

theorem perform_of_not_running (hkind : call.checked? = some kind)
    (hstill : session.machine.phase ≠ .running) : (session.perform call).2 = session := by
  cases hcheck : session.machine.phase.check kind with
  | ok => exact absurd (check_eq_ok_iff.mp hcheck) hstill
  | error e => exact (perform_of_refused hkind hcheck).2

/-! ## Turns -/

/-- **How an answer moves the phase**: a run is under way afterwards if the answer is that of its start,
or if one was under way before and the answer is not that of its end. -/
def Answer.Moves (answer : Answer) (before after : Phase) : Prop :=
  after = .running ↔ answer.Starts ∨ before = .running ∧ ¬ answer.Ends

theorem perform_init (hc : session.machine.Coherent) (params : List Value) (width : Nat)
    (table : TableId) (meter : MeterId) :
    (session.perform (.init params width table meter)).2.machine.Coherent ∧
      (session.perform (.init params width table meter)).1.Moves session.machine.phase
        (session.perform (.init params width table meter)).2.machine.phase := by
  have hnext := hc.init params width
  have hphase := session.machine.phase_init params width
  simp only [perform, init]
  rcases hcall : session.machine.init params width with ⟨e | scratch, machine⟩
  all_goals rw [hcall] at hnext hphase
  · obtain ⟨hok, -⟩ | ⟨-, hsame⟩ := hphase
    · cases hok
    · exact ⟨hnext, by simp [Answer.Moves, hsame, Answer.Starts, Answer.Ends]⟩
  · obtain ⟨-, hrunning⟩ | ⟨⟨e, herror⟩, -⟩ := hphase
    · exact ⟨hnext, by simp [Answer.Moves, hrunning, Answer.Starts]⟩
    · cases herror

theorem perform_feed (hc : session.machine.Coherent) (row : Row) :
    (session.perform (.feed row)).2.machine.Coherent ∧
      (session.perform (.feed row)).1.Moves session.machine.phase
        (session.perform (.feed row)).2.machine.phase := by
  obtain ⟨hnext, hphase, -⟩ := hc.feed row session.outlet
  refine ⟨hnext, ?_⟩
  simp [Answer.Moves, perform, Session.feed, hphase, Answer.Starts, Answer.Ends]

/-- **The end** ends a run unless it is refused, even if it fails. -/
theorem perform_finish (hc : session.machine.Coherent) :
    (session.perform .finish).2.machine.Coherent ∧
      (session.perform .finish).1.Moves session.machine.phase
        (session.perform .finish).2.machine.phase := by
  obtain ⟨hnext, hends⟩ := hc.finish session.outlet
  refine ⟨hnext, ?_⟩
  have hstarts : ¬ (session.perform .finish).1.Starts := nofun
  have hkind : Call.checked? .finish = some .finish := rfl
  by_cases hphase : session.machine.phase = .running
  · have hfinished : (session.perform .finish).2.machine.phase = .finished := (hends hphase).1
    have hended : (session.perform .finish).1.Ends :=
      ⟨⟨_, rfl⟩, fun hrefuses => (refuses_iff hc hkind).mp hrefuses hphase⟩
    simp [Answer.Moves, hstarts, hfinished, hended]
  · simp [Answer.Moves, hstarts, hphase, perform_of_not_running hkind hphase]

/-- **One turn** keeps a machine coherent, and its answer tells how the phase is moved. -/
theorem turn_coherent (hc : session.machine.Coherent) (turn : Turn) :
    (session.turn turn).2.machine.Coherent ∧
      (session.turn turn).1.Moves session.machine.phase (session.turn turn).2.machine.phase := by
  match turn with
  | .call (.init params width table meter) => exact perform_init hc params width table meter
  | .call (.feed row) => exact perform_feed hc row
  | .call .finish => exact perform_finish hc
  | .call (.others change) | .meters change =>
      exact ⟨hc, by simp [Answer.Moves, Session.turn, perform, Answer.Starts, Answer.Ends]⟩

/-- **Any number of turns** keep it coherent, and their answers tell whether a run is under way. -/
theorem after_coherent (hc : session.machine.Coherent) (turns : List Turn) :
    (session.after turns).machine.Coherent ∧
      ((session.after turns).machine.phase = .running ↔
        Underway (session.answers turns) ∨
          session.machine.phase = .running ∧ ∀ answer ∈ session.answers turns, ¬ answer.Ends) := by
  induction turns generalizing session with
  | nil => exact ⟨hc, by simp [after, answers, watch, Underway]⟩
  | cons turn turns ih =>
      obtain ⟨hnext, hturn⟩ := turn_coherent hc turn
      obtain ⟨hlast, hafter⟩ := ih hnext
      refine ⟨hlast, ?_⟩
      rw [Answer.Moves] at hturn
      rw [after, hafter, hturn, show session.answers (turn :: turns) =
        (session.turn turn).1 :: (session.turn turn).2.answers turns from rfl, underway_cons,
        List.forall_mem_cons]
      tauto

/-! ## The course of an aggregation -/

/-- A call of a coherent session fails at no check of the outlet or of the groups. -/
theorem perform_finds (hc : session.machine.Coherent) (call : Call) :
    ∀ e ∈ (session.perform call).1.error?,
      (∀ strategy, e ≠ .aggregateUnbound strategy) ∧ ∀ slot, e ≠ .groupSlotLost slot := by
  intro e he
  have hspared (h : e.isDefensive = false) :
      (∀ strategy, e ≠ .aggregateUnbound strategy) ∧ ∀ slot, e ≠ .groupSlotLost slot := by
    constructor <;> rintro detail rfl <;> cases h
  cases hkind : call.checked? with
  | some kind =>
      cases hcheck : session.machine.phase.check kind with
      | ok => exact hspared (perform_of_running hc hkind (check_eq_ok_iff.mp hcheck) e he)
      | error refusal =>
          obtain rfl := Option.some.inj ((perform_of_refused hkind hcheck).1.symm.trans he)
          obtain ⟨-, rfl | rfl⟩ := check_eq_error hcheck <;> exact ⟨nofun, nofun⟩
  | none =>
      cases call with
      | feed row | finish => cases hkind
      | others change => cases he
      | init params width table meter =>
          have hinit := session.machine.init_spared params width
          simp only [perform, init] at he
          rcases hcall : session.machine.init params width with ⟨found | scratch, machine⟩
          all_goals rw [hcall] at hinit he
          · obtain rfl := Option.some.inj he
            exact hspared hinit
          · cases he

/-- **An aggregation between its calls.**  Take a machine of any form for any node, as it is made, and
let any calls be made on it, in any order and with any outcomes, while others use the tables and the
meters.  Then the following holds.

* If it is hashed, the keys of its groups are all different, the index maps a key to a slot exactly if
  the group in this slot has the key, and if it has runs all groups are of the run it is in.
* If it is in the phase between a start and the end, it has a gate.
* No call finds that the gate or the group in a slot is missing.
* A row and the end pass the check of the phase exactly while a run is under way: a start has
  succeeded and no end has been let pass since, be it one that failed.  Otherwise they are refused,
  and a call that is refused leaves the machine, the tables and the counts of work as they are. -/
theorem coherent_between_calls {node : AggregateNode} {machine : Machine} (hnew : machine.IsNew node)
    (store : Store) (meters : Meters) (turns : List Turn) :
    let fresh : Session := ⟨machine, store, none, meters⟩
    let now := fresh.after turns
    (∀ h, now.machine = .hashed h → h.Coherent) ∧
      (now.machine.phase = .running → ∃ gate, now.machine.gate? = some gate) ∧
      (∀ call, ∀ e ∈ (now.perform call).1.error?,
        (∀ strategy, e ≠ .aggregateUnbound strategy) ∧ ∀ slot, e ≠ .groupSlotLost slot) ∧
      ∀ call kind, Call.checked? call = some kind →
        (now.machine.phase.check kind = .ok () ↔ Underway (fresh.answers turns)) ∧
          ((now.perform call).1.Refuses ↔ ¬ Underway (fresh.answers turns)) ∧
          (¬ Underway (fresh.answers turns) → (now.perform call).2 = now) := by
  intro fresh now
  have hfresh : fresh.machine.Coherent := hnew.coherent
  obtain ⟨hc, hphase⟩ := after_coherent hfresh turns
  have hcreated : fresh.machine.phase ≠ .running := by
    rw [show fresh.machine.phase = .created from hnew.phase_eq]
    nofun
  have hunderway : now.machine.phase = .running ↔ Underway (fresh.answers turns) := by
    rw [hphase]
    simp [hcreated]
  refine ⟨fun h hmachine => ?_, hc.bound, perform_finds hc, fun call kind hkind => ?_⟩
  · have hcoherent := hc
    rw [show (fresh.after turns).machine = .hashed h from hmachine] at hcoherent
    exact hcoherent
  · refine ⟨check_eq_ok_iff.trans hunderway, ?_, fun hstill => ?_⟩
    · rw [← hunderway]
      exact refuses_iff hc hkind
    · exact perform_of_not_running hkind fun hrunning => hstill (hunderway.mp hrunning)

/-- Sums by the first two columns. -/
def pairSums : AggregateNode :=
  ⟨.partialOrder 1, [.column 0, .column 1], [⟨.sum, some (.column 2)⟩], none, none,
    ⟨[⟨"k", .int⟩, ⟨"l", .int⟩, ⟨"total", .int⟩]⟩⟩

def pairStore : Store :=
  ⟨#[.unheld (.empty "sums" pairSums.schema)]⟩

/-- A row before the start, a text among the numbers, and a new run while the table is held.  The last
row is of the run before, whose groups are lost by then. -/
def pairTurns : List Turn :=
  [.call (.feed [.int 1, .int 1, .int 5]), .call (.init [] 3 0 0),
    .call (.feed [.int 1, .int 1, .int 5]), .call (.feed [.int 1, .int 2, .text "a"]),
    .call (.others (holdSums .readers)), .call (.feed [.int 2, .int 1, .int 7]),
    .call (.others (holdSums .free)), .call (.feed [.int 1, .int 3, .int 9])]

/-- The end, while the table is held. -/
def pairEnd : List Turn :=
  [.call (.others (holdSums .readers)), .call .finish]

def pairSession : Session :=
  .new pairSums pairStore sumMeters

/-- The aggregation is coherent after these turns.  The end fails but has come, and a row that comes
after it is refused. -/
theorem coherent_between_calls_pairSums :
    Machine.IsNew pairSums pairSession.machine ∧
      (∃ h, (pairSession.after pairTurns).machine = .hashed h ∧ h.Coherent ∧
        h.run = some [.int 1] ∧ h.keys = [[.int 1, .int 3]]) ∧
      pairSession.answers (pairTurns ++ pairEnd) =
        [.fed (.error (.aggregateNotStarted .feed)), .started (.ok [.null, .null, .null]),
          .fed (.ok .more), .fed (.error (.aggregateNotNumeric .sum .text)), .silent,
          .fed (.error .tableHeld), .silent, .fed (.ok .more), .silent,
          .finished (.error .tableHeld)] ∧
      ¬ Underway (pairSession.answers (pairTurns ++ pairEnd)) ∧
      ((pairSession.after (pairTurns ++ pairEnd)).perform (.feed [.int 1, .int 4, .int 1])).2 =
        pairSession.after (pairTurns ++ pairEnd) := by
  have hnew : Machine.IsNew pairSums pairSession.machine := Machine.isNew_ofNode pairSums
  obtain ⟨hduring, -⟩ := coherent_between_calls hnew pairStore sumMeters pairTurns
  obtain ⟨-, -, -, hafter⟩ :=
    coherent_between_calls hnew pairStore sumMeters (pairTurns ++ pairEnd)
  obtain ⟨hpasses, -, hstill⟩ := hafter (.feed [.int 1, .int 4, .int 1]) .feed rfl
  have hidle : ¬ Underway (pairSession.answers (pairTurns ++ pairEnd)) := by
    have hphase : (pairSession.after (pairTurns ++ pairEnd)).machine.phase = .finished := rfl
    intro hunderway
    cases hphase.symm.trans (check_eq_ok_iff.mp (hpasses.mpr hunderway))
  exact ⟨hnew, ⟨_, rfl, hduring _ rfl, rfl, rfl⟩, by decide +kernel, hidle, hstill hidle⟩

end Session

end GraphScan
