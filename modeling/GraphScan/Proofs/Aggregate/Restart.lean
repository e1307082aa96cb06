import GraphScan.Proofs.Aggregate.Sessions

/-!
# Starting again

A start that succeeds leaves nothing of what was before it, however the earlier runs went.

* `Session.Turn`, `Session.turn` — a call, or something that others do to the tables or the meters.
* `Session.after`, `Session.watch` — where a series of turns leads, and what shows on the way.
* `Session.blank_after` — the invariant: the machine was made for the node and nothing else of it
  lasts.
* `Session.init_after` — **a start that succeeds is the first start of a new session**.
* `Session.bound_init_of_error` — a start that fails hands over nothing.
* `Session.get_perform_after` — after a start that succeeds no call writes to any other table, or
  counts on any other meter.
-/

namespace GraphScan

namespace Session

/-! ## Turns -/

/-- **A turn in the life of a session**: a call, or something that others do to the meters.  They count
on them, and there may be new ones. -/
inductive Turn where
  | call (call : Call)
  | meters (change : Meters → Meters)

def turn (session : Session) : Turn → Answer × Session
  | .call call => session.perform call
  | .meters change => (.silent, { session with meters := change session.meters })

/-- The session after some turns, whatever the answers were. -/
def after (session : Session) : List Turn → Session
  | [] => session
  | turn :: turns => (session.turn turn).2.after turns

/-- **What shows of a session** turn by turn. -/
def watch (session : Session) : List Turn → List Sight
  | [] => []
  | turn :: turns =>
    let (answer, session) := session.turn turn
    ⟨answer, session.store, session.meters⟩ :: session.watch turns

/-- A call that starts a run on a table and a meter of some kind, successfully or not. -/
def Call.Starts (uses : Binding → Prop) : Call → Prop
  | .init _ _ table meter => uses ⟨table, meter⟩
  | _ => False

def Turn.Starts (uses : Binding → Prop) : Turn → Prop
  | .call made => made.Starts uses
  | .meters _ => False

/-- The calls of the session's own client. -/
def Call.IsOwn : Call → Prop
  | .others _ => False
  | _ => True

/-! ## What lasts -/

@[simp] theorem machine_settle (session : Session) (machine : Machine) (outlet : Outlet) :
    (session.settle machine outlet).machine = machine := rfl

@[simp] theorem bound_settle (session : Session) (machine : Machine) (outlet : Outlet) :
    (session.settle machine outlet).bound = session.bound := rfl

/-- What a machine leaves as it was is written back without a change. -/
theorem settle_outlet (session : Session) :
    session.settle session.machine session.outlet = session := by
  obtain ⟨machine, store, bound, meters⟩ := session
  cases bound with
  | none => rfl
  | some binding => simp only [settle, outlet, Store.set_get, Meters.set_get]

/-- No start changes what the machine was made as. -/
theorem blank_init (session : Session) (params : List Value) (width : Nat) (table : TableId)
    (meter : MeterId) :
    (session.init params width table meter).2.machine.blank = session.machine.blank := by
  have hblank := session.machine.blank_init params width
  rw [init]
  rcases hinit : session.machine.init params width with ⟨_ | _, machine⟩ <;>
    rw [hinit] at hblank <;> exact hblank

/-- **No turn does.** -/
theorem blank_turn (session : Session) (turn : Turn) :
    (session.turn turn).2.machine.blank = session.machine.blank := by
  match turn with
  | .call (.init params width table meter) => exact session.blank_init params width table meter
  | .call (.feed row) => exact session.machine.blank_feed row session.outlet
  | .call .finish => exact session.machine.blank_finish session.outlet
  | .call (.others change) => rfl
  | .meters change => rfl

theorem blank_after (session : Session) (turns : List Turn) :
    (session.after turns).machine.blank = session.machine.blank := by
  induction turns generalizing session with
  | nil => rfl
  | cons turn turns ih => rw [after, ih, blank_turn]

/-! ## A new start -/

variable {session : Session} {params : List Value} {width : Nat} {table : TableId} {meter : MeterId}
  {scratch : Row}

/-- A start that succeeds binds the session to its table and its meter. -/
theorem bound_init (hok : (session.init params width table meter).1 = .ok scratch) :
    (session.init params width table meter).2.bound = some ⟨table, meter⟩ := by
  rw [init] at hok ⊢
  rcases hinit : session.machine.init params width with ⟨_ | _, machine⟩
  · rw [hinit] at hok
    cases hok
  · rfl

/-- **A start that fails hands over nothing**: what the session writes and counts goes where it went
before. -/
theorem bound_init_of_error {e : EngineError}
    (herror : (session.init params width table meter).1 = .error e) :
    (session.init params width table meter).2.bound = session.bound := by
  rw [init] at herror ⊢
  rcases hinit : session.machine.init params width with ⟨_ | _, machine⟩
  · rfl
  · rw [hinit] at herror
    cases herror

/-- **A machine made for a node starts as a new one does**, if it starts. -/
theorem init_eq_new {node : AggregateNode} (hblank : session.machine.blank = .ofNode node)
    (hok : (session.init params width table meter).1 = .ok scratch) :
    session.init params width table meter =
      (Session.new node session.store session.meters).init params width table meter := by
  have hstarted : (session.machine.init params width).1 = .ok scratch := by
    rw [init] at hok
    rcases hinit : session.machine.init params width with ⟨_ | _, machine⟩ <;>
      rw [hinit] at hok <;> exact hok
  have hsame : (Machine.ofNode node).init params width = session.machine.init params width := by
    rw [← hblank]
    exact Machine.init_blank_of_ok hstarted
  rcases hinit : session.machine.init params width with ⟨_ | _, machine⟩
  · rw [hinit] at hstarted
    cases hstarted
  · simp only [init, Session.new, hsame, hinit]

/-- **A start that succeeds erases all history**: it answers as the first start of a new session on
the same tables and meters, and leaves what that one leaves. -/
theorem init_after (node : AggregateNode) (store : Store) (meters : Meters) (history : List Turn) :
    let used := (Session.new node store meters).after history
    (used.init params width table meter).1 = .ok scratch →
      used.init params width table meter =
        (Session.new node used.store used.meters).init params width table meter := by
  intro used hok
  refine init_eq_new ?_ hok
  rw [show used.machine.blank = _ from blank_after _ history]
  exact Machine.blank_ofNode node

/-! ## Where rows go, and where they are counted -/

variable {uses : Binding → Prop}

/-- A call leaves alone every table and every meter that the session is not bound to. -/
theorem get_perform (session : Session) {call : Call} (hown : call.IsOwn) :
    (∀ id, (∀ binding ∈ session.bound, binding.table ≠ id) →
      (session.perform call).2.store.get id = session.store.get id) ∧
    ∀ id, (∀ binding ∈ session.bound, binding.meter ≠ id) →
      (session.perform call).2.meters.get id = session.meters.get id := by
  have hsettle (machine : Machine) (outlet : Outlet) :
      (∀ id, (∀ binding ∈ session.bound, binding.table ≠ id) →
        (session.settle machine outlet).store.get id = session.store.get id) ∧
      ∀ id, (∀ binding ∈ session.bound, binding.meter ≠ id) →
        (session.settle machine outlet).meters.get id = session.meters.get id := by
    rw [settle]
    cases hbound : session.bound with
    | none => exact ⟨fun _ _ => rfl, fun _ _ => rfl⟩
    | some binding =>
        refine ⟨fun id hne => ?_, fun id hne => ?_⟩
        · rw [Store.get_set]
          exact if_neg fun h => hne binding rfl h.1
        · exact Meters.get_set_of_ne (hne binding rfl) _ _
  cases call with
  | init params width table meter =>
      simp only [perform, init]
      rcases session.machine.init params width with ⟨_ | _, machine⟩ <;>
        exact ⟨fun _ _ => rfl, fun _ _ => rfl⟩
  | feed row => exact hsettle _ _
  | finish => exact hsettle _ _
  | others change => exact hown.elim

/-- A session is bound to a table and a meter only by a start on them. -/
theorem bound_turn (hbound : ∀ binding ∈ session.bound, ¬ uses binding) {turn : Turn}
    (hstarts : ¬ turn.Starts uses) : ∀ binding ∈ (session.turn turn).2.bound, ¬ uses binding := by
  match turn with
  | .call (.init params width table meter) =>
      simp only [Session.turn, perform, init]
      rcases session.machine.init params width with ⟨_ | _, machine⟩
      · exact hbound
      · intro binding hbinding
        rwa [← Option.some.inj hbinding]
  | .call (.feed row) => exact hbound
  | .call .finish => exact hbound
  | .call (.others change) => exact hbound
  | .meters change => exact hbound

theorem bound_after (hbound : ∀ binding ∈ session.bound, ¬ uses binding) {turns : List Turn}
    (hstarts : ∀ turn ∈ turns, ¬ turn.Starts uses) :
    ∀ binding ∈ (session.after turns).bound, ¬ uses binding := by
  induction turns generalizing session with
  | nil => exact hbound
  | cons turn turns ih =>
      rw [List.forall_mem_cons] at hstarts
      exact ih (bound_turn hbound hstarts.1) hstarts.2

/-- **After a start that succeeds no call writes to another table or counts on another meter**, until a
run is started on it. -/
theorem get_perform_after (hok : (session.init params width table meter).1 = .ok scratch)
    {turns : List Turn} {call : Call} (hown : call.IsOwn) :
    let now := (session.init params width table meter).2.after turns
    (∀ id, id ≠ table → (∀ turn ∈ turns, ¬ turn.Starts fun binding => binding.table = id) →
      (now.perform call).2.store.get id = now.store.get id) ∧
    ∀ id, id ≠ meter → (∀ turn ∈ turns, ¬ turn.Starts fun binding => binding.meter = id) →
      (now.perform call).2.meters.get id = now.meters.get id := by
  intro now
  obtain ⟨htables, hmeters⟩ := now.get_perform hown
  have hbound := bound_init hok
  constructor
  · intro id hne hstarts
    refine htables id (bound_after ?_ hstarts)
    rw [hbound]
    rintro binding ⟨⟩
    exact hne.symm
  · intro id hne hstarts
    refine hmeters id (bound_after ?_ hstarts)
    rw [hbound]
    rintro binding ⟨⟩
    exact hne.symm

end Session

end GraphScan
