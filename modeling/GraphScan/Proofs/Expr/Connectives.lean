import GraphScan.Expr.Eval
import Mathlib.Data.List.Perm.Basic

/-!
# The algebra of the connectives

Conjunction and disjunction look at their operands from left to right, stop at the first one that
decides, and remember whether one was null.  None of this shows in what they come to: that is one
operation on the outcomes of the operands, and it is associative.

* `junction` — **the outcome of a conjunction or a disjunction**, from those of its operands.
* `Expr.eval_all`, `Expr.eval_any` — this is what the evaluator computes.
* `junction_eq_not_decisive_iff` — when a conjunction is true, and when a disjunction is false.
* `join_assoc`, `junction_flatten` — a junction among the operands of another may be spread out.
* `negate_junction` — the negation of one is the other, of the negated operands.
* `junction_of_logical` — **what it is in three-valued logic**, where no operand fails.
* `Expr.eval_connectives` — these laws, for expressions.
-/

namespace GraphScan

/-! ## Junctions -/

/-- The connective that is decided by operands of some truth value. -/
def Connective.ofDecisive (decisive : Bool) : Connective :=
  if decisive then .disjunction else .conjunction

/-- What a value of the operands behind a null comes to: only the decisive one stays what it is. -/
def Value.afterNull (decisive : Bool) : Value → Value
  | .bool b => if b = decisive then .bool b else .null
  | value => value

/-- **One more operand in front of others** that come to `rest`. -/
def join (decisive : Bool) (operand rest : Except EngineError Value) : Except EngineError Value :=
  match operand with
  | .error e => .error e
  | .ok (.bool b) => if b = decisive then .ok (.bool b) else rest
  | .ok .null => rest.map (Value.afterNull decisive)
  | .ok other => .error (.notBoolean (.ofDecisive decisive) other.kind)

/-- **The outcome of a conjunction or a disjunction**, from those of its operands.  A conjunction is
decided by an operand that is false, a disjunction by one that is true. -/
def junction (decisive : Bool) (operands : List (Except EngineError Value)) :
    Except EngineError Value :=
  operands.foldr (join decisive) (.ok (.bool !decisive))

/-- **Whether an outcome is a truth value or null.** -/
def IsLogical : Except EngineError Value → Prop
  | .ok (.bool _) | .ok .null => True
  | _ => False

variable {decisive : Bool} {row : Row} {operands : List (Except EngineError Value)}

@[simp] theorem junction_nil : junction decisive [] = .ok (.bool !decisive) := rfl

@[simp] theorem junction_cons (operand : Except EngineError Value)
    (operands : List (Except EngineError Value)) :
    junction decisive (operand :: operands) = join decisive operand (junction decisive operands) :=
  rfl

theorem junction_append (operands others : List (Except EngineError Value)) :
    junction decisive (operands ++ others) =
      operands.foldr (join decisive) (junction decisive others) :=
  List.foldr_append

/-- **A junction gives a truth value or null**, if anything. -/
theorem eq_null_or_bool_of_junction {value : Value} (h : junction decisive operands = .ok value) :
    value = .null ∨ ∃ b, value = .bool b := by
  induction operands generalizing value with
  | nil => exact .inr ⟨!decisive, (Except.ok.inj h).symm⟩
  | cons operand operands ih =>
      rw [junction_cons] at h
      cases operand with
      | error e => cases h
      | ok first =>
          cases first with
          | float | int | text => cases h
          | bool b =>
              by_cases hb : b = decisive
              · simp only [join, if_pos hb] at h
                exact .inr ⟨b, (Except.ok.inj h).symm⟩
              · simp only [join, if_neg hb] at h
                exact ih h
          | null =>
              cases hrest : junction decisive operands with
              | error e => simp [join, hrest, Except.map] at h
              | ok rest =>
                  simp only [join, hrest, Except.map, Except.ok.injEq] at h
                  rw [← h]
                  rcases ih hrest with rfl | ⟨b, rfl⟩
                  · exact .inl rfl
                  · rw [Value.afterNull]
                    split_ifs
                    · exact .inr ⟨b, rfl⟩
                    · exact .inl rfl

/-- **A junction fails as one of its operands does**, or on an operand that is no truth value. -/
theorem junction_error {e : EngineError} (h : junction decisive operands = .error e) :
    .error e ∈ operands ∨ ∃ kind, e = .notBoolean (.ofDecisive decisive) kind := by
  induction operands with
  | nil => cases h
  | cons operand operands ih =>
      have later (hrest : junction decisive operands = .error e) :
          .error e ∈ operand :: operands ∨ ∃ kind, e = .notBoolean (.ofDecisive decisive) kind :=
        (ih hrest).imp_left (List.mem_cons_of_mem _)
      match operand with
      | .error e' =>
          obtain rfl : e' = e := Except.error.inj h
          exact .inl List.mem_cons_self
      | .ok (.bool b) =>
          by_cases hb : b = decisive
          · simp [join, hb] at h
          · simp only [junction_cons, join, if_neg hb] at h
            exact later h
      | .ok .null =>
          cases hrest : junction decisive operands with
          | error e' =>
              simp only [junction_cons, join, hrest, Except.map, Except.error.injEq] at h
              exact later (h ▸ hrest)
          | ok value => simp [join, hrest, Except.map] at h
      | .ok (.float _) | .ok (.int _) | .ok (.text _) =>
          exact .inr ⟨_, (Except.error.inj h).symm⟩

/-- One more operand leaves a junction undecided exactly if it is the other truth value and so is what
the others come to. -/
theorem join_eq_not_decisive_iff {operand rest : Except EngineError Value} :
    join decisive operand rest = .ok (.bool !decisive) ↔
      operand = .ok (.bool !decisive) ∧ rest = .ok (.bool !decisive) := by
  cases operand with
  | error e => simp [join]
  | ok value =>
      cases value with
      | float | int | text => simp [join]
      | bool b =>
          by_cases h : b = decisive
          · simp [join, h]
          · simp [join, Bool.eq_not.mpr h]
      | null =>
          have hnull (value : Value) : value.afterNull decisive ≠ .bool !decisive := by
            cases value with
            | bool b => by_cases h : b = decisive <;> simp [Value.afterNull, h]
            | _ => simp [Value.afterNull]
          cases rest with
          | error e => simp [join, Except.map]
          | ok value => simp [join, Except.map, hnull]

/-- **A junction stays undecided exactly if all its operands are the other truth value**: a conjunction
is true exactly if they are true, also among operands that are null, fail or are no truth values. -/
theorem junction_eq_not_decisive_iff :
    junction decisive operands = .ok (.bool !decisive) ↔
      ∀ operand ∈ operands, operand = .ok (.bool !decisive) := by
  induction operands with
  | nil => simp
  | cons operand operands ih =>
      rw [junction_cons, join_eq_not_decisive_iff, ih, List.forall_mem_cons]

/-- A junction has a value only if its first operand has one. -/
theorem exists_ok_of_junction_cons {operand : Except EngineError Value} {value : Value}
    (h : junction decisive (operand :: operands) = .ok value) : ∃ first, operand = .ok first := by
  cases operand with
  | error e => cases h
  | ok first => exact ⟨first, rfl⟩

/-- Behind the truth value that decides nothing, a junction is what its other operands come to. -/
theorem junction_cons_not_decisive :
    junction decisive (.ok (.bool !decisive) :: operands) = junction decisive operands := by
  cases decisive <;> rfl

/-- A second null changes nothing. -/
@[simp] theorem map_afterNull_map (outcome : Except EngineError Value) :
    (outcome.map (Value.afterNull decisive)).map (Value.afterNull decisive) =
      outcome.map (Value.afterNull decisive) := by
  cases outcome with
  | error e => rfl
  | ok value =>
      cases value with
      | bool b => by_cases h : b = decisive <;> simp [Except.map, Value.afterNull, h]
      | _ => rfl

namespace Expr

/-- **A loop over the operands computes their junction**, if it stops at a decisive one, goes on behind
any other truth value, and remembers a null.  To have seen a null is to have one in front. -/
theorem loop_eq_junction {loop : Bool → List Expr → Except EngineError Value}
    (hnil : ∀ sawNull, loop sawNull [] = .ok (if sawNull then .null else .bool !decisive))
    (hcons : ∀ sawNull part rest, loop sawNull (part :: rest) =
      match part.eval row with
      | .error e => .error e
      | .ok (.bool b) => if b = decisive then .ok (.bool b) else loop sawNull rest
      | .ok .null => loop true rest
      | .ok other => .error (.notBoolean (.ofDecisive decisive) other.kind))
    (sawNull : Bool) (parts : List Expr) :
    loop sawNull parts =
      if sawNull then join decisive (.ok .null) (junction decisive (parts.map (eval row)))
      else junction decisive (parts.map (eval row)) := by
  induction parts generalizing sawNull with
  | nil =>
      rw [hnil]
      cases sawNull <;> simp [join, Except.map, Value.afterNull]
  | cons part parts ih =>
      rw [hcons, List.map_cons, junction_cons]
      cases part.eval row with
      | error e => cases sawNull <;> rfl
      | ok value =>
          cases value with
          | float | int | text => cases sawNull <;> rfl
          | bool b =>
              by_cases hb : b = decisive
              · cases sawNull <;> simp [join, Except.map, Value.afterNull, hb]
              · cases sawNull <;> simp [join, ih, hb]
          | null => cases sawNull <;> simp [join, ih]

theorem evalAll_eq (row : Row) (parts : List Expr) :
    evalAll row false parts = junction false (parts.map (eval row)) := by
  refine loop_eq_junction (fun sawNull => ?_) (fun sawNull part rest => ?_) false parts
  · rw [evalAll]
    rfl
  · rw [evalAll]
    cases part.eval row with
    | error e => rfl
    | ok value =>
        cases value with
        | bool b => cases b <;> rfl
        | _ => rfl

theorem evalAny_eq (row : Row) (parts : List Expr) :
    evalAny row false parts = junction true (parts.map (eval row)) := by
  refine loop_eq_junction (fun sawNull => ?_) (fun sawNull part rest => ?_) false parts
  · rw [evalAny]
    rfl
  · rw [evalAny]
    cases part.eval row with
    | error e => rfl
    | ok value =>
        cases value with
        | bool b => cases b <;> rfl
        | _ => rfl

/-- **A conjunction is a junction** that a false operand decides. -/
theorem eval_all (row : Row) (parts : List Expr) :
    (all parts).eval row = junction false (parts.map (eval row)) := by
  rw [eval, evalAll_eq]

/-- **A disjunction is a junction** that a true operand decides. -/
theorem eval_any (row : Row) (parts : List Expr) :
    (any parts).eval row = junction true (parts.map (eval row)) := by
  rw [eval, evalAny_eq]

theorem eval_not (row : Row) (part : Expr) :
    (not part).eval row = part.eval row >>= Value.negate := by
  rw [eval]

end Expr

/-! ## Flattening -/

/-- **Joining is associative**, whatever the outcomes. -/
theorem join_assoc (first second rest : Except EngineError Value) :
    join decisive (join decisive first second) rest =
      join decisive first (join decisive second rest) := by
  match first with
  | .error _ | .ok (.float _) | .ok (.int _) | .ok (.text _) => rfl
  | .ok (.bool b) =>
      by_cases h : b = decisive
      · simp [join, h]
      · simp [join, h]
  | .ok .null =>
      match second with
      | .error _ | .ok (.float _) | .ok (.int _) | .ok (.text _) => rfl
      | .ok (.bool b) =>
          by_cases h : b = decisive
          · simp [join, Except.map, Value.afterNull, h]
          · simp [join, Except.map, Value.afterNull, h]
      | .ok .null =>
          show rest.map _ = (rest.map _).map _
          rw [map_afterNull_map]

/-- A junction in front of others spreads out.  The induction is on its operands. -/
theorem join_junction (operands : List (Except EngineError Value))
    (rest : Except EngineError Value) :
    join decisive (junction decisive operands) rest = operands.foldr (join decisive) rest := by
  induction operands with
  | nil => cases decisive <;> rfl
  | cons operand operands ih => rw [junction_cons, join_assoc, ih, List.foldr_cons]

/-- **A junction among the operands of another may be spread out.** -/
theorem junction_flatten (first inner last : List (Except EngineError Value)) :
    junction decisive (first ++ [junction decisive inner] ++ last) =
      junction decisive (first ++ inner ++ last) := by
  calc junction decisive (first ++ [junction decisive inner] ++ last)
      = first.foldr (join decisive)
          (join decisive (junction decisive inner) (junction decisive last)) := by
        rw [List.append_assoc, junction_append, List.singleton_append, junction_cons]
    _ = first.foldr (join decisive) (inner.foldr (join decisive) (junction decisive last)) := by
        rw [join_junction]
    _ = junction decisive (first ++ inner ++ last) := by
        rw [List.append_assoc, junction_append, junction_append]

/-! ## Negation -/

/-- **Outcomes that agree** but for the wording of an error: the same value, or errors of the same
kind and origin. -/
def AgreeInClass : Except EngineError Value → Except EngineError Value → Prop
  | .ok a, .ok b => a = b
  | .error d, .error e => d.report.kind = e.report.kind ∧ d.report.origin = e.report.origin
  | _, _ => False

/-- The negation of what follows a null is what the negation of it comes to behind a null. -/
theorem AgreeInClass.afterNull {rest negated : Except EngineError Value}
    (h : AgreeInClass (rest >>= Value.negate) negated) :
    AgreeInClass (rest.map (Value.afterNull decisive) >>= Value.negate)
      (negated.map (Value.afterNull !decisive)) := by
  cases rest with
  | error d =>
      cases negated with
      | error e => exact h
      | ok value => cases h
  | ok value =>
      cases negated with
      | error e =>
          cases value with
          | float | int | text => exact h
          | bool | null => cases h
      | ok found =>
          cases value with
          | float | int | text => cases h
          | null =>
              obtain rfl : .null = found := h
              rfl
          | bool b =>
              obtain rfl : .bool (!b) = found := h
              by_cases hb : b = decisive
              · simp [Except.map, bind, Except.bind, Value.afterNull, Value.negate, AgreeInClass, hb]
              · simp [Except.map, bind, Except.bind, Value.afterNull, Value.negate, AgreeInClass, hb]

theorem AgreeInClass.join (operand : Except EngineError Value)
    {rest negated : Except EngineError Value}
    (h : AgreeInClass (rest >>= Value.negate) negated) :
    AgreeInClass (join decisive operand rest >>= Value.negate)
      (GraphScan.join (!decisive) (operand >>= Value.negate) negated) := by
  match operand with
  | .error _ => exact ⟨rfl, rfl⟩
  | .ok (.float _) | .ok (.int _) | .ok (.text _) => exact ⟨rfl, rfl⟩
  | .ok .null => exact h.afterNull
  | .ok (.bool b) =>
      by_cases hb : b = decisive
      · simp [GraphScan.join, bind, Except.bind, Value.negate, AgreeInClass, hb]
      · simpa [GraphScan.join, Value.negate, bind, Except.bind, hb] using h

/-- **The negation of a junction is the other junction**, of the negated operands. -/
theorem negate_junction (decisive : Bool) (operands : List (Except EngineError Value)) :
    AgreeInClass (junction decisive operands >>= Value.negate)
      (junction (!decisive) (operands.map (· >>= Value.negate))) := by
  induction operands with
  | nil => rfl
  | cons operand operands ih => exact ih.join operand

/-! ## Three-valued logic -/

/-- **In three-valued logic** a junction is decided if some operand is decisive; else it is null if
some operand is. -/
theorem junction_of_logical (h : ∀ operand ∈ operands, IsLogical operand) :
    junction decisive operands =
      .ok (if .ok (.bool decisive) ∈ operands then .bool decisive
        else if .ok .null ∈ operands then .null else .bool !decisive) := by
  induction operands with
  | nil => simp
  | cons operand operands ih =>
      obtain ⟨hfirst, hrest⟩ := List.forall_mem_cons.mp h
      rw [junction_cons, ih hrest]
      cases operand with
      | error e => cases hfirst
      | ok value =>
          cases value with
          | float | int | text => cases hfirst
          | bool b =>
              by_cases hb : b = decisive
              · simp [join, hb]
              · simp [join, hb, Ne.symm hb]
          | null =>
              simp only [join, Except.map, List.mem_cons]
              split_ifs <;> simp_all [Value.afterNull]

/-- **The order of the operands does not matter** there. -/
theorem junction_perm {others : List (Except EngineError Value)}
    (h : ∀ operand ∈ operands, IsLogical operand) (hperm : others.Perm operands) :
    junction decisive others = junction decisive operands := by
  have hothers : ∀ operand ∈ others, IsLogical operand := by
    intro operand hmem
    exact h operand (hperm.mem_iff.mp hmem)
  rw [junction_of_logical h, junction_of_logical hothers]
  simp only [hperm.mem_iff]

/-! ## The laws -/

namespace Expr

/-- **The connectives obey three-valued logic**, on every row and with any number of operands:

* the negation of a conjunction is the disjunction of the negations, up to the wording of an error,
  and the other way round;
* a conjunction within a conjunction may be spread out, and a disjunction within a disjunction,
  whatever their operands come to;
* if every operand is a truth value or null, a conjunction is false if an operand is, else null if one
  is, else true, and a disjunction is true if an operand is, else null if one is, else false.  So the
  order of the operands does not matter. -/
theorem eval_connectives (row : Row) :
    (∀ parts, AgreeInClass ((not (all parts)).eval row) ((any (parts.map not)).eval row)) ∧
      (∀ parts, AgreeInClass ((not (any parts)).eval row) ((all (parts.map not)).eval row)) ∧
      (∀ first inner last,
        (all (first ++ [all inner] ++ last)).eval row = (all (first ++ inner ++ last)).eval row) ∧
      (∀ first inner last,
        (any (first ++ [any inner] ++ last)).eval row = (any (first ++ inner ++ last)).eval row) ∧
      ∀ parts : List Expr, (∀ part ∈ parts, IsLogical (part.eval row)) →
        (all parts).eval row =
          .ok (if ∃ part ∈ parts, part.eval row = .ok (.bool false) then .bool false
            else if ∃ part ∈ parts, part.eval row = .ok .null then .null else .bool true) ∧
        (any parts).eval row =
          .ok (if ∃ part ∈ parts, part.eval row = .ok (.bool true) then .bool true
            else if ∃ part ∈ parts, part.eval row = .ok .null then .null else .bool false) ∧
        ∀ others : List Expr, others.Perm parts →
          (all others).eval row = (all parts).eval row ∧
            (any others).eval row = (any parts).eval row := by
  have hnegated (parts : List Expr) :
      (parts.map not).map (eval row) = (parts.map (eval row)).map (· >>= Value.negate) := by
    simp [Function.comp_def, eval_not]
  refine ⟨?_, ?_, ?_, ?_, ?_⟩
  · intro parts
    rw [eval_not, eval_all, eval_any, hnegated]
    exact negate_junction false _
  · intro parts
    rw [eval_not, eval_any, eval_all, hnegated]
    exact negate_junction true _
  · intro first inner last
    simp only [eval_all, List.map_append, List.map_cons, List.map_nil, junction_flatten]
  · intro first inner last
    simp only [eval_any, List.map_append, List.map_cons, List.map_nil, junction_flatten]
  · intro parts hlogical
    have hoperands : ∀ operand ∈ parts.map (eval row), IsLogical operand :=
      List.forall_mem_map.mpr hlogical
    refine ⟨?_, ?_, ?_⟩
    · rw [eval_all, junction_of_logical hoperands]
      simp only [List.mem_map, Bool.not_false]
    · rw [eval_any, junction_of_logical hoperands]
      simp only [List.mem_map, Bool.not_true]
    · intro others hperm
      rw [eval_all, eval_all, eval_any, eval_any]
      exact ⟨junction_perm hoperands (hperm.map _), junction_perm hoperands (hperm.map _)⟩

/-- An unknown age, and one that is at least 18. -/
def ageTests : List Expr :=
  [.compare .gte (.column 0) (.constant (.int 18)), .compare .gte (.column 1) (.constant (.int 18))]

/-- The age that is known decides the disjunction from either place, and the unknown one makes the
conjunction null.  A number is no operand: the two forms of a negation say so in different words. -/
theorem eval_connectives_ageTests :
    let row : Row := [.null, .int 20]
    (∀ part ∈ ageTests, IsLogical (part.eval row)) ∧
      (all ageTests).eval row = .ok .null ∧ (all ageTests.reverse).eval row = .ok .null ∧
      (any ageTests).eval row = .ok (.bool true) ∧
      (any ageTests.reverse).eval row = .ok (.bool true) ∧
      (not (all [.column 1])).eval row = .error (.notBoolean .conjunction .int) ∧
      (any [not (.column 1)]).eval row = .error (.notBoolean .negation .int) ∧
      AgreeInClass ((not (all [.column 1])).eval row) ((any [not (.column 1)]).eval row) := by
  intro row
  obtain ⟨hnegation, -, -, -, hlogic⟩ := eval_connectives row
  have hlogical : ∀ part ∈ ageTests, IsLogical (part.eval row) :=
    List.forall_mem_cons.mpr ⟨trivial, List.forall_mem_cons.mpr ⟨trivial, by simp⟩⟩
  obtain ⟨hall, hany, hperm⟩ := hlogic ageTests hlogical
  obtain ⟨hallReverse, hanyReverse⟩ := hperm ageTests.reverse (List.reverse_perm ageTests)
  have hunknown : (all ageTests).eval row = .ok .null := hall.trans (by decide)
  have hknown : (any ageTests).eval row = .ok (.bool true) := hany.trans (by decide)
  exact ⟨hlogical, hunknown, hallReverse.trans hunknown, hknown, hanyReverse.trans hknown, rfl, rfl,
    hnegation [.column 1]⟩

end Expr

end GraphScan
