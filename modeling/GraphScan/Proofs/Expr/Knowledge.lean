import GraphScan.Gate
import GraphScan.Proofs.Expr.Connectives

/-!
# Learning what was unknown

A null stands for an unknown value.  What an expression says of a row with unknown cells it goes on to
say when some of them become known, unless it fails then; only a test for null can tell the
difference.

* `Row.LearntTo` — a row of which some null cells have been filled in.
* `Expr.NullBlind` — **an expression without a test for null**.
* `Stays` — an outcome that stays as it is, as far as it was known.  `Stays.strict` and
  `Stays.junction` compose such outcomes.
* `Expr.eval_learnt` — **what is known of a row stays when more is learnt**.
-/

namespace GraphScan

/-! ## More knowledge -/

/-- **A row of which some null cells have been filled in**, with any values; the others are as before. -/
def Row.LearntTo (row later : Row) : Prop :=
  List.Forall₂ (fun before after => before = Value.null ∨ after = before) row later

/-- **An expression without a test for null.** -/
inductive Expr.NullBlind : Expr → Prop where
  | column (index : Nat) : NullBlind (.column index)
  | constant (value : Value) : NullBlind (.constant value)
  | compare (op : CompareOp) {left right : Expr} (hleft : NullBlind left)
      (hright : NullBlind right) : NullBlind (.compare op left right)
  | arith (op : ArithOp) {left right : Expr} (hleft : NullBlind left) (hright : NullBlind right) :
      NullBlind (.arith op left right)
  | all {parts : List Expr} (h : ∀ part ∈ parts, NullBlind part) : NullBlind (.all parts)
  | any {parts : List Expr} (h : ∀ part ∈ parts, NullBlind part) : NullBlind (.any parts)
  | not {part : Expr} (h : NullBlind part) : NullBlind (.not part)

/-- **An outcome that stays** when more is learnt: a value other than null remains what it is, or gives
way to an error. -/
def Stays (before after : Except EngineError Value) : Prop :=
  ∀ value, before = .ok value → value ≠ .null → after = .ok value ∨ ∃ e, after = .error e

namespace Stays

variable {before after first second : Except EngineError Value}

theorem refl (outcome : Except EngineError Value) : Stays outcome outcome :=
  fun _ h _ => .inl h

/-- Nothing is promised of what was not known. -/
theorem of_null (after : Except EngineError Value) : Stays (.ok .null) after := by
  intro value h hne
  exact absurd (Except.ok.inj h).symm hne

theorem bind {f g : Value → Except EngineError Value} (h : Stays before after)
    (hnull : ∀ value, f .null = .ok value → value = .null)
    (hnext : ∀ value, Stays (f value) (g value)) : Stays (before >>= f) (after >>= g) := by
  intro value hvalue hne
  cases before with
  | error e => cases hvalue
  | ok operand =>
      have hknown : operand ≠ .null := by
        rintro rfl
        exact hne (hnull value hvalue)
      rcases h operand rfl hknown with rfl | ⟨e, rfl⟩
      · exact hnext operand value hvalue hne
      · exact .inr ⟨e, rfl⟩

/-- **An operator that is null as soon as a side is** keeps what is known. -/
theorem strict {op : Value → Value → Except EngineError Value}
    (hleft : ∀ right, op .null right = .ok .null) (hright : ∀ left, op left .null = .ok .null)
    (hfirst : Stays before after) (hsecond : Stays first second) :
    Stays (before >>= fun a => first >>= op a) (after >>= fun a => second >>= op a) := by
  refine hfirst.bind ?_ ?_
  · intro value hvalue
    cases first with
    | error e => cases hvalue
    | ok right =>
        have heq : op .null right = .ok value := hvalue
        rw [hleft, Except.ok.injEq] at heq
        exact heq.symm
  · intro left
    refine hsecond.bind ?_ fun right => .refl _
    intro value hvalue
    rw [hright, Except.ok.injEq] at hvalue
    exact hvalue.symm

end Stays

/-! ## Junctions -/

section Junctions

variable {decisive : Bool} {operands others : List (Except EngineError Value)}

/-- Behind a null a junction is known only if it is decided. -/
theorem decided_of_null {value : Value}
    (h : join decisive (.ok .null) (junction decisive operands) = .ok value)
    (hne : value ≠ .null) :
    value = .bool decisive ∧ junction decisive operands = .ok (.bool decisive) := by
  cases hrest : junction decisive operands with
  | error e => simp [join, hrest, Except.map] at h
  | ok rest =>
      simp only [join, hrest, Except.map, Except.ok.injEq] at h
      rcases eq_null_or_bool_of_junction hrest with rfl | ⟨b, rfl⟩
      · exact absurd h.symm hne
      · by_cases hb : b = decisive
        · rw [Value.afterNull, if_pos hb] at h
          rw [← h, hb]
          exact ⟨rfl, rfl⟩
        · rw [Value.afterNull, if_neg hb] at h
          exact absurd h.symm hne

/-- What is decided stays so behind any operand, unless that fails. -/
theorem join_of_decided {rest : Except EngineError Value}
    (h : rest = .ok (.bool decisive) ∨ ∃ e, rest = .error e) (operand : Except EngineError Value) :
    join decisive operand rest = .ok (.bool decisive) ∨
      ∃ e, join decisive operand rest = .error e := by
  cases operand with
  | error e => exact .inr ⟨e, rfl⟩
  | ok value =>
      cases value with
      | float | int | text => exact .inr ⟨_, rfl⟩
      | bool b =>
          by_cases hb : b = decisive
          · exact .inl (by simp [join, hb])
          · simpa only [join, if_neg hb] using h
      | null =>
          rcases h with rfl | ⟨e, rfl⟩
          · exact .inl (by simp [join, Except.map, Value.afterNull])
          · exact .inr ⟨e, rfl⟩

/-- **A junction stays**: what was null may decide it now, but only as it was decided before. -/
theorem Stays.junction (h : List.Forall₂ Stays operands others) :
    Stays (junction decisive operands) (junction decisive others) := by
  induction h with
  | nil => exact .refl _
  | @cons operand other operands others hoperand hrest ih =>
      rw [junction_cons, junction_cons]
      intro value hvalue hne
      cases operand with
      | error e => cases hvalue
      | ok before =>
          cases before with
          | float | int | text => cases hvalue
          | bool b =>
              rcases hoperand (.bool b) rfl (by simp) with rfl | ⟨e, rfl⟩
              · by_cases hb : b = decisive
                · simp only [join, if_pos hb] at hvalue ⊢
                  exact .inl hvalue
                · simp only [join, if_neg hb] at hvalue ⊢
                  exact ih value hvalue hne
              · exact .inr ⟨e, rfl⟩
          | null =>
              obtain ⟨rfl, hdecided⟩ := decided_of_null hvalue hne
              exact join_of_decided (ih _ hdecided hne) other

end Junctions

/-! ## Expressions -/

namespace Value

theorem compareBy_null_left (op : CompareOp) (right : Value) : compareBy op .null right = .ok .null :=
  rfl

theorem compareBy_null_right (op : CompareOp) (left : Value) :
    compareBy op left .null = .ok .null := by
  simp [compareBy, isNull]

theorem arith_null_left (op : ArithOp) (right : Value) : arith op .null right = .ok .null := by
  unfold arith
  rfl

theorem arith_null_right (op : ArithOp) (left : Value) : arith op left .null = .ok .null := by
  unfold arith
  simp [isNull]

end Value

namespace Expr

variable {row later : Row} {expr : Expr}

theorem stays_column (h : row.LearntTo later) (index : Nat) :
    Stays ((column index).eval row) ((column index).eval later) := by
  obtain ⟨hlength, hcell⟩ := List.forall₂_iff_get.mp h
  rw [eval, eval]
  by_cases hlt : index < row.length
  · have hlater : index < later.length := hlength ▸ hlt
    rw [List.getElem?_eq_getElem hlt, List.getElem?_eq_getElem hlater]
    show Stays (.ok row[index]) (.ok later[index])
    rcases hcell index hlt hlater with hnull | hsame
    · rw [List.get_eq_getElem] at hnull
      rw [hnull]
      exact .of_null _
    · simp only [List.get_eq_getElem] at hsame
      rw [hsame]
      exact .refl _
  · rw [List.getElem?_eq_none (Nat.le_of_not_lt hlt)]
    intro value hvalue
    cases hvalue

/-- **An outcome stays when more is learnt** of the row. -/
theorem eval_stays (h : row.LearntTo later) (hblind : expr.NullBlind) :
    Stays (expr.eval row) (expr.eval later) := by
  have operands {parts : List Expr}
      (hparts : ∀ part ∈ parts, Stays (part.eval row) (part.eval later)) :
      List.Forall₂ Stays (parts.map (eval row)) (parts.map (eval later)) := by
    rw [List.forall₂_map_left_iff, List.forall₂_map_right_iff]
    exact List.forall₂_same.mpr hparts
  induction hblind with
  | column index => exact stays_column h index
  | constant value =>
      rw [eval, eval]
      exact .refl _
  | compare op _ _ hleft hright =>
      rw [eval, eval]
      exact .strict (Value.compareBy_null_left op) (Value.compareBy_null_right op) hleft hright
  | arith op _ _ hleft hright =>
      rw [eval, eval]
      exact .strict (Value.arith_null_left op) (Value.arith_null_right op) hleft hright
  | all _ hparts =>
      rw [eval_all, eval_all]
      exact .junction (operands hparts)
  | any _ hparts =>
      rw [eval_any, eval_any]
      exact .junction (operands hparts)
  | not _ hpart =>
      rw [eval_not, eval_not]
      refine hpart.bind ?_ fun value => .refl _
      intro value hvalue
      exact (Except.ok.inj hvalue).symm

/-- A filter that takes a row has found it true. -/
theorem eval_of_isMatch {gate : Gate} {row : Row} {matched : Bool}
    (hpredicate : gate.predicate = some expr) (h : gate.isMatch row = .ok matched) :
    ∃ value, expr.eval row = .ok value ∧ value.isTrue = matched := by
  rw [Gate.isMatch, hpredicate] at h
  cases heval : expr.eval row with
  | error e => simp [heval, bind, Except.bind] at h
  | ok value =>
      simp only [heval, bind, Except.bind, Except.ok.injEq] at h
      exact ⟨value, rfl, h⟩

/-- **What is known of a row stays when more is learnt.**  Let an expression without a test for null
have a value other than null on a row.  When null cells of the row are filled in, with whatever values,
it has the same value or fails.  In particular a filter that takes the row will not reject it then, and
one that is false there will not take it. -/
theorem eval_learnt (h : row.LearntTo later) (hblind : expr.NullBlind) :
    (∀ value, expr.eval row = .ok value → value ≠ .null →
      expr.eval later = .ok value ∨ ∃ e, expr.eval later = .error e) ∧
    ∀ gate : Gate, gate.predicate = some expr →
      (gate.isMatch row = .ok true → gate.isMatch later ≠ .ok false) ∧
      (expr.eval row = .ok (.bool false) → gate.isMatch later ≠ .ok true) := by
  have hstays := eval_stays h hblind
  refine ⟨hstays, ?_⟩
  intro gate hpredicate
  have reversed {b : Bool} (hbefore : expr.eval row = .ok (.bool b)) :
      gate.isMatch later ≠ .ok !b := by
    intro hafter
    obtain ⟨value, hvalue, htrue⟩ := eval_of_isMatch hpredicate hafter
    rcases hstays (.bool b) hbefore (by simp) with hsame | ⟨e, herror⟩
    · rw [hvalue, Except.ok.injEq] at hsame
      subst hsame
      cases b <;> cases htrue
    · rw [hvalue] at herror
      cases herror
  constructor
  · intro hmatch
    obtain ⟨value, hvalue, htrue⟩ := eval_of_isMatch hpredicate hmatch
    match value with
    | .bool true => exact reversed hvalue
  · exact reversed

/-- Of two ages one is not known, and whichever is at least 18 will do.  Learning that the other is 15
changes nothing; learning that it is a text makes the test fail. -/
theorem eval_learnt_ageTests :
    let row : Row := [.null, .int 20]
    row.LearntTo [.int 15, .int 20] ∧ row.LearntTo [.text "x", .int 20] ∧
      (any ageTests).NullBlind ∧ (any ageTests).eval row = .ok (.bool true) ∧
      ((any ageTests).eval [.int 15, .int 20] = .ok (.bool true) ∨
        ∃ e, (any ageTests).eval [.int 15, .int 20] = .error e) ∧
      (any ageTests).eval [.int 15, .int 20] = .ok (.bool true) ∧
      (any ageTests).eval [.text "x", .int 20] = .error (.incomparable .text .int) := by
  intro row
  have hfirst : row.LearntTo [.int 15, .int 20] := .cons (.inl rfl) (.cons (.inr rfl) .nil)
  have hsecond : row.LearntTo [.text "x", .int 20] := .cons (.inl rfl) (.cons (.inr rfl) .nil)
  have hblind : (any ageTests).NullBlind := by
    refine .any fun part hpart => ?_
    simp only [ageTests, List.mem_cons, List.not_mem_nil, or_false] at hpart
    rcases hpart with rfl | rfl <;> exact .compare _ (.column _) (.constant _)
  have hknown : (any ageTests).eval row = .ok (.bool true) := rfl
  exact ⟨hfirst, hsecond, hblind, hknown,
    (eval_learnt hfirst hblind).1 (.bool true) hknown (by simp), rfl, rfl⟩

/-- A test for null does tell the difference. -/
example : (isNull (column 0)).eval [.null] = .ok (.bool true) ∧
    (isNull (column 0)).eval [.int 15] = .ok (.bool false) :=
  ⟨rfl, rfl⟩

end Expr

end GraphScan
