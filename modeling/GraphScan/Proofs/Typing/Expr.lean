import GraphScan.Aggregate.Group
import GraphScan.Proofs.Expr.Connectives
import GraphScan.Proofs.Table.Fit

/-!
# Types of expressions

An expression has a static type over the columns of the rows that it is evaluated on.  A type says
which values may occur besides null; no type at all says that there are none.

* `Layout` — the types of the columns of a row.
* `Expr.typeIn` — **the static type of an expression**.
* `Expr.InRange` — whether an expression names only columns that there are.
* `EngineError.OfData` — an error that is owed to the data: neither the plan nor a missing object is
  at fault.
* `Expr.Fault` — **what an expression can fail with**: an operator that does not take its operands, or
  a column that there is not.
* `Expr.eval_meets` — **an expression evaluates to a value of its static type**, or fails with one of
  its faults.
* `Expr.eval_sound` — hence one in range fails for the data's sake only.

`Meets` and `Sound` are what an evaluation promises; `Meets.bind` and `Sound.bind` compose such
promises.
-/

namespace GraphScan

variable {α β : Type}

/-! ## Errors owed to the data -/

/-- **Whether an error is owed to the data**: a parameter or an operand was out of range, or of a kind
that the operation does not support. -/
def EngineError.OfData (e : EngineError) : Prop :=
  e.report.kind = .invalidParameter ∨ e.report.kind = .unsupported

/-- **What a sound evaluation comes to**: a value with a property, or an error owed to the data. -/
def Sound (P : α → Prop) : Except EngineError α → Prop
  | .ok value => P value
  | .error e => e.OfData

/-- **What an outcome comes to**: a value with one property, or an error with another. -/
def Meets (P : α → Prop) (E : EngineError → Prop) : Except EngineError α → Prop
  | .ok value => P value
  | .error e => E e

namespace Meets

variable {P : α → Prop} {Q : β → Prop} {E F : EngineError → Prop} {outcome : Except EngineError α}

theorem bind {next : α → Except EngineError β} (h : Meets P E outcome)
    (hnext : ∀ value, P value → Meets Q E (next value)) : Meets Q E (outcome >>= next) := by
  cases outcome with
  | error e => exact h
  | ok value => exact hnext value h

theorem error_mono (h : Meets P E outcome) (hsub : ∀ e, E e → F e) : Meets P F outcome := by
  cases outcome with
  | error e => exact hsub e h
  | ok value => exact h

theorem sound (h : Meets P E outcome) (hsub : ∀ e, E e → e.OfData) : Sound P outcome := by
  cases outcome with
  | error e => exact hsub e h
  | ok value => exact h

end Meets

namespace Sound

theorem mono {P Q : α → Prop} {outcome : Except EngineError α} (h : Sound P outcome)
    (hsub : ∀ value, P value → Q value) : Sound Q outcome := by
  cases outcome with
  | error e => exact h
  | ok value => exact hsub value h

theorem bind {P : α → Prop} {Q : β → Prop} {outcome : Except EngineError α}
    {next : α → Except EngineError β} (h : Sound P outcome)
    (hnext : ∀ value, P value → Sound Q (next value)) : Sound Q (outcome >>= next) := by
  cases outcome with
  | error e => exact h
  | ok value => exact hnext value h

theorem map {P : α → Prop} {Q : β → Prop} {outcome : Except EngineError α} {f : α → β}
    (h : Sound P outcome) (hf : ∀ value, P value → Q (f value)) : Sound Q (outcome.map f) := by
  cases outcome with
  | error e => exact h
  | ok value => exact hf value h

theorem of_error {P : α → Prop} {outcome : Except EngineError α} {e : EngineError}
    (h : Sound P outcome) (herror : outcome = .error e) : e.OfData := by
  rwa [herror] at h

theorem of_ok {P : α → Prop} {outcome : Except EngineError α} {value : α} (h : Sound P outcome)
    (hok : outcome = .ok value) : P value := by
  rwa [hok] at h

end Sound

/-! ## Values and rows of a type -/

/-- **Whether a value conforms to a static type**: the type accepts it or, without one, it is null. -/
def Value.Conforms (value : Value) : Option ColumnType → Prop
  | some type => type.accepts value = true
  | none => value = .null

/-- **The types of the columns of a row**, as far as they have one. -/
abbrev Layout := List (Option ColumnType)

/-- A row conforms to a layout if it has a value for each column, which conforms to its type. -/
def Row.Conforms (row : Row) (layout : Layout) : Prop :=
  List.Forall₂ (fun type value => Value.Conforms value type) layout row

def Schema.layout (schema : Schema) : Layout :=
  schema.columns.map fun column => some column.type

@[simp] theorem Schema.length_layout (schema : Schema) : schema.layout.length = schema.width := by
  simp [layout, width]

/-- A row conforms to the layout of a schema exactly if it fits the schema. -/
theorem Row.conforms_layout_iff {schema : Schema} {row : Row} :
    row.Conforms schema.layout ↔ schema.Fits row := by
  rw [Row.Conforms, Schema.layout, List.forall₂_map_left_iff]
  rfl

namespace Value

/-- The type of a value; null has none. -/
def type? : Value → Option ColumnType
  | .bool _ => some .bool
  | .float _ => some .float
  | .int _ => some .int
  | .null => none
  | .text _ => some .text

/-- A value that is not null conforms to its own type and to no other. -/
theorem conforms_iff {value : Value} {type : Option ColumnType} :
    value.Conforms type ↔ value = .null ∨ type = value.type? := by
  cases value <;> rcases type with _ | _ | _ | _ | _ <;>
    simp [Conforms, type?, ColumnType.accepts, isNull, kind, ColumnType.kind]

@[simp] theorem conforms_null (type : Option ColumnType) : Value.null.Conforms type := by
  cases type <;> rfl

@[simp] theorem conforms_bool (b : Bool) : (Value.bool b).Conforms (some .bool) := rfl

@[simp] theorem conforms_int (n : Int64) : (Value.int n).Conforms (some .int) := rfl

@[simp] theorem conforms_float (x : Binary64) : (Value.float x).Conforms (some .float) := rfl

end Value

/-- Every row conforms to the types of its own values. -/
theorem Row.conforms_types (row : Row) : row.Conforms (row.map Value.type?) := by
  rw [Row.Conforms, List.forall₂_map_left_iff, List.forall₂_same]
  intro value _
  exact Value.conforms_iff.mpr (.inr rfl)

/-! ## Static types -/

namespace Expr

/-- The type of an arithmetic expression: integers stay integers, and null stays null. -/
def arithType : Option ColumnType → Option ColumnType → Option ColumnType
  | some .int, some .int => some .int
  | some _, some _ => some .float
  | _, _ => none

/-- **The static type of an expression** over the columns of a row. -/
def typeIn (layout : Layout) : Expr → Option ColumnType
  | .column index => (layout[index]?).join
  | .constant value => value.type?
  | .arith _ left right => arithType (left.typeIn layout) (right.typeIn layout)
  | .compare _ _ _ | .all _ | .any _ | .not _ | .isNull _ => some .bool

mutual

/-- **Whether an expression names only columns of a row** of some width. -/
def InRange (width : Nat) : Expr → Prop
  | .column index => index < width
  | .constant _ => True
  | .compare _ left right | .arith _ left right => left.InRange width ∧ right.InRange width
  | .all parts | .any parts => EachInRange width parts
  | .not part | .isNull part => part.InRange width

def EachInRange (width : Nat) : List Expr → Prop
  | [] => True
  | part :: parts => part.InRange width ∧ EachInRange width parts

end

theorem eachInRange_iff {width : Nat} {parts : List Expr} :
    EachInRange width parts ↔ ∀ part ∈ parts, part.InRange width := by
  induction parts with
  | nil => simp [EachInRange]
  | cons part parts ih => rw [EachInRange, ih, List.forall_mem_cons]

end Expr

/-! ## Faults -/

/-- **Whether an error is that of an operator** which does not take its operands. -/
def EngineError.isOperand : EngineError → Bool
  | .incomparable _ _ | .divisionByZero | .integerOverflow _ _ _ => true
  | .arithmeticUndefined _ _ _ | .notBoolean _ _ => true
  | _ => false

/-- Such an error comes from an expression, and is owed to the data. -/
theorem EngineError.ofData_of_isOperand {e : EngineError} (h : e.isOperand = true) :
    e.report.origin = .expression ∧ e.OfData := by
  cases e with
  | divisionByZero | integerOverflow => exact ⟨rfl, .inl rfl⟩
  | incomparable | arithmeticUndefined | notBoolean => exact ⟨rfl, .inr rfl⟩
  | _ => cases h

/-- **What an expression can fail with** on rows of some width. -/
inductive Expr.Fault (expr : Expr) (width : Nat) : EngineError → Prop where
  | operand {e : EngineError} (h : e.isOperand = true) : Fault expr width e
  | column (index : Nat) (h : ¬ expr.InRange width) :
      Fault expr width (.columnOutOfRange index width)

namespace Expr.Fault

variable {expr part : Expr} {width : Nat} {e : EngineError}

theorem of_part (h : part.Fault width e) (hpart : expr.InRange width → part.InRange width) :
    expr.Fault width e := by
  cases h with
  | operand h => exact .operand h
  | column index h => exact .column index (mt hpart h)

theorem isOperand (h : expr.Fault width e) (hrange : expr.InRange width) : e.isOperand = true := by
  cases h with
  | operand h => exact h
  | column index h => exact absurd hrange h

end Expr.Fault

/-! ## Operators -/

namespace Value

/-- A comparison gives a truth value or null, or its operands have no order. -/
theorem compareBy_meets (op : CompareOp) (left right : Value) :
    Meets (fun value => value.Conforms (some .bool)) (fun e => e.isOperand = true)
      (compareBy op left right) := by
  rw [compareBy]
  split_ifs
  · exact conforms_null (some .bool)
  · cases left.compare? right with
    | none => rfl
    | some order => exact conforms_bool _

theorem negate_meets (value : Value) :
    Meets (fun value => value.Conforms (some .bool)) (fun e => e.isOperand = true)
      value.negate := by
  cases value with
  | bool b => exact conforms_bool _
  | null => exact conforms_null (some .bool)
  | float x | int n | text s => rfl

/-- An operation on integers gives an integer, or its result is out of range. -/
theorem intArith_meets (op : ArithOp) (a b : Int64) :
    Meets (fun value => value.Conforms (some .int)) (fun e => e.isOperand = true)
      (intArith op a b) := by
  rw [intArith]
  split_ifs
  · rfl
  · cases Integer.fit? (exactArith op a.toInt b.toInt) with
    | none => rfl
    | some n => exact conforms_int _

/-- Arithmetic gives a value of the type of its operands, or they do not support it. -/
theorem arith_meets (op : ArithOp) {left right : Value} {first second : Option ColumnType}
    (hleft : left.Conforms first) (hright : right.Conforms second) :
    Meets (fun value => value.Conforms (Expr.arithType first second))
      (fun e => e.isOperand = true) (arith op left right) := by
  unfold arith
  split_ifs with hnull
  · exact conforms_null (Expr.arithType first second)
  · rw [Bool.or_eq_true, not_or] at hnull
    obtain rfl : first = left.type? :=
      (conforms_iff.mp hleft).resolve_left fun h => hnull.1 (by rw [h]; rfl)
    obtain rfl : second = right.type? :=
      (conforms_iff.mp hright).resolve_left fun h => hnull.2 (by rw [h]; rfl)
    match left, right with
    | .int a, .int b => exact intArith_meets op a b
    | .int _, .float _ | .float _, .int _ | .float _, .float _ => exact conforms_float _
    | .bool _, _ | .text _, _ => rfl
    | .int _, .bool _ | .int _, .text _ | .float _, .bool _ | .float _, .text _ => rfl
    | .null, _ => exact absurd rfl hnull.1
    | _, .null => exact absurd rfl hnull.2

end Value

/-- A junction gives a truth value or null, or fails as one of its operands does. -/
theorem junction_meets {decisive : Bool} {operands : List (Except EngineError Value)}
    {E : EngineError → Prop} (hoperand : ∀ e, e.isOperand = true → E e)
    (h : ∀ e, .error e ∈ operands → E e) :
    Meets (fun value => value.Conforms (some .bool)) E (junction decisive operands) := by
  cases hjunction : junction decisive operands with
  | error e =>
      rcases junction_error hjunction with hmem | ⟨kind, rfl⟩
      · exact h e hmem
      · exact hoperand _ rfl
  | ok value =>
      rcases eq_null_or_bool_of_junction hjunction with rfl | ⟨b, rfl⟩
      · exact Value.conforms_null (some .bool)
      · exact Value.conforms_bool b

/-! ## Expressions -/

namespace Expr

variable {layout : Layout} {row : Row}

/-- **An expression evaluates to a value of its static type**, or fails with one of its faults. -/
theorem eval_meets (hrow : row.Conforms layout) (expr : Expr) :
    Meets (fun value => value.Conforms (expr.typeIn layout)) (expr.Fault layout.length)
      (expr.eval row) := by
  -- The faults of the parts of a connective, for both of them.
  have parts_fault {expr : Expr} {parts : List Expr}
      (hparts : expr.InRange layout.length → EachInRange layout.length parts)
      (ih : ∀ part ∈ parts, Meets (fun value => value.Conforms (part.typeIn layout))
        (part.Fault layout.length) (part.eval row)) (e : EngineError)
      (h : .error e ∈ parts.map (eval row)) : expr.Fault layout.length e := by
    obtain ⟨part, hmem, herror⟩ := List.mem_map.mp h
    have hpart := ih part hmem
    rw [herror] at hpart
    exact Fault.of_part hpart fun hrange => eachInRange_iff.mp (hparts hrange) part hmem
  induction expr using Expr.induct with
  | column index =>
      obtain ⟨hlength, hcell⟩ := List.forall₂_iff_get.mp hrow
      rw [eval, typeIn]
      by_cases hrange : index < layout.length
      · have hlt : index < row.length := hlength ▸ hrange
        rw [List.getElem?_eq_getElem hlt, List.getElem?_eq_getElem hrange]
        exact hcell index hrange hlt
      · have hle : row.length ≤ index := Nat.le_of_not_lt (hlength ▸ hrange)
        rw [List.getElem?_eq_none hle, ← hlength]
        exact Fault.column index hrange
  | constant value =>
      rw [eval, typeIn]
      cases value <;> rfl
  | compare op left right hleft hright =>
      rw [eval, typeIn]
      refine (hleft.error_mono fun e he => he.of_part And.left).bind fun a _ => ?_
      refine (hright.error_mono fun e he => he.of_part And.right).bind fun b _ => ?_
      exact (Value.compareBy_meets op a b).error_mono fun e he => .operand he
  | arith op left right hleft hright =>
      rw [eval, typeIn]
      refine (hleft.error_mono fun e he => he.of_part And.left).bind fun a ha => ?_
      refine (hright.error_mono fun e he => he.of_part And.right).bind fun b hb => ?_
      exact (Value.arith_meets op ha hb).error_mono fun e he => .operand he
  | all parts ih =>
      rw [eval_all, typeIn]
      exact junction_meets (fun e he => .operand he) (parts_fault id ih)
  | any parts ih =>
      rw [eval_any, typeIn]
      exact junction_meets (fun e he => .operand he) (parts_fault id ih)
  | not part ih =>
      rw [eval_not, typeIn]
      have hpart : Meets _ ((not part).Fault layout.length) (part.eval row) :=
        ih.error_mono fun e he => he.of_part id
      exact hpart.bind fun a _ => a.negate_meets.error_mono fun e he => .operand he
  | isNull part ih =>
      rw [eval, typeIn]
      have hpart : Meets _ ((isNull part).Fault layout.length) (part.eval row) :=
        ih.error_mono fun e he => he.of_part id
      exact hpart.bind fun a _ => Value.conforms_bool _

/-- **An expression in range evaluates to a value of its static type**, or fails for the data's
sake. -/
theorem eval_sound (hrow : row.Conforms layout) (expr : Expr) (hrange : expr.InRange layout.length) :
    Sound (fun value => value.Conforms (expr.typeIn layout)) (expr.eval row) :=
  (eval_meets hrow expr).sound fun _ he => (EngineError.ofData_of_isOperand (he.isOperand hrange)).2

/-- The values of expressions in range conform to their types. -/
theorem evalEach_sound (hrow : row.Conforms layout) (exprs : List Expr)
    (hrange : ∀ expr ∈ exprs, expr.InRange layout.length) :
    Sound (fun values => Row.Conforms values (exprs.map (typeIn layout)))
      (evalEach row exprs) := by
  induction exprs with
  | nil => exact .nil
  | cons expr exprs ih =>
      obtain ⟨hfirst, hrest⟩ := List.forall_mem_cons.mp hrange
      rw [evalEach]
      refine (eval_sound hrow expr hfirst).bind fun value hvalue => ?_
      exact (ih hrest).bind fun values hvalues => .cons hvalue hvalues

end Expr

/-! ## What is fed to aggregate functions -/

/-- An aggregate function is fed what its expression evaluates to. -/
theorem Group.eval_of_input {kind : AggregateKind} {expr : Expr} {row : Row} {value : Value}
    (h : Group.input ⟨kind, some expr⟩ row = .ok (some value)) : expr.eval row = .ok value := by
  cases heval : expr.eval row with
  | error e => cases kind <;> simp [input, heval, Except.map] at h
  | ok found => cases kind <;> simp_all [input, Except.map]

namespace Expr

/-- Values of one static type have one kind, apart from nulls. -/
theorem exists_kind_of_conforms (type : Option ColumnType) :
    ∃ found : Kind, ∀ value : Value, value.Conforms type → value = .null ∨ value.kind = found := by
  cases type with
  | none => exact ⟨.null, fun value h => .inl h⟩
  | some type =>
      refine ⟨type.kind, fun value h => ?_⟩
      rcases Value.conforms_iff.mp h with hnull | htype
      · exact .inl hnull
      · refine .inr ?_
        cases value <;> cases htype <;> rfl

/-- **Expressions are type-sound.**  On rows that fit a schema an expression has values of its static
type only, and fails, if it names only columns that there are, with an error that comes from an
expression and is owed to the data.  So the values that it feeds to an aggregate function over any rows
of a table are all of one kind, apart from nulls; integers and numbers are never mixed. -/
theorem eval_typed (schema : Schema) (expr : Expr) :
    (∀ row : Row, schema.Fits row →
      (∀ value, expr.eval row = .ok value → value.Conforms (expr.typeIn schema.layout)) ∧
      (expr.InRange schema.width → ∀ e, expr.eval row = .error e →
        e.report.origin = .expression ∧
          (e.report.kind = .invalidParameter ∨ e.report.kind = .unsupported))) ∧
    ∀ (kind : AggregateKind) (rows : List Row), (∀ row ∈ rows, schema.Fits row) →
      ∃ found : Kind, ∀ row ∈ rows, ∀ value,
        Group.input ⟨kind, some expr⟩ row = .ok (some value) → value = .null ∨ value.kind = found := by
  have outcomes {row : Row} (hfits : schema.Fits row) :=
    eval_meets (Row.conforms_layout_iff.mpr hfits) expr
  constructor
  · intro row hfits
    constructor
    · intro value hvalue
      have hmeets := outcomes hfits
      rwa [hvalue] at hmeets
    · intro hrange e herror
      have hfault := outcomes hfits
      rw [herror] at hfault
      rw [← schema.length_layout] at hrange
      exact EngineError.ofData_of_isOperand (hfault.isOperand hrange)
  · intro kind rows hfits
    obtain ⟨found, hfound⟩ := exists_kind_of_conforms (expr.typeIn schema.layout)
    refine ⟨found, fun row hrow value hinput => hfound value ?_⟩
    have hmeets := outcomes (hfits row hrow)
    rwa [Group.eval_of_input hinput] at hmeets

/-- `6 / (n - 3)`, for the first column. -/
def quotient : Expr :=
  .arith .div (.constant (.int 6)) (.arith .sub (.column 0) (.constant (.int 3)))

/-- One quotient is an integer, one is null, and one has no value. -/
theorem eval_typed_quotient :
    let schema : Schema := ⟨[⟨"n", .int⟩]⟩
    let rows : List Row := [[.int 1], [.null], [.int 3]]
    (∀ row ∈ rows, schema.Fits row) ∧ quotient.InRange schema.width ∧
      quotient.typeIn schema.layout = some .int ∧
      quotient.eval [.int 1] = .ok (.int (-3)) ∧ quotient.eval [.null] = .ok .null ∧
      quotient.eval [.int 3] = .error .divisionByZero ∧ (Value.int (-3)).Conforms (some .int) ∧
      EngineError.divisionByZero.report.origin = .expression ∧
      ∃ found : Kind, ∀ row ∈ rows, ∀ value,
        Group.input ⟨.sum, some quotient⟩ row = .ok (some value) →
          value = .null ∨ value.kind = found := by
  intro schema rows
  obtain ⟨hrow, hfed⟩ := eval_typed schema quotient
  have hfits : ∀ row ∈ rows, schema.Fits row := by
    simp only [rows, List.forall_mem_cons]
    exact ⟨.cons rfl .nil, .cons rfl .nil, .cons rfl .nil, by simp⟩
  have hrange : quotient.InRange schema.width := by
    simp [quotient, InRange, schema, Schema.width]
  have hvalue : quotient.eval [.int 1] = .ok (.int (-3)) := rfl
  have herror : quotient.eval [.int 3] = .error .divisionByZero := rfl
  obtain ⟨horigin, -⟩ := (hrow [.int 3] (.cons rfl .nil)).2 hrange _ herror
  exact ⟨hfits, hrange, rfl, hvalue, rfl, herror, (hrow [.int 1] (.cons rfl .nil)).1 _ hvalue,
    horigin, hfed .sum rows hfits⟩

end Expr

end GraphScan
