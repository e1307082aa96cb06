import GraphScan.Aggregate.Accumulator
import GraphScan.Proofs.Value.Order
import Mathlib.Algebra.BigOperators.Group.List.Basic

/-!
# What accumulators make of their inputs

An accumulator sees the inputs of its column one by one.  What it has become at the end can be said
of all of them at once.

* `Accumulator.ofInputs` — an accumulator after some inputs, and `present` — those of them that are
  there and not null.  The functions other than the row count see no others (`ofInputs_eq_absorbAll`).
* `Accumulator.absorbAll_invariant` — the induction over inputs, for any property of an accumulator
  and the values it has seen.
* `Value.IsBest` — **an extremum**: one of the values, and unbeaten by all.
* `Value.IsSum` — **a sum of integers**, which is exact.
* `Accumulator.ofInputs_perm` — **the order of the inputs does not matter** for counts, for sums of
  integers, and for extrema of integers, truth values or texts.
-/

namespace GraphScan

/-! ## Extrema -/

namespace Value

variable {wanted : Ordering} {kept candidate value : Value} {values others : List Value}

/-- **A value that another one does not beat.**  The two have an order, and it is not the wanted
one. -/
def Unbeaten (wanted : Ordering) (kept value : Value) : Prop :=
  ∃ order, value.compare? kept = some order ∧ order ≠ wanted

/-- A value that has an order is unbeaten by itself. -/
theorem unbeaten_self {order : Ordering} (hwanted : wanted ≠ .eq)
    (h : candidate.compare? kept = some order) :
    Unbeaten wanted candidate candidate ∧ Unbeaten wanted kept kept := by
  have hswap : kept.compare? candidate = some order.swap := by
    rw [compare?_swap candidate, h]
    rfl
  exact ⟨⟨.eq, compare?_self h, hwanted.symm⟩, ⟨.eq, compare?_self hswap, hwanted.symm⟩⟩

/-- **What beats a value is unbeaten by all that did not beat it.**  One of the two comparisons is
strict, so that rounding does no harm. -/
theorem Unbeaten.of_better (hwanted : wanted ≠ .eq) (h : Unbeaten wanted kept value)
    (hbetter : candidate.compare? kept = some wanted) : Unbeaten wanted candidate value := by
  obtain ⟨order, hvalue, horder⟩ := h
  cases wanted with
  | eq => exact absurd rfl hwanted
  | gt =>
      have hkept : kept.compare? candidate = some .lt := by
        rw [compare?_swap candidate, hbetter]
        rfl
      exact compare?_of_lt hvalue hkept horder (by decide) (.inr rfl)
  | lt =>
      have hkept : kept.compare? value = some order.swap := by
        rw [compare?_swap value, hvalue]
        rfl
      have hswap : order.swap ≠ .gt := by
        cases order <;> first | exact absurd rfl horder | decide
      obtain ⟨whole, hwhole, hle⟩ := compare?_of_lt hbetter hkept (by decide) hswap (.inl rfl)
      refine ⟨whole.swap, by rw [compare?_swap candidate, hwhole]; rfl, ?_⟩
      cases whole <;> first | exact absurd rfl hle | decide

/-- **The best of some values**: one of them, unbeaten by all, or none if there are none.  A value
that stands alone need not have an order. -/
def IsBest (wanted : Ordering) (values : List Value) : Option Value → Prop
  | none => values = []
  | some best => best ∈ values ∧ (values = [best] ∨ ∀ value ∈ values, Unbeaten wanted best value)

/-- **Keeping the better one keeps the best.** -/
theorem IsBest.better {kind : AggregateKind} {best : Option Value} {next : Value}
    (hwanted : wanted ≠ .eq) (h : IsBest wanted values best)
    (hnext : Accumulator.better kind wanted best candidate = .ok next) :
    IsBest wanted (values ++ [candidate]) (some next) := by
  cases best with
  | none =>
      obtain rfl : values = [] := h
      obtain rfl := Except.ok.inj hnext
      exact ⟨List.mem_singleton_self _, .inl rfl⟩
  | some kept =>
      rw [Accumulator.better] at hnext
      cases hcompare : candidate.compare? kept with
      | none => simp [hcompare] at hnext
      | some order =>
          obtain ⟨hcandidate, hkept⟩ := unbeaten_self hwanted hcompare
          have hall : ∀ value ∈ values, Unbeaten wanted kept value := by
            obtain hone | hall := h.2
            · rw [hone]
              simpa using hkept
            · exact hall
          simp only [hcompare, Except.ok.injEq] at hnext
          split at hnext
          · next heq =>
            subst hnext heq
            refine ⟨by simp, .inr fun value hvalue => ?_⟩
            rcases List.mem_append.mp hvalue with hseen | hlast
            · exact (hall value hseen).of_better hwanted hcompare
            · rw [List.mem_singleton.mp hlast]
              exact hcandidate
          · next hne =>
            subst hnext
            refine ⟨List.mem_append_left _ h.1, .inr fun value hvalue => ?_⟩
            rcases List.mem_append.mp hvalue with hseen | hlast
            · exact hall value hseen
            · rw [List.mem_singleton.mp hlast]
              exact ⟨order, hcompare, hne⟩

/-- **The best value is the same in any order**, where equal values are the same. -/
theorem IsBest.unique {best best' : Option Value} (hwanted : wanted ≠ .eq)
    (hperm : values.Perm others) (hfloat : ∀ value ∈ values, value.kind ≠ .float)
    (h : IsBest wanted values best) (h' : IsBest wanted others best') : best = best' := by
  match best, best' with
  | none, none => rfl
  | none, some best' =>
      obtain rfl : values = [] := h
      exact absurd (hperm.mem_iff.mpr h'.1) (by simp)
  | some best, none =>
      obtain rfl : others = [] := h'
      exact absurd (hperm.mem_iff.mp h.1) (by simp)
  | some best, some best' =>
      have hmem : best' ∈ values := hperm.mem_iff.mpr h'.1
      have hmem' : best ∈ others := hperm.mem_iff.mp h.1
      obtain hone | hall := h.2
      · rw [hone, List.mem_singleton] at hmem
        rw [hmem]
      obtain hone | hall' := h'.2
      · rw [hone, List.mem_singleton] at hmem'
        rw [hmem']
      obtain ⟨order, horder, hne⟩ := hall best' hmem
      obtain ⟨order', horder', hne'⟩ := hall' best hmem'
      -- Neither beats the other, so they are equal.
      rw [compare?_swap best', horder, Option.map_some, Option.some.injEq] at horder'
      have heq : order = .eq := by
        subst horder'
        cases order <;> cases wanted <;> simp_all
      rw [heq] at horder
      rw [eq_of_compare?_eq horder (hfloat best' hmem) (hfloat best h.1)]

/-! ## Sums -/

/-- **The sum of some integers**, exact and in range, or none if there are none. -/
def IsSum (values : List Value) : Option Value → Prop
  | none => values = []
  | some total => values ≠ [] ∧ ∃ n : Int64, total = .int n ∧
      n.toInt = ((values.filterMap toInt?).map Int64.toInt).sum

/-- **Adding an integer keeps the sum exact.** -/
theorem IsSum.addTo {total : Option Value} {n : Int64} {next : Value} (h : IsSum values total)
    (hnext : Accumulator.addTo total (.int n) = .ok next) :
    IsSum (values ++ [.int n]) (some next) := by
  cases total with
  | none =>
      obtain rfl : values = [] := h
      obtain rfl := Except.ok.inj hnext
      exact ⟨by simp, n, rfl, by simp [toInt?]⟩
  | some total =>
      obtain ⟨-, m, rfl, hm⟩ := h
      rw [Accumulator.addTo, add?] at hnext
      cases hfit : Integer.fit? (m.toInt + n.toInt) with
      | none => simp [hfit] at hnext
      | some k =>
          simp only [hfit, Option.map_some, Except.ok.injEq] at hnext
          refine ⟨by simp, k, hnext.symm, ?_⟩
          rw [Integer.fit?_eq_some_iff.mp hfit, hm]
          simp [toInt?]

/-- **The sum is the same in any order.** -/
theorem IsSum.unique {total total' : Option Value} (hperm : values.Perm others)
    (h : IsSum values total) (h' : IsSum others total') : total = total' := by
  match total, total' with
  | none, none => rfl
  | none, some total' =>
      obtain rfl : values = [] := h
      exact absurd (List.nil_perm.mp hperm) h'.1
  | some total, none =>
      obtain rfl : others = [] := h'
      exact absurd (List.perm_nil.mp hperm) h.1
  | some total, some total' =>
      obtain ⟨-, n, rfl, hn⟩ := h
      obtain ⟨-, m, rfl, hm⟩ := h'
      have hsum : n.toInt = m.toInt := by
        rw [hn, hm]
        exact ((hperm.filterMap toInt?).map Int64.toInt).sum_eq
      rw [Int64.toInt_inj.mp hsum]

end Value

/-! ## Accumulators -/

namespace Accumulator

variable {kind : AggregateKind} {acc last : Accumulator} {inputs others : List (Option Value)}

/-- The value of an input that is there and not null. -/
def given (input : Option Value) : Option Value :=
  input.filter fun value => !value.isNull

/-- **The values that count** among some inputs. -/
def present (inputs : List (Option Value)) : List Value :=
  inputs.filterMap given

theorem present_append (inputs others : List (Option Value)) :
    present (inputs ++ others) = present inputs ++ present others :=
  List.filterMap_append

theorem present_cons_of_given {input : Option Value} {value : Value} (h : given input = some value)
    (inputs : List (Option Value)) : present (input :: inputs) = value :: present inputs :=
  List.filterMap_cons_some h

/-- **The accumulator of a function after some inputs.** -/
def ofInputs (kind : AggregateKind) (inputs : List (Option Value)) :
    Except EngineError Accumulator :=
  inputs.foldlM (fun acc input => acc.update input) (.new kind)

/-- An accumulator after some values that are not null. -/
def absorbAll (acc : Accumulator) (values : List Value) : Except EngineError Accumulator :=
  values.foldlM (fun acc value => acc.absorb value) acc

/-- **What a value can make of an accumulator**, one case for each function. -/
inductive Absorbs (value : Value) : Accumulator → Accumulator → Prop where
  | avg {total x : Binary64} {n : Nat} (h : value.toNumber? = some x) :
      Absorbs value (.avg total n) (.avg (total.add x) (n + 1))
  | count (n : Nat) : Absorbs value (.count n) (.count (n + 1))
  | countStar (n : Nat) : Absorbs value (.countStar n) (.countStar (n + 1))
  | max {best : Option Value} {next : Value} (h : better .max .gt best value = .ok next) :
      Absorbs value (.max best) (.max (some next))
  | min {best : Option Value} {next : Value} (h : better .min .lt best value = .ok next) :
      Absorbs value (.min best) (.min (some next))
  | sum {total : Option Value} {next : Value} (h : addTo total value = .ok next) :
      Absorbs value (.sum total) (.sum (some next))

theorem absorbs_of_absorb {value : Value} (h : acc.absorb value = .ok last) :
    Absorbs value acc last := by
  cases acc with
  | avg total n =>
      rw [absorb] at h
      cases hnumber : value.toNumber? with
      | none => simp [hnumber] at h
      | some x =>
          simp only [hnumber, Except.ok.injEq] at h
          rw [← h]
          exact .avg hnumber
  | count n => cases h; exact .count n
  | countStar n => cases h; exact .countStar n
  | max best =>
      simp only [absorb, bind, Except.bind] at h
      cases hnext : better .max .gt best value with
      | error e => simp [hnext] at h
      | ok next =>
          simp only [hnext, Except.ok.injEq] at h
          rw [← h]
          exact .max hnext
  | min best =>
      simp only [absorb, bind, Except.bind] at h
      cases hnext : better .min .lt best value with
      | error e => simp [hnext] at h
      | ok next =>
          simp only [hnext, Except.ok.injEq] at h
          rw [← h]
          exact .min hnext
  | sum total =>
      simp only [absorb, bind, Except.bind] at h
      cases hnext : addTo total value with
      | error e => simp [hnext] at h
      | ok next =>
          simp only [hnext, Except.ok.injEq] at h
          rw [← h]
          exact .sum hnext

/-- **Induction over the values that an accumulator absorbs.**  The property is one of the accumulator
and the values that it has seen. -/
theorem absorbAll_invariant {P : List Value → Accumulator → Prop} {seen values : List Value}
    (hstep : ∀ seen acc value next, value ∈ values → P seen acc → Absorbs value acc next →
      P (seen ++ [value]) next)
    (hstart : P seen acc) (hok : acc.absorbAll values = .ok last) : P (seen ++ values) last := by
  induction values generalizing seen acc with
  | nil =>
      obtain rfl := Except.ok.inj hok
      rwa [List.append_nil]
  | cons value values ih =>
      rw [absorbAll, List.foldlM_cons] at hok
      cases hvalue : acc.absorb value with
      | error e => simp [hvalue, bind, Except.bind] at hok
      | ok next =>
          simp only [hvalue, bind, Except.bind] at hok
          have hnext := hstep seen acc value next List.mem_cons_self hstart (absorbs_of_absorb hvalue)
          have hlast := ih (fun seen acc other next hmem => hstep seen acc other next
            (List.mem_cons_of_mem value hmem)) hnext hok
          rwa [List.append_assoc] at hlast

/-- Inputs that can be taken can be taken up to any of them. -/
theorem exists_ofInputs_of_append (hok : ofInputs kind (inputs ++ others) = .ok last) :
    ∃ before, ofInputs kind inputs = .ok before := by
  rw [ofInputs, List.foldlM_append, ← ofInputs] at hok
  cases hinputs : ofInputs kind inputs with
  | ok before => exact ⟨before, rfl⟩
  | error e =>
      rw [hinputs] at hok
      cases hok

/-- **What fails on some inputs fails on one of them**, behind others that could be taken. -/
theorem exists_update_error {e : EngineError} (herror : ofInputs kind inputs = .error e) :
    ∃ front input back before, inputs = front ++ input :: back ∧ ofInputs kind front = .ok before ∧
      before.update input = .error e := by
  rw [ofInputs] at herror
  simp only [ofInputs]
  generalize new kind = acc at herror ⊢
  induction inputs generalizing acc with
  | nil => cases herror
  | cons input inputs ih =>
      rw [List.foldlM_cons] at herror
      cases hupdate : acc.update input with
      | error e' =>
          rw [hupdate] at herror
          obtain rfl : e' = e := Except.error.inj herror
          exact ⟨[], input, inputs, acc, rfl, rfl, hupdate⟩
      | ok next =>
          rw [hupdate] at herror
          obtain ⟨front, failing, back, before, rfl, hfront, hfailing⟩ := ih next herror
          refine ⟨input :: front, failing, back, before, rfl, ?_, hfailing⟩
          rw [List.foldlM_cons, hupdate]
          exact hfront

/-! ### Nulls are passed over -/

/-- Whether an accumulator counts rows whatever their inputs. -/
def countsRows : Accumulator → Bool
  | .countStar _ => true
  | _ => false

theorem countsRows_new (hkind : kind ≠ .countStar) : (new kind).countsRows = false := by
  cases kind <;> first | rfl | exact absurd rfl hkind

theorem Absorbs.countsRows {value : Value} (h : Absorbs value acc last) :
    last.countsRows = acc.countsRows := by
  cases h <;> rfl

/-- An input without a value changes nothing; any other is absorbed. -/
theorem update_eq (h : acc.countsRows = false) (input : Option Value) :
    acc.update input = match given input with
      | some value => acc.absorb value
      | none => .ok acc := by
  cases acc with
  | countStar n => cases h
  | _ =>
      match input with
      | none => rfl
      | some .null => rfl
      | some (.bool _) | some (.int _) | some (.float _) | some (.text _) => rfl

/-- An input that fails has a value that cannot be absorbed. -/
theorem exists_absorb_error {input : Option Value} {e : EngineError} (h : acc.countsRows = false)
    (herror : acc.update input = .error e) :
    ∃ value, given input = some value ∧ acc.absorb value = .error e := by
  rw [update_eq h] at herror
  cases hgiven : given input with
  | none => simp [hgiven] at herror
  | some value =>
      rw [hgiven] at herror
      exact ⟨value, rfl, herror⟩

/-- **Only the values that are there and not null count**, but for the row count. -/
theorem foldlM_update_eq (h : acc.countsRows = false) (inputs : List (Option Value)) :
    inputs.foldlM (fun acc input => acc.update input) acc = acc.absorbAll (present inputs) := by
  induction inputs generalizing acc with
  | nil => rfl
  | cons input inputs ih =>
      rw [List.foldlM_cons, update_eq h, present, List.filterMap_cons]
      cases given input with
      | none => exact ih h
      | some value =>
          rw [absorbAll, List.foldlM_cons]
          dsimp only
          cases hvalue : acc.absorb value with
          | error e => rfl
          | ok next => exact ih ((absorbs_of_absorb hvalue).countsRows.trans h)

theorem ofInputs_eq_absorbAll (hkind : kind ≠ .countStar) (inputs : List (Option Value)) :
    ofInputs kind inputs = (new kind).absorbAll (present inputs) :=
  foldlM_update_eq (countsRows_new hkind) inputs

/-! ### What it has become -/

/-- The row count counts all inputs. -/
theorem ofInputs_countStar (inputs : List (Option Value)) :
    ofInputs .countStar inputs = .ok (.countStar inputs.length) := by
  have hfrom (n : Nat) : inputs.foldlM (fun acc input => acc.update input) (.countStar n) =
      (.ok (.countStar (n + inputs.length)) : Except EngineError Accumulator) := by
    induction inputs generalizing n with
    | nil => rfl
    | cons input inputs ih =>
        rw [List.foldlM_cons, List.length_cons, ← Nat.add_assoc, Nat.add_right_comm]
        exact ih (n + 1)
  rw [ofInputs, new, hfrom, Nat.zero_add]

/-- A count counts the values that are there. -/
theorem ofInputs_count (inputs : List (Option Value)) :
    ofInputs .count inputs = .ok (.count (present inputs).length) := by
  have hfrom (values : List Value) (n : Nat) :
      absorbAll (.count n) values = .ok (.count (n + values.length)) := by
    induction values generalizing n with
    | nil => rfl
    | cons value values ih =>
        rw [absorbAll, List.foldlM_cons, List.length_cons, ← Nat.add_assoc, Nat.add_right_comm]
        exact ih (n + 1)
  rw [ofInputs_eq_absorbAll (by decide), new, hfrom, Nat.zero_add]

/-- **The functions that keep an extremum**: how a better value compares with the one that is kept, and
the accumulator that keeps it. -/
inductive Extremal : AggregateKind → Ordering → (Option Value → Accumulator) → Prop where
  | max : Extremal .max .gt .max
  | min : Extremal .min .lt .min

namespace Extremal

variable {wanted : Ordering} {keeping : Option Value → Accumulator} {best : Option Value}
  {value : Value}

theorem wanted_ne_eq (h : Extremal kind wanted keeping) : wanted ≠ .eq := by
  cases h <;> decide

/-- An extremum absorbs the better one of the value that it keeps and the next. -/
theorem absorb_eq (h : Extremal kind wanted keeping) (best : Option Value) (value : Value) :
    (keeping best).absorb value =
      (better kind wanted best value).map fun next => keeping (some next) := by
  cases h <;> rfl

theorem result_eq (h : Extremal kind wanted keeping) (best : Option Value) :
    (keeping best).result = best.getD .null := by
  cases h <;> rfl

/-- **An extremum is the best of the values.** -/
theorem best_of_ofInputs (h : Extremal kind wanted keeping) (hok : ofInputs kind inputs = .ok last) :
    ∃ best, last = keeping best ∧ Value.IsBest wanted (present inputs) best := by
  have hkind : kind ≠ .countStar := by cases h <;> decide
  have hstart : new kind = keeping none := by cases h <;> rfl
  rw [ofInputs_eq_absorbAll hkind] at hok
  refine absorbAll_invariant (P := fun seen acc => ∃ best, acc = keeping best ∧
    Value.IsBest wanted seen best) ?_ ⟨none, hstart, rfl⟩ hok
  rintro seen _ value next - ⟨best, rfl, hbest⟩ habsorbs
  obtain ⟨better, rfl, hbetter⟩ : ∃ better, next = keeping (some better) ∧
      Accumulator.better kind wanted best value = .ok better := by
    cases h <;> cases habsorbs <;> exact ⟨_, rfl, ‹_›⟩
  exact ⟨_, rfl, hbest.better h.wanted_ne_eq hbetter⟩

end Extremal

/-- **A sum of integers is exact.** -/
theorem sum_of_ofInputs (hints : ∀ value ∈ present inputs, value.kind = .int)
    (hok : ofInputs .sum inputs = .ok last) :
    ∃ total, last = .sum total ∧ Value.IsSum (present inputs) total := by
  rw [ofInputs_eq_absorbAll (by decide)] at hok
  refine absorbAll_invariant (P := fun seen acc => ∃ total, acc = .sum total ∧
    Value.IsSum seen total) ?_ ⟨none, rfl, rfl⟩ hok
  rintro seen _ value next hvalue ⟨total, rfl, htotal⟩ habsorbs
  cases habsorbs with
  | sum hnext =>
      cases value with
      | int n => exact ⟨_, rfl, htotal.addTo hnext⟩
      | _ => cases hints _ hvalue

/-! ### Any order -/

/-- **Inputs whose order cannot matter** to a function.  A sum takes integers, and an extremum values
of one kind with an order in which equal values are the same; an average is left out, for its sums are
rounded. -/
def Unordered (kind : AggregateKind) (inputs : List (Option Value)) : Prop :=
  match kind with
  | .count | .countStar => True
  | .sum => ∀ value ∈ present inputs, value.kind = .int
  | .max | .min => ∀ value ∈ present inputs, value.kind ≠ .float
  | .avg => False

/-- **The order of the inputs does not matter**, if they can be taken in both orders. -/
theorem ofInputs_perm {acc' : Accumulator} (hperm : inputs.Perm others)
    (hunordered : Unordered kind inputs) (hok : ofInputs kind inputs = .ok acc)
    (hok' : ofInputs kind others = .ok acc') : acc = acc' := by
  have hpresent : (present inputs).Perm (present others) := hperm.filterMap given
  cases kind with
  | avg => exact hunordered.elim
  | count =>
      rw [ofInputs_count, Except.ok.injEq] at hok hok'
      rw [← hok, ← hok', hpresent.length_eq]
  | countStar =>
      rw [ofInputs_countStar, Except.ok.injEq] at hok hok'
      rw [← hok, ← hok', hperm.length_eq]
  | sum =>
      have hints : ∀ value ∈ present others, value.kind = .int :=
        fun value hvalue => hunordered value (hpresent.mem_iff.mpr hvalue)
      obtain ⟨total, rfl, hsum⟩ := sum_of_ofInputs hunordered hok
      obtain ⟨total', rfl, hsum'⟩ := sum_of_ofInputs hints hok'
      rw [hsum.unique hpresent hsum']
  | max =>
      obtain ⟨best, rfl, hbest⟩ := Extremal.max.best_of_ofInputs hok
      obtain ⟨best', rfl, hbest'⟩ := Extremal.max.best_of_ofInputs hok'
      rw [hbest.unique (by decide) hpresent hunordered hbest']
  | min =>
      obtain ⟨best, rfl, hbest⟩ := Extremal.min.best_of_ofInputs hok
      obtain ⟨best', rfl, hbest'⟩ := Extremal.min.best_of_ofInputs hok'
      rw [hbest.unique (by decide) hpresent hunordered hbest']

end Accumulator

end GraphScan
