import GraphScan.Proofs.Aggregate.Inputs

/-!
# Counts and sums

Every function but the row count sees only the inputs that are not null.  Counts are exact up to the
greatest integer.  A sum of integers is exact or fails, and it fails as soon as what it has come to is
out of range, even if later inputs would bring it back.

* `Value.exactSum` — the mathematical sum of the integers among some values.
* `Accumulator.sum_error_iff` — **when a sum of integers fails**: some of the inputs, from the first
  on, have a sum out of range.
* `Accumulator.integer_aggregates_exact` — nulls do not count, counts and sums of integers are exact,
  and the order of the integers does not show in a sum that succeeds.
-/

namespace GraphScan

namespace Value

/-- **The exact sum of the integers** among some values. -/
def exactSum (values : List Value) : Int :=
  ((values.filterMap toInt?).map Int64.toInt).sum

variable {values : List Value} {total : Option Value}

theorem exactSum_concat (values : List Value) (n : Int64) :
    exactSum (values ++ [.int n]) = exactSum values + n.toInt := by
  simp [exactSum, toInt?]

/-- A sum that there is, is in range. -/
theorem IsSum.inRange (h : IsSum values total) : Integer.InRange (exactSum values) := by
  cases total with
  | none =>
      obtain rfl : values = [] := h
      exact Integer.inRange_toInt 0
  | some total =>
      obtain ⟨-, n, -, hn⟩ := h
      rw [exactSum, ← hn]
      exact Integer.inRange_toInt n

/-- **Adding an integer fails only if the exact sum is out of range.** -/
theorem IsSum.out_of_range {n : Int64} {e : EngineError} (h : IsSum values total)
    (herror : Accumulator.addTo total (.int n) = .error e) :
    e.report.kind = .invalidParameter ∧ ¬ Integer.InRange (exactSum (values ++ [.int n])) := by
  cases total with
  | none => cases herror
  | some total =>
      obtain ⟨-, m, rfl, hm⟩ := h
      rw [Accumulator.addTo, add?] at herror
      cases hfit : Integer.fit? (m.toInt + n.toInt) with
      | some k => simp [hfit] at herror
      | none =>
          simp only [hfit, Option.map_none, Except.error.injEq] at herror
          refine ⟨by rw [← herror]; rfl, ?_⟩
          rw [exactSum_concat, exactSum, ← hm]
          exact Integer.fit?_eq_none_iff.mp hfit

end Value

namespace Accumulator

open Value (exactSum)

variable {inputs front : List (Option Value)} {last : Accumulator}

theorem present_map_some (inputs : List (Option Value)) :
    present ((present inputs).map some) = present inputs := by
  rw [present, present, List.filterMap_map, List.filterMap_filterMap]
  refine List.filterMap_congr fun input _ => ?_
  cases input with
  | none => rfl
  | some value => cases value <;> rfl

/-! ## Sums of integers -/

/-- A sum of integers that fails has come to a sum out of range. -/
theorem exists_of_sum_error {e : EngineError} (hints : ∀ value ∈ present inputs, value.kind = .int)
    (herror : ofInputs .sum inputs = .error e) :
    e.report.kind = .invalidParameter ∧
      ∃ front, front <+: inputs ∧ ¬ Integer.InRange (exactSum (present front)) := by
  obtain ⟨front, input, back, before, rfl, hfront, hfailing⟩ := exists_update_error herror
  rw [present_append, List.forall_mem_append] at hints
  obtain ⟨total, rfl, htotal⟩ := sum_of_ofInputs hints.1 hfront
  obtain ⟨value, hgiven, habsorb⟩ := exists_absorb_error rfl hfailing
  rw [present_cons_of_given hgiven, List.forall_mem_cons] at hints
  cases value with
  | int n =>
      have hadd : addTo total (.int n) = .error e := by
        cases hnext : addTo total (.int n) <;> simp_all [absorb, bind, Except.bind]
      obtain ⟨hclass, hout⟩ := htotal.out_of_range hadd
      refine ⟨hclass, front ++ [input], by simp, ?_⟩
      rwa [present_append, present_cons_of_given hgiven]
  | _ => cases hints.2.1

/-- **A sum of integers fails exactly if some of them, from the first on, have a sum out of range.** -/
theorem sum_error_iff (hints : ∀ value ∈ present inputs, value.kind = .int) :
    (∃ e, ofInputs .sum inputs = .error e) ↔
      ∃ front, front <+: inputs ∧ ¬ Integer.InRange (exactSum (present front)) := by
  constructor
  · rintro ⟨e, herror⟩
    exact (exists_of_sum_error hints herror).2
  · rintro ⟨front, ⟨back, rfl⟩, hout⟩
    cases hlast : ofInputs .sum (front ++ back) with
    | error e => exact ⟨e, rfl⟩
    | ok last =>
        rw [present_append, List.forall_mem_append] at hints
        obtain ⟨before, hbefore⟩ := exists_ofInputs_of_append hlast
        obtain ⟨total, -, htotal⟩ := sum_of_ofInputs hints.1 hbefore
        exact absurd htotal.inRange hout

/-! ## All integer aggregates -/

/-- **Nulls do not count, and integers are counted and added exactly.**

* A function other than the row count comes to the same on the inputs that are not null.
* The row count is the number of all inputs and the count that of those that are not null, up to the
  greatest integer.
* A sum of integers fails exactly if some of them, from the first on, have a sum out of range; the error
  says that a parameter is invalid.  Otherwise it is null if there are none, and else their exact sum; so
  in any order in which it does not fail it is the same. -/
theorem integer_aggregates_exact (inputs : List (Option Value)) :
    (∀ kind ≠ .countStar, ofInputs kind inputs = ofInputs kind ((present inputs).map some)) ∧
    (∃ n, (ofInputs .countStar inputs).map result = .ok (.int n) ∧
      n.toInt = Min.min (inputs.length : Int) Int64.maxValue.toInt) ∧
    (∃ n, (ofInputs .count inputs).map result = .ok (.int n) ∧
      n.toInt = Min.min ((present inputs).length : Int) Int64.maxValue.toInt) ∧
    ((∀ value ∈ present inputs, value.kind = .int) →
      ((∃ e, ofInputs .sum inputs = .error e) ↔
        ∃ front, front <+: inputs ∧ ¬ Integer.InRange (exactSum (present front))) ∧
      (∀ e, ofInputs .sum inputs = .error e → e.report.kind = .invalidParameter) ∧
      (∀ last, ofInputs .sum inputs = .ok last →
        (present inputs = [] → last.result = .null) ∧
        (present inputs ≠ [] → ∃ n, last.result = .int n ∧
          n.toInt = exactSum (present inputs))) ∧
      ∀ others last last', inputs.Perm others → ofInputs .sum inputs = .ok last →
        ofInputs .sum others = .ok last' → last.result = last'.result) := by
  refine ⟨?_, ?_, ?_, fun hints => ⟨sum_error_iff hints, ?_, ?_, ?_⟩⟩
  · intro kind hkind
    rw [ofInputs_eq_absorbAll hkind, ofInputs_eq_absorbAll hkind, present_map_some]
  · rw [ofInputs_countStar]
    exact ⟨_, rfl, Integer.toInt_ofCount _⟩
  · rw [ofInputs_count]
    exact ⟨_, rfl, Integer.toInt_ofCount _⟩
  · intro e herror
    exact (exists_of_sum_error hints herror).1
  · intro last hlast
    obtain ⟨total, rfl, htotal⟩ := sum_of_ofInputs hints hlast
    cases total with
    | none => exact ⟨fun _ => rfl, fun hsome => absurd htotal hsome⟩
    | some total =>
        obtain ⟨hsome, n, rfl, hn⟩ := htotal
        exact ⟨fun hnone => absurd hnone hsome, fun _ => ⟨n, rfl, hn⟩⟩
  · intro others last last' hperm hlast hlast'
    have hunordered : Unordered .sum inputs := hints
    rw [ofInputs_perm hperm hunordered hlast hlast']

/-- The greatest integer, minus one and one have a sum in two orders; in a third they get out of range on
the way. -/
theorem integer_aggregates_exact_greatest :
    let greatest : Option Value := some (.int 9223372036854775807)
    let inputs := [greatest, some .null, some (.int (-1)), none, some (.int 1)]
    let others := [some (.int (-1)), none, some .null, some (.int 1), greatest]
    let failing := [greatest, some (.int 1), some .null, some (.int (-1))]
    AggregateKind.avg ≠ .countStar ∧
      ofInputs .avg inputs = ofInputs .avg [greatest, some (.int (-1)), some (.int 1)] ∧
      (∀ value ∈ present inputs, value.kind = .int) ∧ inputs.Perm others ∧
      (∃ last last', ofInputs .sum inputs = .ok last ∧ ofInputs .sum others = .ok last' ∧
        last.result = last'.result ∧ last.result = .int 9223372036854775807) ∧
      ∃ e, ofInputs .sum failing = .error e ∧ e.report.kind = .invalidParameter := by
  intro greatest inputs others failing
  obtain ⟨hnulls, -, -, hsum⟩ := integer_aggregates_exact inputs
  have hints : ∀ value ∈ present inputs, value.kind = .int := by decide
  have hints' : ∀ value ∈ present failing, value.kind = .int := by decide
  have hperm : inputs.Perm others := by decide
  obtain ⟨-, -, -, horder⟩ := hsum hints
  obtain ⟨hfails, hclass, -⟩ := (integer_aggregates_exact failing).2.2.2 hints'
  obtain ⟨e, herror⟩ := hfails.mpr ⟨failing.take 2, List.take_prefix 2 failing, by
    simp only [Integer.InRange]
    decide⟩
  have hlast : ofInputs .sum inputs = .ok (.sum (some (.int 9223372036854775807))) := by decide
  have hlast' : ofInputs .sum others = .ok (.sum (some (.int 9223372036854775807))) := by decide
  exact ⟨by decide, hnulls .avg (by decide), hints, hperm,
    ⟨_, _, hlast, hlast', horder _ _ _ hperm hlast hlast', rfl⟩, e, herror, hclass e herror⟩

end Accumulator

end GraphScan
