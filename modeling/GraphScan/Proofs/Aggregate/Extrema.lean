import GraphScan.Proofs.Aggregate.Inputs

/-!
# Minima and maxima

A minimum or a maximum keeps one of its inputs and compares each other one with it.  So it needs
inputs that can be compared, and rounding must not let a value escape that would have beaten the one
that is kept in the end.

* `Value.scale?` — **the scale on which a value is ordered**; two values have an order exactly if they
  are on one scale (`Value.exists_compare?_iff`).
* `Value.Comparable` — values that are all on one scale.
* `Value.IsBest.comparable`, `Value.IsBest.not_beaten` — what it means for some values that there is a
  best one.
* `Accumulator.extremum_unbeaten` — **a minimum or a maximum is a true extremum**, and there is none
  only where two inputs cannot be compared.
-/

namespace GraphScan

namespace Value

variable {a b best : Value} {values : List Value} {wanted : Ordering}

/-! ## Scales -/

/-- **The scale on which a value is ordered**, named after a kind.  Integers are ordered among the
numbers; a null, and what is not a number, are on no scale. -/
def scale? : Value → Option Kind
  | .bool _ => some .bool
  | .int _ => some .float
  | .float x => if x.isNaN then none else some .float
  | .null => none
  | .text _ => some .text

/-- **Two values have an order exactly if they are on one scale.** -/
theorem exists_compare?_iff : (∃ order, a.compare? b = some order) ↔
    ∃ scale, a.scale? = some scale ∧ b.scale? = some scale := by
  rw [← Option.ne_none_iff_exists', Ne, compare?_eq_none_iff]
  cases a <;> cases b <;> simp [scale?, isNull, isNaN, kind, isNumeric]

/-- **Values on one scale**: truth values, texts, or integers and numbers. -/
def Comparable (values : List Value) : Prop :=
  (∀ value ∈ values, value.kind = .bool) ∨ (∀ value ∈ values, value.kind = .text) ∨
    ∀ value ∈ values, value.isNumeric = true ∧ value.isNaN = false

theorem scale?_eq_bool_iff : a.scale? = some .bool ↔ a.kind = .bool := by
  cases a <;> simp [scale?, kind]

theorem scale?_eq_text_iff : a.scale? = some .text ↔ a.kind = .text := by
  cases a <;> simp [scale?, kind]

theorem scale?_eq_float_iff :
    a.scale? = some .float ↔ a.isNumeric = true ∧ a.isNaN = false := by
  cases a <;> simp [scale?, isNumeric, isNaN]

theorem comparable_iff : Comparable values ↔
    ∃ scale, ∀ value ∈ values, value.scale? = some scale := by
  simp only [Comparable, ← scale?_eq_bool_iff, ← scale?_eq_text_iff, ← scale?_eq_float_iff]
  constructor
  · rintro (h | h | h) <;> exact ⟨_, h⟩
  · rintro ⟨scale, h⟩
    cases scale with
    | bool => exact .inl h
    | text => exact .inr (.inl h)
    | float => exact .inr (.inr h)
    | int | null =>
        -- There is no value on such a scale.
        refine .inl fun value hvalue => ?_
        have hscale := h value hvalue
        cases value <;> simp [scale?] at hscale

/-- Values on one scale have an order with each other. -/
theorem Comparable.exists_compare? (h : Comparable values) (ha : a ∈ values) (hb : b ∈ values) :
    ∃ order, a.compare? b = some order := by
  obtain ⟨scale, hscale⟩ := comparable_iff.mp h
  exact exists_compare?_iff.mpr ⟨scale, hscale a ha, hscale b hb⟩

/-! ## Values with a best one -/

/-- **Several values of which one is the best are on its scale.** -/
theorem IsBest.comparable (h : IsBest wanted values (some best)) (hmany : values ≠ [best]) :
    Comparable values := by
  have hall : ∀ value ∈ values, ∃ scale, value.scale? = some scale ∧ best.scale? = some scale := by
    intro value hvalue
    obtain ⟨order, horder, -⟩ := h.2.resolve_left hmany value hvalue
    exact exists_compare?_iff.mp ⟨order, horder⟩
  obtain ⟨scale, hscale, -⟩ := hall best h.1
  refine comparable_iff.mpr ⟨scale, fun value hvalue => ?_⟩
  obtain ⟨scale', hvalue', hscale'⟩ := hall value hvalue
  rw [hvalue', ← hscale', hscale]

/-- **No value beats the best one.** -/
theorem IsBest.not_beaten (h : IsBest wanted values (some best)) (hwanted : wanted ≠ .eq) :
    ∀ value ∈ values, value.compare? best ≠ some wanted := by
  intro value hvalue hbeaten
  obtain hone | hall := h.2
  · rw [hone, List.mem_singleton] at hvalue
    rw [hvalue] at hbeaten
    exact hwanted (Option.some.inj (hbeaten.symm.trans (compare?_self hbeaten)))
  · obtain ⟨order, horder, hne⟩ := hall value hvalue
    exact hne (Option.some.inj (horder.symm.trans hbeaten))

end Value

/-! ## Extrema of inputs -/

namespace Accumulator

open Value (Comparable)

variable {kind : AggregateKind} {wanted : Ordering} {keeping : Option Value → Accumulator}
  {inputs : List (Option Value)}

/-- **A candidate fails only against a value that it has no order with.** -/
theorem incomparable_of_better {best : Option Value} {candidate : Value} {e : EngineError}
    (h : better kind wanted best candidate = .error e) :
    ∃ kept, best = some kept ∧ candidate.compare? kept = none ∧ e.report.kind = .unsupported := by
  cases best with
  | none => cases h
  | some kept =>
      rw [better] at h
      cases hcompare : candidate.compare? kept with
      | some order => simp [hcompare] at h
      | none =>
          simp only [hcompare, Except.error.injEq] at h
          subst h
          exact ⟨kept, rfl, hcompare, rfl⟩

/-- **An extremum fails only on values that cannot be compared**, of which there are two at least. -/
theorem Extremal.incomparable_of_error {e : EngineError} (h : Extremal kind wanted keeping)
    (herror : ofInputs kind inputs = .error e) :
    e.report.kind = .unsupported ∧ 2 ≤ (present inputs).length ∧
      ¬ Comparable (present inputs) := by
  obtain ⟨front, input, back, before, rfl, hfront, hfailing⟩ := exists_update_error herror
  obtain ⟨best, rfl, hbest⟩ := h.best_of_ofInputs hfront
  have hrows : (keeping best).countsRows = false := by cases h <;> rfl
  obtain ⟨value, hgiven, habsorb⟩ := exists_absorb_error hrows hfailing
  have hbetter : better kind wanted best value = .error e := by
    rw [h.absorb_eq] at habsorb
    cases hnext : better kind wanted best value <;> simp_all [Except.map]
  obtain ⟨kept, rfl, hcompare, hclass⟩ := incomparable_of_better hbetter
  have hkept : kept ∈ present front := hbest.1
  rw [present_append, present_cons_of_given hgiven]
  refine ⟨hclass, ?_, fun hcomparable => ?_⟩
  · have hsome := List.length_pos_of_mem hkept
    rw [List.length_append, List.length_cons]
    omega
  · obtain ⟨order, horder⟩ := hcomparable.exists_compare? (a := value) (b := kept)
      (by simp) (by simp [hkept])
    rw [hcompare] at horder
    cases horder

/-- **A minimum or a maximum is a true extremum.**  It fails exactly if there are two inputs at least
that are not null, and those are not all truth values, all texts or all integers and numbers; the error
says that this is not supported.  Otherwise it is null if all inputs are, and else one of the inputs
that are not, which no other one beats; rounding cannot let one slip through. -/
theorem extremum_unbeaten (h : Extremal kind wanted keeping) (inputs : List (Option Value)) :
    ((∃ e, ofInputs kind inputs = .error e) ↔
      2 ≤ (present inputs).length ∧ ¬ Comparable (present inputs)) ∧
    (∀ e, ofInputs kind inputs = .error e → e.report.kind = .unsupported) ∧
    ∀ last, ofInputs kind inputs = .ok last →
      (present inputs = [] → last.result = .null) ∧
      (present inputs ≠ [] → last.result ∈ present inputs ∧
        ∀ value ∈ present inputs, value.compare? last.result ≠ some wanted) := by
  refine ⟨⟨?_, ?_⟩, fun e herror => (h.incomparable_of_error herror).1, ?_⟩
  · rintro ⟨e, herror⟩
    exact (h.incomparable_of_error herror).2
  · rintro ⟨hmany, hincomparable⟩
    cases hlast : ofInputs kind inputs with
    | error e => exact ⟨e, rfl⟩
    | ok last =>
        obtain ⟨best, -, hbest⟩ := h.best_of_ofInputs hlast
        cases best with
        | none => simp [show present inputs = [] from hbest] at hmany
        | some best =>
            refine absurd (hbest.comparable fun hone => ?_) hincomparable
            simp [hone] at hmany
  · intro last hlast
    obtain ⟨best, rfl, hbest⟩ := h.best_of_ofInputs hlast
    rw [h.result_eq]
    cases best with
    | none => exact ⟨fun _ => rfl, fun hsome => absurd hbest hsome⟩
    | some best =>
        refine ⟨fun hnone => ?_, fun _ => ⟨hbest.1, hbest.not_beaten h.wanted_ne_eq⟩⟩
        rw [hnone] at hbest
        exact absurd hbest.1 List.not_mem_nil

/-- Beyond `2 ^ 53` the first of two integers and the number nearest to both is kept, whichever it is: none
beats it.  An integer and a text have no maximum. -/
theorem extremum_unbeaten_neighbours :
    let number : Value := .float ⟨0x4340000000000000⟩
    let inputs := [some number, some .null, some (.int 9007199254740993), none,
      some (.int 9007199254740992)]
    Extremal .max .gt .max ∧ ofInputs .max inputs = .ok (.max (some number)) ∧
      number ∈ present inputs ∧ (Value.int 9007199254740993).compare? number ≠ some .gt ∧
      Extremal .min .lt .min ∧ ∃ e, ofInputs .min [some (.int 1), some (.text "one")] = .error e := by
  intro number inputs
  have hok : ofInputs .max inputs = .ok (.max (some number)) := by decide +kernel
  obtain ⟨-, -, hbest⟩ := extremum_unbeaten .max inputs
  obtain ⟨hmem, hall⟩ := (hbest _ hok).2 (by decide)
  obtain ⟨hfails, -, -⟩ := extremum_unbeaten .min [some (.int 1), some (.text "one")]
  refine ⟨.max, hok, hmem, hall _ (by decide), .min, hfails.mpr ⟨by decide, ?_⟩⟩
  intro hcomparable
  obtain ⟨order, horder⟩ := hcomparable.exists_compare? (a := .int 1) (b := .text "one")
    (by decide) (by decide)
  cases horder

end Accumulator

end GraphScan
