import GraphScan.Metrics
import Mathlib.Algebra.Order.BigOperators.Group.List
import Mathlib.Data.List.Induction
import Mathlib.Data.List.Nodup

/-!
# What the counters say

The counters are changed event by event, the totals and the counters of each source apart from each
other.  As long as no total is too great to be shown they agree: both say exactly what has been
recorded, and the sources add up to the totals.

* `Event.adds` — what an event adds.  `Totals.exact`, `SourceCounters.exact` — what events add up to.
* `Counters.of` — the counters after some events.
* `Counters.Tally` — **counters that say exactly what has been recorded**.
* `Counters.tally_of` — the counters do so after any events, as long as their totals can be shown.
-/

namespace GraphScan

/-! ## What events add up to -/

/-- **What an event adds** to the totals. -/
def Event.adds : Event → Totals
  | .scanStart _ => { scanCalls := 1 }
  | .scanFinish _ scanned emitted => { scanned, emitted }
  | .shortCircuit _ .emptyScan => { emptyScans := 1 }
  | .shortCircuit _ .passThrough => { passThroughScans := 1 }
  | .remoteProbe succeeded =>
    { remoteProbes := 1, remoteProbeFailures := if succeeded then 0 else 1 }

/-- What an event adds to the counters of its source. -/
def Event.share (event : Event) : SourceCounters :=
  ⟨event.adds.scanCalls, event.adds.scanned, event.adds.emitted⟩

/-- The source at which an event counts. -/
def Event.source? : Event → Option String
  | .scanStart source | .scanFinish source _ _ => some source
  | .shortCircuit _ _ | .remoteProbe _ => none

/-- Only events with a source add to the counters of one. -/
theorem Event.share_of_source_none {event : Event} (h : event.source? = none) :
    event.share = {} := by
  cases event with
  | scanStart source => cases h
  | scanFinish source scanned emitted => cases h
  | shortCircuit source reason => cases reason <;> rfl
  | remoteProbe succeeded => rfl

namespace Totals

def plus (first second : Totals) : Totals :=
  ⟨first.scanCalls + second.scanCalls, first.emptyScans + second.emptyScans,
    first.passThroughScans + second.passThroughScans, first.scanned + second.scanned,
    first.emitted + second.emitted, first.remoteProbes + second.remoteProbes,
    first.remoteProbeFailures + second.remoteProbeFailures⟩

/-- **What some events add up to.** -/
def exact : List Event → Totals
  | [] => {}
  | event :: events => event.adds.plus (exact events)

/-- **Totals that can be shown**: none of them is beyond the greatest count. -/
structure Fits (totals : Totals) : Prop where
  scanCalls : totals.scanCalls ≤ maxCount
  emptyScans : totals.emptyScans ≤ maxCount
  passThroughScans : totals.passThroughScans ≤ maxCount
  scanned : totals.scanned ≤ maxCount
  emitted : totals.emitted ≤ maxCount
  remoteProbes : totals.remoteProbes ≤ maxCount
  remoteProbeFailures : totals.remoteProbeFailures ≤ maxCount

theorem plus_assoc (first second third : Totals) :
    (first.plus second).plus third = first.plus (second.plus third) := by
  simp only [plus, Nat.add_assoc]

theorem exact_concat (events : List Event) (event : Event) :
    exact (events ++ [event]) = (exact events).plus event.adds := by
  induction events with
  | nil => simp [exact, plus]
  | cons first events ih =>
      rw [List.cons_append, exact, ih, exact, plus_assoc]

theorem Fits.of_plus {first second : Totals} (h : (first.plus second).Fits) : first.Fits where
  scanCalls := Nat.le_of_add_right_le h.scanCalls
  emptyScans := Nat.le_of_add_right_le h.emptyScans
  passThroughScans := Nat.le_of_add_right_le h.passThroughScans
  scanned := Nat.le_of_add_right_le h.scanned
  emitted := Nat.le_of_add_right_le h.emitted
  remoteProbes := Nat.le_of_add_right_le h.remoteProbes
  remoteProbeFailures := Nat.le_of_add_right_le h.remoteProbeFailures

end Totals

namespace SourceCounters

def plus (first second : SourceCounters) : SourceCounters :=
  ⟨first.scanCalls + second.scanCalls, first.scanned + second.scanned,
    first.emitted + second.emitted⟩

def sum : List SourceCounters → SourceCounters
  | [] => {}
  | counters :: rest => counters.plus (sum rest)

/-- **What the events of a source add up to.** -/
def exact (source : String) (events : List Event) : SourceCounters :=
  sum ((events.filter fun event => event.source? = some source).map Event.share)

/-- Counters that are at most others, one by one. -/
structure Within (first second : SourceCounters) : Prop where
  scanCalls : first.scanCalls ≤ second.scanCalls
  scanned : first.scanned ≤ second.scanned
  emitted : first.emitted ≤ second.emitted

theorem plus_assoc (first second third : SourceCounters) :
    (first.plus second).plus third = first.plus (second.plus third) := by
  simp only [plus, Nat.add_assoc]

theorem plus_right_comm (first second third : SourceCounters) :
    (first.plus second).plus third = (first.plus third).plus second := by
  simp only [plus, Nat.add_right_comm]

@[simp] theorem plus_zero (counters : SourceCounters) : counters.plus {} = counters := rfl

@[simp] theorem zero_plus (counters : SourceCounters) : plus {} counters = counters := by
  simp [plus]

theorem sum_append (first second : List SourceCounters) :
    sum (first ++ second) = (sum first).plus (sum second) := by
  induction first with
  | nil => rw [List.nil_append, sum, zero_plus]
  | cons counters first ih => rw [List.cons_append, sum, ih, sum, plus_assoc]

/-- Each summand is at most the sum. -/
theorem within_sum {counters : SourceCounters} {list : List SourceCounters} (h : counters ∈ list) :
    counters.Within (sum list) := by
  induction list with
  | nil => cases h
  | cons first list ih =>
      rcases List.mem_cons.mp h with rfl | hmem
      · exact ⟨Nat.le_add_right _ _, Nat.le_add_right _ _, Nat.le_add_right _ _⟩
      · obtain ⟨hcalls, hscanned, hemitted⟩ := ih hmem
        exact ⟨Nat.le_add_left_of_le hcalls, Nat.le_add_left_of_le hscanned,
          Nat.le_add_left_of_le hemitted⟩

/-- One more event counts for its own source only. -/
theorem exact_concat (source : String) (events : List Event) (event : Event) :
    exact source (events ++ [event]) =
      if event.source? = some source then (exact source events).plus event.share
      else exact source events := by
  rw [exact, List.filter_append, List.map_append, sum_append]
  by_cases hsource : event.source? = some source
  · rw [List.filter_cons_of_pos (by simp [hsource]), if_pos hsource]
    rfl
  · rw [List.filter_cons_of_neg (by simp [hsource]), if_neg hsource]
    rfl

end SourceCounters

namespace Counters

/-! ## The totals -/

/-- **The counters after some events**, from zero on. -/
def of (events : List Event) : Counters :=
  events.foldl record {}

theorem of_concat (events : List Event) (event : Event) :
    of (events ++ [event]) = (of events).record event := by
  rw [of, List.foldl_append]
  rfl

/-- A counter that stays within its range is exact. -/
theorem bump_of_le {counter amount : Nat} (h : counter + amount ≤ maxCount) :
    bump counter amount = counter + amount :=
  Nat.min_eq_right h

/-- An event adds what it adds, if the totals can be shown. -/
theorem recordTotals_of_fits {totals : Totals} {event : Event} (h : (totals.plus event.adds).Fits) :
    recordTotals totals event = totals.plus event.adds := by
  cases event with
  | scanStart source =>
      have hcalls : bump totals.scanCalls 1 = totals.scanCalls + 1 := bump_of_le h.scanCalls
      simp [recordTotals, hcalls, Totals.plus, Event.adds]
  | scanFinish source scanned emitted =>
      have hscanned : bump totals.scanned scanned = totals.scanned + scanned := bump_of_le h.scanned
      have hemitted : bump totals.emitted emitted = totals.emitted + emitted := bump_of_le h.emitted
      simp [recordTotals, hscanned, hemitted, Totals.plus, Event.adds]
  | shortCircuit source reason =>
      cases reason with
      | emptyScan =>
          have hempty : bump totals.emptyScans 1 = totals.emptyScans + 1 := bump_of_le h.emptyScans
          simp [recordTotals, hempty, Totals.plus, Event.adds]
      | passThrough =>
          have hpass : bump totals.passThroughScans 1 = totals.passThroughScans + 1 :=
            bump_of_le h.passThroughScans
          simp [recordTotals, hpass, Totals.plus, Event.adds]
  | remoteProbe succeeded =>
      have hprobes : bump totals.remoteProbes 1 = totals.remoteProbes + 1 :=
        bump_of_le h.remoteProbes
      cases succeeded with
      | true => simp [recordTotals, hprobes, Totals.plus, Event.adds]
      | false =>
          have hfailures : bump totals.remoteProbeFailures 1 = totals.remoteProbeFailures + 1 :=
            bump_of_le h.remoteProbeFailures
          simp [recordTotals, hprobes, hfailures, Totals.plus, Event.adds]

/-! ## The counters of the sources -/

/-- An event without a source changes the counters of none. -/
theorem recordSources_of_source_none {event : Event} (h : event.source? = none)
    (sources : List (String × SourceCounters)) : recordSources sources event = sources := by
  cases event with
  | scanStart source => cases h
  | scanFinish source scanned emitted => cases h
  | shortCircuit source reason => rfl
  | remoteProbe succeeded => rfl

variable {source : String} {change : SourceCounters → SourceCounters}
  {sources : List (String × SourceCounters)}

/-- The names of the sources: that of the event comes in addition, if it is new. -/
theorem map_fst_updateSource (source : String) (change : SourceCounters → SourceCounters)
    (sources : List (String × SourceCounters)) :
    (updateSource source change sources).map Prod.fst =
      if source ∈ sources.map Prod.fst then sources.map Prod.fst
      else sources.map Prod.fst ++ [source] := by
  induction sources with
  | nil => rfl
  | cons entry sources ih =>
      obtain ⟨name, counters⟩ := entry
      rw [updateSource]
      by_cases hname : name = source
      · simp [hname]
      · have hother : source ≠ name := fun h => hname h.symm
        rw [if_neg hname, List.map_cons, ih]
        by_cases hmem : source ∈ sources.map Prod.fst
        · rw [if_pos hmem, if_pos (by simpa using Or.inr (by simpa using hmem))]
          rfl
        · rw [if_neg hmem, if_neg (by simpa [hother] using hmem)]
          rfl

/-- Changes that agree on the counters of the source do the same. -/
theorem updateSource_congr {other : SourceCounters → SourceCounters}
    (hnew : change {} = other {})
    (hold : ∀ counters, (source, counters) ∈ sources → change counters = other counters) :
    updateSource source change sources = updateSource source other sources := by
  induction sources with
  | nil => rw [updateSource, updateSource, hnew]
  | cons entry sources ih =>
      obtain ⟨name, counters⟩ := entry
      rw [updateSource, updateSource]
      by_cases hname : name = source
      · subst hname
        rw [if_pos rfl, if_pos rfl, hold counters (List.mem_cons_self ..)]
      · rw [if_neg hname, if_neg hname,
          ih fun counters hmem => hold counters (List.mem_cons_of_mem _ hmem)]

/-- A share added at a source is added to the sum of all. -/
theorem sum_updateSource (share : SourceCounters) :
    SourceCounters.sum ((updateSource source (·.plus share) sources).map Prod.snd) =
      (SourceCounters.sum (sources.map Prod.snd)).plus share := by
  induction sources with
  | nil => simp [updateSource, SourceCounters.sum]
  | cons entry sources ih =>
      obtain ⟨name, counters⟩ := entry
      rw [updateSource]
      by_cases hname : name = source
      · rw [if_pos hname, List.map_cons, List.map_cons, SourceCounters.sum, SourceCounters.sum,
          SourceCounters.plus_right_comm]
      · rw [if_neg hname, List.map_cons, List.map_cons, SourceCounters.sum, SourceCounters.sum, ih,
          SourceCounters.plus_assoc]

/-- The counters of a source after a change: those of the source are changed, the others are not. -/
theorem mem_updateSource {entry : String × SourceCounters}
    (hnodup : (sources.map Prod.fst).Nodup) (h : entry ∈ updateSource source change sources) :
    (entry.1 ≠ source ∧ entry ∈ sources) ∨
      ∃ counters, entry = (source, change counters) ∧
        ((source, counters) ∈ sources ∨ source ∉ sources.map Prod.fst ∧ counters = {}) := by
  induction sources with
  | nil =>
      rw [updateSource, List.mem_singleton] at h
      exact .inr ⟨{}, h, .inr ⟨by simp, rfl⟩⟩
  | cons first sources ih =>
      obtain ⟨name, counters⟩ := first
      rw [List.map_cons, List.nodup_cons] at hnodup
      rw [updateSource] at h
      by_cases hname : name = source
      · subst hname
        rw [if_pos rfl, List.mem_cons] at h
        rcases h with rfl | hrest
        · exact .inr ⟨counters, rfl, .inl (List.mem_cons_self ..)⟩
        · refine .inl ⟨?_, List.mem_cons_of_mem _ hrest⟩
          rintro rfl
          exact hnodup.1 (List.mem_map.mpr ⟨entry, hrest, rfl⟩)
      · rw [if_neg hname, List.mem_cons] at h
        rcases h with rfl | hrest
        · exact .inl ⟨hname, List.mem_cons_self ..⟩
        · rcases ih hnodup.2 hrest with ⟨hne, hmem⟩ | ⟨kept, heq, hmem | ⟨hnone, hzero⟩⟩
          · exact .inl ⟨hne, List.mem_cons_of_mem _ hmem⟩
          · exact .inr ⟨kept, heq, .inl (List.mem_cons_of_mem _ hmem)⟩
          · refine .inr ⟨kept, heq, .inr ⟨?_, hzero⟩⟩
            rw [List.map_cons, List.mem_cons, not_or]
            exact ⟨fun h => hname h.symm, hnone⟩

/-! ## Totals and sources together -/

/-- **Counters that say exactly what has been recorded.**  The totals are what the events add up to.
There are counters for each source of an event and for no other, and they are what the events of the
source add up to.  All sources together give the totals. -/
structure Tally (counters : Counters) (events : List Event) : Prop where
  totals_eq : counters.totals = .exact events
  nodup_sources : (counters.sources.map Prod.fst).Nodup
  mem_sources : ∀ source, source ∈ counters.sources.map Prod.fst ↔
    ∃ event ∈ events, event.source? = some source
  source_eq : ∀ entry ∈ counters.sources, entry.2 = .exact entry.1 events
  sum_eq : SourceCounters.sum (counters.sources.map Prod.snd) =
    ⟨counters.totals.scanCalls, counters.totals.scanned, counters.totals.emitted⟩

namespace Tally

variable {counters : Counters} {events : List Event} {event : Event}

theorem empty : Tally {} [] :=
  ⟨rfl, List.nodup_nil, by simp, by simp, rfl⟩

/-- No source has more than the totals. -/
theorem within_totals (h : counters.Tally events) {kept : SourceCounters}
    (hmem : (source, kept) ∈ counters.sources) :
    kept.Within ⟨counters.totals.scanCalls, counters.totals.scanned, counters.totals.emitted⟩ := by
  rw [← h.sum_eq]
  exact SourceCounters.within_sum (List.mem_map.mpr ⟨_, hmem, rfl⟩)

/-- A source that has no counters has had no event. -/
theorem exact_of_not_mem (h : counters.Tally events)
    (hnone : source ∉ counters.sources.map Prod.fst) : SourceCounters.exact source events = {} := by
  have hempty : events.filter (fun event => event.source? = some source) = [] := by
    rw [List.filter_eq_nil_iff]
    intro event hevent hsource
    exact hnone ((h.mem_sources source).mpr ⟨event, hevent, by simpa using hsource⟩)
  rw [SourceCounters.exact, hempty]
  rfl

/-- Where the totals can be shown, an event adds its share to the counters of its source. -/
theorem recordSources_eq (h : counters.Tally events)
    (hfits : (counters.totals.plus event.adds).Fits) (hsource : event.source? = some source) :
    recordSources counters.sources event =
      updateSource source (·.plus event.share) counters.sources := by
  cases event with
  | scanStart name =>
      obtain rfl : name = source := Option.some.inj hsource
      refine updateSource_congr rfl fun kept hmem => ?_
      have hcalls : bump kept.scanCalls 1 = kept.scanCalls + 1 :=
        bump_of_le (Nat.le_trans (Nat.add_le_add_right (h.within_totals hmem).scanCalls 1)
          hfits.scanCalls)
      simp only [hcalls, SourceCounters.plus, Event.share, Event.adds, Nat.add_zero]
  | scanFinish name scanned emitted =>
      obtain rfl : name = source := Option.some.inj hsource
      have hscanned (kept : Nat) (hle : kept ≤ counters.totals.scanned) :
          bump kept scanned = kept + scanned :=
        bump_of_le (Nat.le_trans (Nat.add_le_add_right hle scanned) hfits.scanned)
      have hemitted (kept : Nat) (hle : kept ≤ counters.totals.emitted) :
          bump kept emitted = kept + emitted :=
        bump_of_le (Nat.le_trans (Nat.add_le_add_right hle emitted) hfits.emitted)
      refine updateSource_congr ?_ fun kept hmem => ?_
      · simp only [hscanned 0 (Nat.zero_le _), hemitted 0 (Nat.zero_le _), SourceCounters.plus,
          Event.share, Event.adds, Nat.add_zero]
      · have hwithin := h.within_totals hmem
        simp only [hscanned _ hwithin.scanned, hemitted _ hwithin.emitted, SourceCounters.plus,
          Event.share, Event.adds, Nat.add_zero]
  | shortCircuit name reason => cases hsource
  | remoteProbe succeeded => cases hsource

/-- The totals after one more event. -/
theorem totals_record (h : counters.Tally events)
    (hfits : (counters.totals.plus event.adds).Fits) :
    (counters.record event).totals = .exact (events ++ [event]) := by
  rw [Totals.exact_concat, ← h.totals_eq]
  exact recordTotals_of_fits hfits

/-- One more event without a source. -/
theorem record_of_source_none (h : counters.Tally events)
    (hfits : (counters.totals.plus event.adds).Fits) (hsource : event.source? = none) :
    (counters.record event).Tally (events ++ [event]) := by
  have hsources : (counters.record event).sources = counters.sources :=
    recordSources_of_source_none hsource counters.sources
  refine ⟨h.totals_record hfits, ?_, fun source => ?_, fun entry hentry => ?_, ?_⟩
  · rw [hsources]
    exact h.nodup_sources
  · rw [hsources, h.mem_sources]
    simp [hsource]
  · rw [hsources] at hentry
    rw [h.source_eq entry hentry, SourceCounters.exact_concat, hsource, if_neg (by simp)]
  · rw [hsources, h.sum_eq, h.totals_record hfits, Totals.exact_concat, ← h.totals_eq]
    refine (SourceCounters.plus_zero _).symm.trans ?_
    rw [← Event.share_of_source_none hsource]
    rfl

/-- One more event with a source: the source is one that has been there, or a new one. -/
theorem record_of_source_some {name : String} (h : counters.Tally events)
    (hfits : (counters.totals.plus event.adds).Fits) (hsource : event.source? = some name) :
    (counters.record event).Tally (events ++ [event]) := by
  have hsources : (counters.record event).sources =
      updateSource name (·.plus event.share) counters.sources :=
    h.recordSources_eq hfits hsource
  have hnames := map_fst_updateSource name (·.plus event.share) counters.sources
  refine ⟨h.totals_record hfits, ?_, fun source => ?_, fun entry hentry => ?_, ?_⟩
  · rw [hsources, hnames]
    split_ifs with hmem
    · exact h.nodup_sources
    · rw [← List.concat_eq_append]
      exact h.nodup_sources.concat hmem
  · have hevents : (∃ other ∈ events ++ [event], other.source? = some source) ↔
        source ∈ counters.sources.map Prod.fst ∨ source = name := by
      rw [h.mem_sources]
      simp [or_and_right, exists_or, hsource, eq_comm]
    rw [hsources, hnames, hevents]
    split_ifs with hmem
    · exact ⟨.inl, fun hor => hor.elim id fun hsame => hsame ▸ hmem⟩
    · rw [List.mem_append, List.mem_singleton]
  · rw [hsources] at hentry
    rw [SourceCounters.exact_concat, hsource]
    rcases mem_updateSource h.nodup_sources hentry with
      ⟨hne, hmem⟩ | ⟨kept, rfl, hmem | ⟨hnone, rfl⟩⟩
    · rw [if_neg fun hsame => hne (Option.some.inj hsame).symm, h.source_eq entry hmem]
    · rw [if_pos rfl, ← h.source_eq _ hmem]
    · rw [if_pos rfl, h.exact_of_not_mem hnone]
  · rw [hsources, sum_updateSource, h.sum_eq, h.totals_record hfits, Totals.exact_concat,
      ← h.totals_eq]
    rfl

/-- **One more event.** -/
theorem record (h : counters.Tally events) (hfits : (Totals.exact (events ++ [event])).Fits) :
    (counters.record event).Tally (events ++ [event]) := by
  rw [Totals.exact_concat, ← h.totals_eq] at hfits
  cases hsource : event.source? with
  | none => exact h.record_of_source_none hfits hsource
  | some name => exact h.record_of_source_some hfits hsource

end Tally

/-- **The counters say exactly what has been recorded**, as long as the totals of the events can be
shown.  The induction takes the events from the last one on. -/
theorem tally_of {events : List Event} (h : (Totals.exact events).Fits) : (of events).Tally events := by
  induction events using List.reverseRecOn with
  | nil => exact .empty
  | append_singleton events event ih =>
      rw [of_concat]
      have hbefore := h
      rw [Totals.exact_concat] at hbefore
      exact (ih hbefore.of_plus).record h

end Counters

end GraphScan
