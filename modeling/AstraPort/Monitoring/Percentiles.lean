import Mathlib.Data.List.GetD
import Mathlib.Order.Compare
import AstraPort.Foundation.NearestRank
import AstraPort.Foundation.Recent
import AstraPort.Monitoring.Performance

/- The latency percentiles a summary reports, counted in the durations still buffered. -/
namespace AstraPort.Monitoring
open PerformanceService

/-- The durations recorded, newest first. -/
def durations (past : PerformancePast) : List Rat :=
  past.filterMap fun e =>
    match e.1.call with
    | .recordRequest durationMs _ => some durationMs
    | _ => none

/-- The last of them, as many as are kept. -/
def recentDurations (past : PerformancePast) : List Rat := (durations past).take maxBufferSize

def Buffered (past : PerformancePast) (service : PerformanceService) : Prop :=
  service.latenciesBuffer = (recentDurations past).reverse

/- A value pushed at the end, and the first shifted out when there are too many. -/
theorem push_latency (recorded : List Rat) (d : Rat) :
    (if maxBufferSize < ((recorded.take maxBufferSize).reverse ++ [d]).length then
      ((recorded.take maxBufferSize).reverse ++ [d]).tail
    else (recorded.take maxBufferSize).reverse ++ [d]) =
      ((d :: recorded).take maxBufferSize).reverse := by
  have kept := push_recent d (List.length_take_le maxBufferSize recorded)
  rw [push_take] at kept
  rw [← List.reverse_cons, List.length_reverse, List.tail_reverse, ← kept]
  split
  · rfl
  · rfl

theorem buffered_run {permit : Machine.Permit PerformanceService PerformanceEvent
    (Option ApmPerformanceSummary)} {past : PerformancePast} {service : PerformanceService}
    (run : performanceMachine.Run permit past service) : Buffered past service := by
  refine run.invariant Buffered rfl ?_
  intro past service event after answer _ buffered _ moved
  obtain ⟨call, now⟩ := event
  cases call with
  | recordRequest durationMs statusCode =>
    obtain ⟨rfl, rfl⟩ := Prod.mk.inj (Option.some.inj moved)
    have pushed := push_latency (durations past) durationMs
    rw [← recentDurations, ← show service.latenciesBuffer = _ from buffered] at pushed
    exact pushed
  | incrementActiveRequests =>
    obtain ⟨rfl, rfl⟩ := Prod.mk.inj (Option.some.inj moved)
    exact buffered
  | decrementActiveRequests =>
    obtain ⟨rfl, rfl⟩ := Prod.mk.inj (Option.some.inj moved)
    exact buffered
  | getSummary =>
    obtain ⟨rfl, rfl⟩ := Prod.mk.inj (Option.some.inj moved)
    exact buffered

/- Rounding to hundredths leaves whole numbers as they are. -/
theorem mathRound_whole (k : Int) : (mathRound ((k : Rat) * 100) / 100 : Rat) = k := by
  have scaled : mathRound ((k : Rat) * 100) = k * 100 := by
    rw [mathRound, Int.floor_eq_iff]
    push_cast
    constructor
    · linarith
    · linarith
  rw [scaled]
  push_cast
  exact mul_div_cancel_right₀ _ (by norm_num)

/- The place read for a percentile, in whole numbers. -/
theorem percentile_place {percent count : Nat} (positive : 0 < percent) (most : percent ≤ 100)
    (some_values : 0 < count) :
    ∃ place : Nat, place < count ∧ percent * count ≤ 100 * (place + 1) ∧
      100 * place < percent * count ∧
      (max 0 (min (⌈(percent / 100 : Rat) * count⌉ - 1) ((count : Int) - 1))).toNat = place := by
  have product : 0 < percent * count := Nat.mul_pos positive some_values
  have within : percent * count ≤ 100 * count := Nat.mul_le_mul_right count most
  refine ⟨(percent * count - 1) / 100, by omega, by omega, by omega, ?_⟩
  have ceiling :
      ⌈(percent / 100 : Rat) * count⌉ = (((percent * count - 1) / 100 + 1 : Nat) : Int) := by
    have lower : 100 * ((percent * count - 1) / 100) + 1 ≤ percent * count := by omega
    have upper : percent * count ≤ 100 * ((percent * count - 1) / 100) + 100 := by omega
    have lower' : (100 : Rat) * ((percent * count - 1) / 100 : Nat) + 1 ≤ percent * count := by
      exact_mod_cast lower
    have upper' : (percent : Rat) * count ≤ 100 * ((percent * count - 1) / 100 : Nat) + 100 := by
      exact_mod_cast upper
    have scaled : (percent / 100 : Rat) * count = percent * count / 100 := by ring
    rw [Int.ceil_eq_iff, scaled, Int.cast_natCast, Nat.cast_add, Nat.cast_one]
    constructor
    · linarith
    · linarith
  rw [ceiling]
  omega

/- Sorting by comparison is sorting by the order. -/
theorem sorted_durations (values : List Rat) :
    (stableSort compare values).Pairwise (· ≤ ·) := by
  have ordered := stableSort_sorted (compare : Rat → Rat → Ordering) values
  exact ordered.imp fun a_le_b => compare_le_iff_le.mp (Ordering.isLE_iff_ne_gt.mp a_le_b)

section Sorted
variable {sorted : List Rat} (ordered : sorted.Pairwise (· ≤ ·))
  (whole : ∀ d ∈ sorted, ∃ k : Int, d = k) (recorded : 0 < sorted.length)
include ordered whole recorded

theorem getPercentile_rank {percent : Nat} (positive : 0 < percent) (most : percent ≤ 100) :
    NearestRank percent sorted (getPercentile sorted percent) := by
  obtain ⟨place, bound, above, below, read⟩ := percentile_place positive most recorded
  obtain ⟨k, at_place⟩ := whole _ (List.getElem_mem bound)
  have value : getPercentile sorted percent = sorted[place] := by
    simp only [getPercentile]
    rw [read, List.getD_eq_getElem _ _ bound, at_place]
    exact mathRound_whole k
  rw [value]
  exact nearestRank_at ordered bound above below

end Sorted

/-- What a summary says of the durations counted: the percentiles, the least and the greatest. -/
structure Summarises (latency : LatencyMs) (counted : List Rat) : Prop where
  p50 : NearestRank 50 counted latency.p50
  p90 : NearestRank 90 counted latency.p90
  p95 : NearestRank 95 counted latency.p95
  p99 : NearestRank 99 counted latency.p99
  min_attained : latency.min ∈ counted
  min_least : ∀ d ∈ counted, latency.min ≤ d
  max_attained : latency.max ∈ counted
  max_greatest : ∀ d ∈ counted, d ≤ latency.max

namespace Summarises
variable {latency : LatencyMs} {counted others : List Rat}

theorem perm (summary : Summarises latency counted) (same : counted.Perm others) :
    Summarises latency others where
  p50 := summary.p50.perm same
  p90 := summary.p90.perm same
  p95 := summary.p95.perm same
  p99 := summary.p99.perm same
  min_attained := same.subset summary.min_attained
  min_least d member := summary.min_least d (same.symm.subset member)
  max_attained := same.subset summary.max_attained
  max_greatest d member := summary.max_greatest d (same.symm.subset member)

theorem ordered (summary : Summarises latency counted) :
    latency.min ≤ latency.p50 ∧ latency.p50 ≤ latency.p90 ∧ latency.p90 ≤ latency.p95 ∧
      latency.p95 ≤ latency.p99 ∧ latency.p99 ≤ latency.max := by
  refine ⟨?_, ?_, ?_, ?_, ?_⟩
  · exact summary.min_least _ summary.p50.attained
  · exact summary.p50.mono summary.p90 (by decide)
  · exact summary.p90.mono summary.p95 (by decide)
  · exact summary.p95.mono summary.p99 (by decide)
  · exact summary.max_greatest _ summary.p99.attained

end Summarises

theorem latencies_summarise {sorted : List Rat} (ordered : sorted.Pairwise (· ≤ ·))
    (whole : ∀ d ∈ sorted, ∃ k : Int, d = k) (recorded : 0 < sorted.length) :
    Summarises (latencies sorted) sorted := by
  have rank {percent : Nat} (positive : 0 < percent) (most : percent ≤ 100) :=
    getPercentile_rank ordered whole recorded positive most
  have last : sorted.length - 1 < sorted.length := by omega
  have first_value : (latencies sorted).min = sorted[0] := by
    rw [latencies, if_pos recorded, List.getD_eq_getElem _ _ recorded]
  have last_value : (latencies sorted).max = sorted[sorted.length - 1] := by
    rw [latencies, if_pos recorded, List.getD_eq_getElem _ _ last]
  have percentiles : (latencies sorted).p50 = getPercentile sorted 50 ∧
      (latencies sorted).p90 = getPercentile sorted 90 ∧
      (latencies sorted).p95 = getPercentile sorted 95 ∧
      (latencies sorted).p99 = getPercentile sorted 99 := by
    simp only [latencies, if_pos recorded, and_self]
  constructor
  · rw [percentiles.1]
    exact rank (by decide) (by decide)
  · rw [percentiles.2.1]
    exact rank (by decide) (by decide)
  · rw [percentiles.2.2.1]
    exact rank (by decide) (by decide)
  · rw [percentiles.2.2.2]
    exact rank (by decide) (by decide)
  · rw [first_value]
    exact List.getElem_mem recorded
  · intro d member
    obtain ⟨i, inside, rfl⟩ := List.getElem_of_mem member
    rw [first_value]
    exact place_le_place ordered (Nat.zero_le i) inside
  · rw [last_value]
    exact List.getElem_mem last
  · intro d member
    obtain ⟨i, inside, rfl⟩ := List.getElem_of_mem member
    rw [last_value]
    exact place_le_place ordered (Nat.le_sub_one_of_lt inside) last

/-- When whole durations have been recorded, a summary reports the nearest-rank percentiles of the
    last of them, as many as are buffered, between the least and the greatest of these. -/
theorem percentiles_nearest_rank {past : PerformancePast} {service : PerformanceService}
    (run : performanceMachine.Run Machine.anything past service)
    (whole : ∀ d ∈ durations past, ∃ k : Int, d = k) (recorded : durations past ≠ []) :
    Summarises service.getSummary.latencyMs (recentDurations past) ∧
      service.getSummary.latencyMs.min ≤ service.getSummary.latencyMs.p50 ∧
      service.getSummary.latencyMs.p50 ≤ service.getSummary.latencyMs.p90 ∧
      service.getSummary.latencyMs.p90 ≤ service.getSummary.latencyMs.p95 ∧
      service.getSummary.latencyMs.p95 ≤ service.getSummary.latencyMs.p99 ∧
      service.getSummary.latencyMs.p99 ≤ service.getSummary.latencyMs.max := by
  have buffered : service.latenciesBuffer = (recentDurations past).reverse := buffered_run run
  have same : (stableSort compare service.latenciesBuffer).Perm (recentDurations past) := by
    rw [buffered]
    exact (stableSort_perm compare _).trans (List.reverse_perm _)
  have whole_sorted : ∀ d ∈ stableSort compare service.latenciesBuffer, ∃ k : Int, d = k :=
    fun d member => whole d (List.mem_of_mem_take (same.subset member))
  have positive : 0 < (stableSort compare service.latenciesBuffer).length := by
    have some_durations := List.length_pos_iff.mpr recorded
    have kept : 0 < maxBufferSize := by decide
    rw [same.length_eq, recentDurations, List.length_take]
    omega
  have summary := (latencies_summarise (sorted_durations service.latenciesBuffer) whole_sorted
    positive).perm same
  exact ⟨summary, summary.ordered⟩

/-- Three requests out of order: the median is the middle one, and p90 is the greatest. -/
theorem percentiles_nearest_rank_three :
    ∃ past service, durations past = [20, 30, 10] ∧
      performanceMachine.Run Machine.anything past service ∧
      service.getSummary.latencyMs.p50 = 20 ∧ service.getSummary.latencyMs.p90 = 30 ∧
      NearestRank 50 (recentDurations past) service.getSummary.latencyMs.p50 := by
  have first : performanceMachine.Run Machine.anything _ _ :=
    Machine.Run.start.next (i := ⟨.recordRequest 10 200, 0⟩) trivial rfl
  have second := first.next (i := ⟨.recordRequest 30 404, 5⟩) trivial rfl
  have third := second.next (i := ⟨.recordRequest 20 200, 9⟩) trivial rfl
  have whole : ∀ d ∈ [(20 : Rat), 30, 10], ∃ k : Int, d = k := by
    intro d member
    simp only [List.mem_cons, List.not_mem_nil, or_false] at member
    rcases member with rfl | rfl | rfl
    · exact ⟨20, rfl⟩
    · exact ⟨30, rfl⟩
    · exact ⟨10, rfl⟩
  exact ⟨_, _, rfl, third, by decide +kernel, by decide +kernel,
    (percentiles_nearest_rank third whole (by decide)).1.p50⟩

end AstraPort.Monitoring
