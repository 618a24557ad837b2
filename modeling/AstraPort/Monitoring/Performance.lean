import Mathlib.Data.Rat.Floor
import Mathlib.Tactic.Linarith
import AstraPort.Foundation.Machine
import AstraPort.Foundation.Sorting

/- PerformanceService: the last durations, the counts of requests, and the times of those of the
   last minute. Numbers are exact, instants are epoch milliseconds. -/
namespace AstraPort.Monitoring

structure LatencyMs where
  p50 : Rat
  p90 : Rat
  p95 : Rat
  p99 : Rat
  avg : Rat
  min : Rat
  max : Rat
  deriving DecidableEq

structure ApmPerformanceSummary where
  rps : Rat
  totalRequests : Nat
  errorCount : Nat
  errorRatePercentage : Rat
  latencyMs : LatencyMs
  activeRequests : Nat
  deriving DecidableEq

structure PerformanceService where
  latenciesBuffer : List Rat
  totalRequestsCount : Nat
  errorRequestsCount : Nat
  activeRequestsCount : Nat
  requestTimestamps : List Int
  deriving DecidableEq

/-- Math.round: halves go up. -/
def mathRound (x : Rat) : Int := ⌊x + 1 / 2⌋

theorem mathRound_lt {x y : Rat} (apart : x + 1 ≤ y) : mathRound x < mathRound y := by
  have moved : x + 1 / 2 + 1 ≤ y + 1 / 2 := by linarith
  have floors := Int.floor_le_floor moved
  rw [Int.floor_add_one] at floors
  simp only [mathRound]
  omega

namespace PerformanceService

def maxBufferSize : Nat := 5000

def initial : PerformanceService := ⟨[], 0, 0, 0, []⟩

def recordRequest (service : PerformanceService) (durationMs : Rat) (statusCode : Nat)
    (now : Int) : PerformanceService where
  latenciesBuffer :=
    let pushed := service.latenciesBuffer ++ [durationMs]
    if maxBufferSize < pushed.length then pushed.tail else pushed
  totalRequestsCount := service.totalRequestsCount + 1
  errorRequestsCount := service.errorRequestsCount + if 400 ≤ statusCode then 1 else 0
  activeRequestsCount := service.activeRequestsCount
  requestTimestamps := (service.requestTimestamps ++ [now]).dropWhile fun t => t < now - 60000

def incrementActiveRequests (service : PerformanceService) : PerformanceService :=
  { service with activeRequestsCount := service.activeRequestsCount + 1 }

/-- The difference stops at zero. -/
def decrementActiveRequests (service : PerformanceService) : PerformanceService :=
  { service with activeRequestsCount := service.activeRequestsCount - 1 }

def getPercentile (sorted : List Rat) (percentile : Nat) : Rat :=
  let index := ⌈(percentile / 100 : Rat) * sorted.length⌉ - 1
  let clampedIndex := max 0 (min index (sorted.length - 1))
  mathRound (sorted.getD clampedIndex.toNat 0 * 100) / 100

def latencies (sorted : List Rat) : LatencyMs :=
  let count := sorted.length
  if 0 < count then
    { p50 := getPercentile sorted 50
      p90 := getPercentile sorted 90
      p95 := getPercentile sorted 95
      p99 := getPercentile sorted 99
      avg := mathRound (sorted.foldl (· + ·) 0 / count * 100) / 100
      min := sorted.getD 0 0
      max := sorted.getD (count - 1) 0 }
  else ⟨0, 0, 0, 0, 0, 0, 0⟩

def getSummary (service : PerformanceService) : ApmPerformanceSummary where
  rps := mathRound ((service.requestTimestamps.length / 60 : Rat) * 100) / 100
  totalRequests := service.totalRequestsCount
  errorCount := service.errorRequestsCount
  errorRatePercentage :=
    if 0 < service.totalRequestsCount then
      mathRound ((service.errorRequestsCount / service.totalRequestsCount : Rat) * 10000) / 100
    else 0
  latencyMs := latencies (stableSort compare service.latenciesBuffer)
  activeRequests := service.activeRequestsCount

end PerformanceService

inductive PerformanceCall where
  | recordRequest (durationMs : Rat) (statusCode : Nat)
  | incrementActiveRequests
  | decrementActiveRequests
  | getSummary
  deriving DecidableEq

/-- A call and the clock at it; reading the summary does not look at the clock. -/
structure PerformanceEvent where
  call : PerformanceCall
  now : Int
  deriving DecidableEq

def performanceStep (service : PerformanceService) (event : PerformanceEvent) :
    PerformanceService × Option ApmPerformanceSummary :=
  match event.call with
  | .recordRequest durationMs statusCode =>
    (service.recordRequest durationMs statusCode event.now, none)
  | .incrementActiveRequests => (service.incrementActiveRequests, none)
  | .decrementActiveRequests => (service.decrementActiveRequests, none)
  | .getSummary => (service, some service.getSummary)

def performanceMachine :
    Machine PerformanceService PerformanceEvent (Option ApmPerformanceSummary) :=
  ⟨PerformanceService.initial, fun service event => some (performanceStep service event)⟩

abbrev PerformancePast := List (PerformanceEvent × Option ApmPerformanceSummary)

/-- When requests were recorded, newest first. -/
def requestTimes (past : PerformancePast) : List Int :=
  past.filterMap fun e =>
    match e.1.call with
    | .recordRequest _ _ => some e.1.now
    | _ => none

/-- How many requests were recorded from a time on. -/
def requestsSince (cutoff : Int) (past : PerformancePast) : Nat :=
  (requestTimes past).countP fun t => cutoff ≤ t

/-- The throughput reported is that of the minute before the reading. -/
def ReflectsLastMinute (service : PerformanceService) (past : PerformancePast) (now : Int) : Prop :=
  service.getSummary.rps =
    mathRound ((requestsSince (now - 60000) past / 60 : Rat) * 100) / 100

instance (service : PerformanceService) (past : PerformancePast) (now : Int) :
    Decidable (ReflectsLastMinute service past now) :=
  inferInstanceAs (Decidable (service.getSummary.rps = _))

/- Rounded to hundredths the rates of different counts differ: a request more adds 5/3. -/
theorem rate_injective {n m : Nat}
    (same : (mathRound ((n / 60 : Rat) * 100) / 100 : Rat) =
      mathRound ((m / 60 : Rat) * 100) / 100) : n = m := by
  have increases {a b : Nat} (less : a < b) :
      mathRound ((a / 60 : Rat) * 100) < mathRound ((b / 60 : Rat) * 100) := by
    apply mathRound_lt
    have next : (a : Rat) + 1 ≤ b := by exact_mod_cast less
    linarith
  have rounded : mathRound ((n / 60 : Rat) * 100) = mathRound ((m / 60 : Rat) * 100) := by
    have scaled := (div_left_inj' (by norm_num : (100 : Rat) ≠ 0)).mp same
    exact_mod_cast scaled
  rcases Nat.lt_trichotomy n m with less | equal | greater
  · exact absurd rounded (increases less).ne
  · exact equal
  · exact absurd rounded.symm (increases greater).ne

/- On a list in order, dropping from the front is filtering. -/
theorem dropWhile_lt_sorted (cutoff : Int) {times : List Int} (sorted : times.Pairwise (· ≤ ·)) :
    times.dropWhile (fun t => t < cutoff) = times.filter fun t => cutoff ≤ t := by
  induction times with
  | nil => rfl
  | cons first rest ih =>
    obtain ⟨least, sorted⟩ := List.pairwise_cons.mp sorted
    by_cases old : first < cutoff
    · rw [List.dropWhile_cons_of_pos (by simpa using old),
        List.filter_cons_of_neg (by simpa using old), ih sorted]
    · rw [List.dropWhile_cons_of_neg (by simpa using old)]
      have recent : ∀ t ∈ first :: rest, cutoff ≤ t := by
        intro t member
        rcases List.mem_cons.mp member with rfl | later
        · omega
        · have above := least t later
          omega
      exact (List.filter_eq_self.mpr fun t member => decide_eq_true (recent t member)).symm

/-- No request was recorded more than a minute after this time. -/
def fresh (times : List Int) (t : Int) : Bool := times.all fun u => u - 60000 ≤ t

/-- What the service keeps of a run: the fresh times, oldest first. -/
structure Windowed (past : PerformancePast) (service : PerformanceService) : Prop where
  kept : service.requestTimestamps = ((requestTimes past).filter (fresh (requestTimes past))).reverse
  sorted : (requestTimes past).Pairwise (· ≥ ·)
  within : ∀ t ∈ requestTimes past, ∃ e ∈ past, e.1.now = t

section Window
variable {past : PerformancePast} {service : PerformanceService}

theorem Windowed.recorded (windowed : Windowed past service) (durationMs : Rat) (statusCode : Nat)
    {now : Int} (latest : ∀ e ∈ past, e.1.now ≤ now)
    (answer : Option ApmPerformanceSummary) :
    Windowed ((⟨.recordRequest durationMs statusCode, now⟩, answer) :: past)
      (service.recordRequest durationMs statusCode now) := by
  have times : requestTimes ((⟨.recordRequest durationMs statusCode, now⟩, answer) :: past) =
      now :: requestTimes past := rfl
  have newest : ∀ t ∈ requestTimes past, t ≤ now := by
    intro t member
    obtain ⟨e, exchanged, rfl⟩ := windowed.within t member
    exact latest e exchanged
  constructor
  · have ordered : (service.requestTimestamps ++ [now]).Pairwise (· ≤ ·) := by
      rw [windowed.kept, List.pairwise_append]
      refine ⟨List.pairwise_reverse.mpr (windowed.sorted.filter _), List.pairwise_singleton _ _, ?_⟩
      intro t member u single
      obtain rfl := List.mem_singleton.mp single
      exact newest t (List.mem_filter.mp (List.mem_reverse.mp member)).1
    have again : fresh (now :: requestTimes past) now = true := by
      simp only [fresh, List.all_cons, List.all_eq_true, Bool.and_eq_true, decide_eq_true_eq]
      refine ⟨by omega, fun u member => ?_⟩
      have before := newest u member
      omega
    have both : (now :: requestTimes past).filter (fresh (now :: requestTimes past)) =
        now :: ((requestTimes past).filter (fresh (requestTimes past))).filter
          fun t => now - 60000 ≤ t := by
      rw [List.filter_cons_of_pos again, List.filter_filter]
      rfl
    have step : (service.recordRequest durationMs statusCode now).requestTimestamps =
        (service.requestTimestamps ++ [now]).dropWhile fun t => t < now - 60000 := rfl
    have kept_now : now - 60000 ≤ now := by omega
    rw [step, dropWhile_lt_sorted _ ordered, times, both, windowed.kept, List.filter_append,
      List.filter_reverse, List.reverse_cons, List.filter_singleton]
    simp [kept_now]
  · rw [times]
    exact List.pairwise_cons.mpr ⟨newest, windowed.sorted⟩
  · intro t member
    rw [times] at member
    rcases List.mem_cons.mp member with rfl | before
    · exact ⟨_, List.mem_cons_self, rfl⟩
    · obtain ⟨e, exchanged, at_t⟩ := windowed.within t before
      exact ⟨e, List.mem_cons_of_mem _ exchanged, at_t⟩

theorem Windowed.unrecorded (windowed : Windowed past service) {after : PerformanceService}
    {e : PerformanceEvent × Option ApmPerformanceSummary}
    (silent : requestTimes (e :: past) = requestTimes past)
    (same : after.requestTimestamps = service.requestTimestamps) : Windowed (e :: past) after := by
  constructor
  · rw [same, silent, windowed.kept]
  · rw [silent]
    exact windowed.sorted
  · intro t member
    rw [silent] at member
    obtain ⟨before, exchanged, at_t⟩ := windowed.within t member
    exact ⟨before, List.mem_cons_of_mem _ exchanged, at_t⟩

theorem windowed_run
    (run : performanceMachine.Run (Machine.ClockAdvances PerformanceEvent.now) past service) :
    Windowed past service := by
  refine run.invariant Windowed ⟨rfl, List.Pairwise.nil, by simp [requestTimes]⟩ ?_
  intro past service event after answer _ windowed latest moved
  obtain ⟨call, now⟩ := event
  cases call with
  | recordRequest durationMs statusCode =>
    obtain ⟨rfl, rfl⟩ := Prod.mk.inj (Option.some.inj moved)
    exact windowed.recorded durationMs statusCode latest none
  | incrementActiveRequests =>
    obtain ⟨rfl, rfl⟩ := Prod.mk.inj (Option.some.inj moved)
    exact windowed.unrecorded rfl rfl
  | decrementActiveRequests =>
    obtain ⟨rfl, rfl⟩ := Prod.mk.inj (Option.some.inj moved)
    exact windowed.unrecorded rfl rfl
  | getSummary =>
    obtain ⟨rfl, rfl⟩ := Prod.mk.inj (Option.some.inj moved)
    exact windowed.unrecorded rfl rfl

/- The requests of the minute before a reading are all kept; the count is right when nothing else
   is. -/
theorem Windowed.reflects_iff (windowed : Windowed past service) {now : Int}
    (latest : ∀ e ∈ past, e.1.now ≤ now) : ReflectsLastMinute service past now ↔
      ∀ t ∈ (requestTimes past).filter (fresh (requestTimes past)), now - 60000 ≤ t := by
  have kept : ∀ t ∈ requestTimes past, now - 60000 ≤ t → fresh (requestTimes past) t = true := by
    intro t _ recent
    simp only [fresh, List.all_eq_true, decide_eq_true_eq]
    intro u member
    obtain ⟨e, exchanged, rfl⟩ := windowed.within u member
    have before := latest e exchanged
    omega
  have counted : requestsSince (now - 60000) past =
      ((requestTimes past).filter (fresh (requestTimes past))).countP
        fun t => now - 60000 ≤ t := by
    rw [requestsSince, List.countP_filter]
    refine List.countP_congr fun t member => ?_
    simp only [decide_eq_true_eq, Bool.and_eq_true]
    exact ⟨fun recent => ⟨recent, kept t member recent⟩, And.left⟩
  have length : service.requestTimestamps.length =
      ((requestTimes past).filter (fresh (requestTimes past))).length := by
    rw [windowed.kept, List.length_reverse]
  have counts : ReflectsLastMinute service past now ↔
      requestsSince (now - 60000) past = service.requestTimestamps.length := by
    constructor
    · exact fun same => (rate_injective same).symm
    · intro same
      rw [ReflectsLastMinute, same]
      rfl
  rw [counts, counted, length, List.countP_eq_length]
  simp only [decide_eq_true_eq]

end Window

/-- Every request that is more than a minute old was that already when a later one was recorded;
    only recording looks at the clock. -/
def OldOnesSeenOff (past : PerformancePast) (now : Int) : Prop :=
  ∀ t ∈ requestTimes past, t < now - 60000 → ∃ u ∈ requestTimes past, t < u - 60000

instance (past : PerformancePast) (now : Int) : Decidable (OldOnesSeenOff past now) :=
  inferInstanceAs (Decidable (∀ t ∈ requestTimes past, _ → _))

/-- At every time after a run the throughput reported is that of the last minute exactly when every
    older request was already more than a minute old at a later one. -/
theorem throughput_exact_iff {past : PerformancePast} {service : PerformanceService}
    (run : performanceMachine.Run (Machine.ClockAdvances PerformanceEvent.now) past service)
    {now : Int} (latest : ∀ e ∈ past, e.1.now ≤ now) :
    ReflectsLastMinute service past now ↔ OldOnesSeenOff past now := by
  rw [(windowed_run run).reflects_iff latest]
  have dropped (t : Int) : fresh (requestTimes past) t = false ↔
      ∃ u ∈ requestTimes past, t < u - 60000 := by
    simp only [fresh, List.all_eq_false, decide_eq_true_eq, not_le]
  constructor
  · intro recent t member old
    rw [← dropped]
    by_contra kept
    have within := recent t (List.mem_filter.mpr ⟨member, Bool.eq_true_of_not_eq_false kept⟩)
    omega
  · intro seen t member
    obtain ⟨member, kept⟩ := List.mem_filter.mp member
    by_contra old
    rw [(dropped t).mpr (seen t member (by omega))] at kept
    cases kept

/-- Two requests ninety seconds apart, read ten seconds later. -/
theorem throughput_exact_after_requests :
    ∃ past service, past.map (fun e => e.1.now) = [90000, 5000, 0] ∧
      performanceMachine.Run (Machine.ClockAdvances PerformanceEvent.now) past service ∧
      ReflectsLastMinute service past 100000 := by
  have first : performanceMachine.Run (Machine.ClockAdvances PerformanceEvent.now) _ _ :=
    Machine.Run.start.next (i := ⟨.recordRequest 12 200, 0⟩) (by decide) rfl
  have second := first.next (i := ⟨.incrementActiveRequests, 5000⟩) (by decide) rfl
  have third := second.next (i := ⟨.recordRequest 30 500, 90000⟩) (by decide) rfl
  exact ⟨_, _, rfl, third, (throughput_exact_iff third (by decide)).mpr (by decide)⟩

/-- One request, and a reading two minutes later: it is still counted. -/
theorem idle_service_reports_throughput :
    ¬ ∀ past service now,
      performanceMachine.Run (Machine.ClockAdvances PerformanceEvent.now) past service →
      (∀ e ∈ past, e.1.now ≤ now) → ReflectsLastMinute service past now := by
  intro exact_always
  have run : performanceMachine.Run (Machine.ClockAdvances PerformanceEvent.now) _ _ :=
    Machine.Run.start.next (i := ⟨.recordRequest 12 200, 0⟩) (by decide) rfl
  exact absurd (exact_always _ _ 120000 run (by decide)) (by decide +kernel)

end AstraPort.Monitoring
