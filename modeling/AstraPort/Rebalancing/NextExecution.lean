import Mathlib.Tactic.Linarith
import Mathlib.Tactic.NormNum
import AstraPort.Rebalancing.Schedules

/- The next execution of a schedule. It is told as one interval after the start, whatever the time
   is, so it is the first execution ahead during the first interval only. -/
namespace AstraPort.Rebalancing

section Grid

/-- A time after now that lies a whole number of periods after the start. -/
def Ahead (start period now time : Rat) : Prop := now < time ∧ ∃ k : Nat, time = start + k * period

def EarliestAhead (start period now time : Rat) : Prop :=
  Ahead start period now time ∧ ∀ other, Ahead start period now other → time ≤ other

theorem first_period_earliest_iff {start period now : Rat} (positive : 0 < period) :
    EarliestAhead start period now (start + period) ↔ start ≤ now ∧ now < start + period := by
  constructor
  · intro earliest
    refine ⟨?_, earliest.1.1⟩
    by_contra early
    have at_start : Ahead start period now start := ⟨not_le.mp early, 0, by simp⟩
    have bound := earliest.2 start at_start
    linarith
  · intro within
    refine ⟨⟨within.2, 1, by simp⟩, ?_⟩
    intro other ahead
    obtain ⟨later, k, rfl⟩ := ahead
    cases k with
    | zero =>
      push_cast at later
      linarith
    | succ k =>
      have more : 0 ≤ k * period := mul_nonneg (Nat.cast_nonneg k) positive.le
      push_cast
      linarith

end Grid

theorem isoInstant_near {t : Rat} {instant : Int} (formatted : isoInstant t = .ok instant) :
    |(instant : Rat) - t| < 1 := by
  unfold isoInstant at formatted
  split at formatted
  · cases formatted
    split
    · have above := Int.le_ceil t
      have below := Int.ceil_lt_add_one t
      rw [abs_lt]
      exact ⟨by linarith, by linarith⟩
    · have below := Int.floor_le t
      have above := Int.lt_floor_add_one t
      rw [abs_lt]
      exact ⟨by linarith, by linarith⟩
  · cases formatted

theorem isoInstant_whole {t : Rat} {instant : Int} (whole : t = instant) (within : |t| ≤ maxDate) :
    isoInstant t = .ok instant := by
  rw [isoInstant, if_pos within, whole]
  simp

/- A grid point that a date less than a millisecond away from it stands for is that date. -/
theorem grid_point_of_near {start period time : Rat} (k : Nat) (long : 1 ≤ period)
    (grid : time = start + k * period) (near : |time - (start + period)| < 1) :
    time = start + period := by
  obtain ⟨low, high⟩ := abs_lt.mp near
  rcases Nat.lt_trichotomy k 1 with none | one | more
  · obtain rfl : k = 0 := by omega
    push_cast at grid
    linarith
  · subst k
    push_cast at grid
    linarith
  · have two : (2 : Rat) ≤ k := by exact_mod_cast more
    have long' : 2 * period ≤ k * period := mul_le_mul_of_nonneg_right two (by linarith)
    linarith

theorem validated_interval {schedule : ScheduleProperties} {interval : Rat}
    (valid : (validateSchedule schedule).valid = true)
    (paced : schedule.intervalMinutes = some interval) : 1 ≤ interval := by
  by_contra short
  simp [validateSchedule, paced, not_le.mp short] at valid

/-- The start of a schedule is a date. -/
def StartsAt (dateParse : String → Option Date) (schedule : ScheduleProperties) (start : Date) :
    Prop := ∃ text, schedule.startAt = some text ∧ text ≠ "" ∧ dateParse text = some start

theorem nextExecution_started {dateParse : String → Option Date} {service : ScheduleService}
    {portfolioId : String} {schedule : RebalancingScheduleResponse} {start : Date} {interval : Rat}
    (now : Int) (stored : service.getSchedule portfolioId = some schedule)
    (enabled : schedule.enabled = some true)
    (starts : StartsAt dateParse schedule.toScheduleProperties start)
    (paced : schedule.intervalMinutes = some interval) :
    service.getNextExecution dateParse portfolioId now =
      (isoInstant (start.time + interval * 60000)).map fun next => some ⟨portfolioId, next⟩ := by
  obtain ⟨text, named, nonempty, parsed⟩ := starts
  rw [ScheduleService.getSchedule] at stored
  rw [ScheduleService.getNextExecution, stored]
  simp only [enabled, ↓reduceIte, named, nonempty, parsed, Option.map_some, paced]
  cases isoInstant (start.time + interval * 60000) <;> rfl

/-- The next execution of an enabled, valid schedule is the first time after now on its grid
    exactly during the first interval, where that is a whole number of milliseconds and ends
    within the range of dates. -/
theorem next_execution_earliest_iff {dateParse : String → Option Date} {service : ScheduleService}
    {portfolioId : String} {schedule : RebalancingScheduleResponse} {start : Date} {interval : Rat}
    (now : Int) (stored : service.getSchedule portfolioId = some schedule)
    (enabled : schedule.enabled = some true)
    (starts : StartsAt dateParse schedule.toScheduleProperties start)
    (paced : schedule.intervalMinutes = some interval)
    (valid : (validateSchedule schedule.toScheduleProperties).valid = true) :
    (∃ next, service.getNextExecution dateParse portfolioId now =
        .ok (some ⟨portfolioId, next⟩) ∧
      EarliestAhead start.time (interval * 60000) now next) ↔
    start.time ≤ now ∧ now < start.time + interval * 60000 ∧
      (∃ length : Int, interval * 60000 = length) ∧
      start.time + interval * 60000 ≤ maxDate := by
  have long : 1 ≤ interval := validated_interval valid paced
  rw [nextExecution_started now stored enabled starts paced]
  constructor
  · rintro ⟨next, told, earliest⟩
    obtain ⟨_, k, grid⟩ := earliest.1
    cases formatted : isoInstant (start.time + interval * 60000) with
    | error thrown =>
      rw [formatted] at told
      cases told
    | ok instant =>
      rw [formatted] at told
      cases told
      have exact := grid_point_of_near k (by linarith) grid (isoInstant_near formatted)
      rw [exact] at earliest
      have within := (first_period_earliest_iff (by linarith)).mp earliest
      refine ⟨by exact_mod_cast within.1, within.2, ⟨next - start.time, ?_⟩, ?_⟩
      · push_cast
        linarith
      · unfold isoInstant at formatted
        split at formatted
        · rename_i dated
          exact (le_abs_self _).trans dated
        · cases formatted
  · rintro ⟨begun, running, ⟨length, whole⟩, dated⟩
    have low : (-8640000000000000 : Rat) ≤ start.time := by exact_mod_cast start.valid.1
    have range : |start.time + interval * 60000| ≤ maxDate := by
      rw [abs_le]
      refine ⟨?_, dated⟩
      unfold maxDate
      linarith
    have instant : start.time + interval * 60000 = ((start.time + length : Int) : Rat) := by
      push_cast
      rw [whole]
    refine ⟨start.time + length, ?_, ?_⟩
    · rw [isoInstant_whole instant range]
      rfl
    · rw [← instant, first_period_earliest_iff (by linarith)]
      exact ⟨by exact_mod_cast begun, running⟩

def newYear : Date := ⟨1767225600000, by decide⟩

def readNewYear (text : String) : Option Date :=
  if text = "2026-01-01T00:00:00Z" then some newYear else none

/-- A service with an hourly schedule from the new year on. -/
def newYearService : ScheduleService :=
  ((scheduleMachine readNewYear).init.createSchedule (hourly "p") 1767000000000 1767000000000).1

/-- Half an hour into the year the next execution is at one. -/
theorem next_execution_first_hour :
    ∃ next, newYearService.getNextExecution readNewYear "p" 1767227400000 =
        .ok (some ⟨"p", next⟩) ∧
      EarliestAhead newYear.time (60 * 60000) (1767227400000 : Int) next := by
  have starts : StartsAt readNewYear (hourly "p").properties newYear := ⟨_, rfl, by decide, rfl⟩
  have earliest := next_execution_earliest_iff 1767227400000
    (show newYearService.getSchedule "p" = _ from rfl) rfl starts rfl (by decide +kernel)
  exact earliest.mpr ⟨by decide, by norm_num [newYear, hourly], ⟨3600000, by norm_num [hourly]⟩,
    by norm_num [newYear, hourly, maxDate]⟩

/-- A day into the year the next execution is still said to be at one, twenty-three hours ago. -/
theorem next_execution_in_the_past :
    ¬ ∀ (service : ScheduleService) (portfolioId : String) (schedule : RebalancingScheduleResponse)
      (start : Date) (interval : Rat) (now : Int), service.getSchedule portfolioId = some schedule →
      schedule.enabled = some true → StartsAt readNewYear schedule.toScheduleProperties start →
      schedule.intervalMinutes = some interval →
      (validateSchedule schedule.toScheduleProperties).valid = true →
      ∃ next, service.getNextExecution readNewYear portfolioId now = .ok (some ⟨portfolioId, next⟩) ∧
        now < next := by
  intro ahead
  obtain ⟨next, told, later⟩ := ahead newYearService "p" _ newYear 60 1767312000000 rfl rfl
    ⟨_, rfl, by decide, rfl⟩ rfl (by decide +kernel)
  have answer : newYearService.getNextExecution readNewYear "p" 1767312000000 =
      .ok (some ⟨"p", 1767229200000⟩) := by decide +kernel
  rw [answer] at told
  cases told
  exact absurd later (by decide)

end AstraPort.Rebalancing
