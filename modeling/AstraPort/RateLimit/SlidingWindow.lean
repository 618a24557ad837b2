import Mathlib.Tactic.Linarith
import AstraPort.RateLimit.Algorithms

/- The sliding window decides on the whole admission history of a key although it
   stores only the timestamps that survived the last filtering. -/
namespace AstraPort.RateLimit
open SlidingWindowRateLimiter
variable {policyOf : String → UsablePolicy}

def storedTimestamps (windows : SlidingWindowRateLimiter) (key : String) : List Rat :=
  ((windows.get key).map SlidingWindowState.timestamps).getD []

theorem recent_eq_filter (windows : SlidingWindowRateLimiter) (key : String)
    (policy : RateLimitPolicy) (now : Rat) :
    recent windows key policy now =
      (storedTimestamps windows key).filter fun t => decide (now - policy.windowMs < t) := by
  cases stored : windows.get key <;>
    simp [recent, stateFor, storedTimestamps, stored]

theorem stored_after_consume (windows : SlidingWindowRateLimiter) (key : String)
    (policy : RateLimitPolicy) (now : Rat) :
    storedTimestamps (consume windows key policy now).1 key =
      if (consume windows key policy now).2.allowed = true then
        recent windows key policy now ++ [now] else recent windows key policy now := by
  simp only [consume, storedTimestamps, InsertionMap.get_set_self, Option.map_some,
    Option.getD_some]
  rfl

theorem stored_after_other_consume (windows : SlidingWindowRateLimiter) {key other : String}
    (ne : key ≠ other) (policy : RateLimitPolicy) (now : Rat) :
    storedTimestamps (consume windows other policy now).1 key = storedTimestamps windows key := by
  simp only [consume, storedTimestamps, InsertionMap.get_set_ne _ _ ne]

theorem filter_later {cut later : Rat} (order : cut ≤ later) (ts : List Rat) :
    (ts.filter fun t => decide (cut < t)).filter (fun t => decide (later < t)) =
      ts.filter fun t => decide (later < t) := by
  rw [List.filter_filter]
  apply List.filter_congr
  intro t _
  rw [Bool.and_eq_left_iff_imp]
  intro above
  simp only [decide_eq_true_eq] at above ⊢
  linarith

/-- No stored state is older than an admission of its key. -/
def SeenLast (past : List (LimiterCall × Option RateLimitResult))
    (windows : SlidingWindowRateLimiter) : Prop :=
  ∀ key state, windows.get key = some state → ∀ t ∈ admitted key past, t ≤ state.lastSeen

/-- From any cutoff that the clock has already passed by a window onwards, the
    stored timestamps are the admission history. -/
def Tracks (policyOf : String → UsablePolicy) (past : List (LimiterCall × Option RateLimitResult))
    (windows : SlidingWindowRateLimiter) : Prop :=
  ∀ key cut, (∀ e ∈ past, e.1.now - (policyOf key).windowMs ≤ cut) →
    (storedTimestamps windows key).filter (fun t => decide (cut < t)) =
      (admitted key past).reverse.filter fun t => decide (cut < t)

theorem admitted_not_later {past : List (LimiterCall × Option RateLimitResult)} {key : String}
    {now t : Rat} (bound : ∀ e ∈ past, e.1.now ≤ now) (member : t ∈ admitted key past) :
    t ≤ now := by
  obtain ⟨policy, result, at_past⟩ := admitted_was_consumed member
  exact bound _ at_past

theorem seen_last {past : List (LimiterCall × Option RateLimitResult)}
    {windows : SlidingWindowRateLimiter}
    (run : slidingWindowMachine.Run (Disciplined policyOf) past windows) : SeenLast past windows := by
  apply run.invariant SeenLast (by simp [SeenLast, slidingWindowMachine])
  intro past windows call windows' o _ known ok moved key state stored t member
  cases call with
  | consume other policy now =>
    obtain ⟨rfl, rfl⟩ := Prod.mk.inj (Option.some.inj moved)
    by_cases same : key = other
    · subst other
      simp only [consume, InsertionMap.get_set_self, Option.some.injEq] at stored
      subst state
      rw [admitted_consume_self] at member
      have bound : ∀ e ∈ past, e.1.now ≤ now := ok.1
      split at member
      · rcases List.mem_cons.mp member with rfl | member
        · exact le_refl _
        · exact admitted_not_later bound member
      · exact admitted_not_later bound member
    · simp only [consume, InsertionMap.get_set_ne _ _ same] at stored
      rw [admitted_consume_other (Ne.symm same)] at member
      exact known key state stored t member
  | prune now olderThan =>
    obtain ⟨rfl, rfl⟩ := Prod.mk.inj (Option.some.inj moved)
    rw [prune, InsertionMap.get_keep, Option.filter_eq_some_iff] at stored
    rw [admitted_prune] at member
    exact known key state stored.1 t member

theorem recent_is_history {past : List (LimiterCall × Option RateLimitResult)}
    {windows : SlidingWindowRateLimiter} (tracks : Tracks policyOf past windows) (key : String)
    (now : Rat) (clock : ∀ e ∈ past, e.1.now ≤ now) :
    recent windows key (policyOf key).toRateLimitPolicy now =
      (admitted key past).reverse.filter
        fun t => decide (now - (policyOf key).windowMs < t) := by
  rw [recent_eq_filter]
  exact tracks key _ (fun e member => by have := clock e member; linarith)

theorem tracks_history {past : List (LimiterCall × Option RateLimitResult)}
    {windows : SlidingWindowRateLimiter}
    (run : slidingWindowMachine.Run (Disciplined policyOf) past windows) :
    Tracks policyOf past windows := by
  refine run.invariant (Tracks policyOf)
    (by intro key cut _; simp [storedTimestamps, slidingWindowMachine, admitted]) ?_
  intro past windows call windows' o before known ok moved key cut reached
  have reachedPast : ∀ e ∈ past, e.1.now - (policyOf key).windowMs ≤ cut :=
    fun e member => reached e (List.mem_cons_of_mem _ member)
  have reachedNow : call.now - (policyOf key).windowMs ≤ cut :=
    reached (call, o) (List.mem_cons_self ..)
  cases call with
  | consume other policy now =>
    obtain ⟨rfl, rfl⟩ := Prod.mk.inj (Option.some.inj moved)
    by_cases same : key = other
    · subst other
      have uses : policy = (policyOf key).toRateLimitPolicy := ok.2
      subst policy
      have history := recent_is_history known key now ok.1
      have kept : (recent windows key (policyOf key).toRateLimitPolicy now).filter
          (fun t => decide (cut < t)) = (admitted key past).reverse.filter
            fun t => decide (cut < t) := by
        rw [history]
        exact filter_later reachedNow _
      rw [stored_after_consume, admitted_consume_self]
      split
      · rw [List.filter_append, kept, List.reverse_cons, List.filter_append]
      · exact kept
    · rw [stored_after_other_consume windows same, admitted_consume_other (Ne.symm same)]
      exact known key cut reachedPast
  | prune now olderThan =>
    obtain ⟨rfl, rfl⟩ := Prod.mk.inj (Option.some.inj moved)
    rw [admitted_prune, ← known key cut reachedPast]
    cases stored : windows.get key with
    | none => simp [storedTimestamps, prune, InsertionMap.get_keep, stored]
    | some state =>
      by_cases stale : state.lastSeen < olderThan
      · have expired : ∀ t ∈ admitted key past, t ≤ cut := by
          intro t member
          have seen := seen_last before key state stored t member
          have back := cutoff_reaches_back before ok member
          simp only [LimiterCall.now] at reachedNow
          linarith
        have empty : (admitted key past).reverse.filter (fun t => decide (cut < t)) = [] := by
          rw [List.filter_eq_nil_iff]
          intro t member
          have := expired t (List.mem_reverse.mp member)
          simpa using this
        rw [known key cut reachedPast, empty]
        simp [storedTimestamps, prune, InsertionMap.get_keep, stored, Option.filter, stale]
      · simp [storedTimestamps, prune, InsertionMap.get_keep, stored, Option.filter, stale]

/-- Admissions of the key strictly after a time, and in a half-open interval. -/
def admittedAfter (key : String) (past : List (LimiterCall × Option RateLimitResult))
    (start : Rat) : Nat :=
  (admitted key past).countP fun t => decide (start < t)

def admittedWithin (key : String) (past : List (LimiterCall × Option RateLimitResult))
    (start stop : Rat) : Nat :=
  (admitted key past).countP fun t => decide (start < t ∧ t ≤ stop)

theorem recent_count {past : List (LimiterCall × Option RateLimitResult)}
    {windows : SlidingWindowRateLimiter}
    (run : slidingWindowMachine.Run (Disciplined policyOf) past windows) {key : String} {now : Rat}
    (clock : ∀ e ∈ past, e.1.now ≤ now) :
    (recent windows key (policyOf key).toRateLimitPolicy now).length =
      admittedAfter key past (now - (policyOf key).windowMs) := by
  rw [recent_is_history (tracks_history run) key now clock, admittedAfter, List.filter_reverse,
    List.length_reverse, List.countP_eq_length_filter]

theorem consume_allowed_iff {past : List (LimiterCall × Option RateLimitResult)}
    {windows : SlidingWindowRateLimiter}
    (run : slidingWindowMachine.Run (Disciplined policyOf) past windows) (key : String) (now : Rat)
    (clock : ∀ e ∈ past, e.1.now ≤ now) :
    (consume windows key (policyOf key).toRateLimitPolicy now).2.allowed = true ↔
      (admittedAfter key past (now - (policyOf key).windowMs) : Rat) < (policyOf key).limit := by
  rw [← recent_count run clock]
  simp only [consume, decide_eq_true_eq]

theorem within_le_after {key : String} {past : List (LimiterCall × Option RateLimitResult)}
    {start later stop : Rat} (order : start ≤ later) :
    admittedWithin key past later stop ≤ admittedAfter key past start := by
  apply List.countP_mono_left
  intro t _ inside
  simp only [decide_eq_true_eq] at inside ⊢
  linarith [inside.1]

theorem window_never_overfull {past : List (LimiterCall × Option RateLimitResult)}
    {windows : SlidingWindowRateLimiter}
    (run : slidingWindowMachine.Run (Disciplined policyOf) past windows) :
    ∀ key t, (admittedWithin key past (t - (policyOf key).windowMs) t : Rat) ≤
      (policyOf key).limit := by
  refine run.invariant (fun past _ => ∀ key t,
    (admittedWithin key past (t - (policyOf key).windowMs) t : Rat) ≤ (policyOf key).limit) ?_ ?_
  · intro key t
    have := (policyOf key).some_request
    simp only [admittedWithin, admitted, List.filterMap_nil, List.countP_nil, Nat.cast_zero]
    linarith
  · intro past windows call windows' o before known ok moved key t
    cases call with
    | prune now olderThan =>
      simp only [admittedWithin, admitted_prune]
      exact known key t
    | consume other policy now =>
      by_cases same : other = key
      · subst other
        have uses : policy = (policyOf key).toRateLimitPolicy := ok.2
        subst policy
        obtain ⟨_, rfl⟩ := Prod.mk.inj (Option.some.inj moved)
        simp only [admittedWithin, admitted_consume_self]
        split
        · rename_i allowed
          rw [consume_allowed_iff before key now ok.1] at allowed
          by_cases inside : now ≤ t
          · obtain ⟨n, whole⟩ := (policyOf key).whole_requests
            rw [whole] at allowed ⊢
            have room : admittedAfter key past (now - (policyOf key).windowMs) < n := by
              exact_mod_cast allowed
            have fits : admittedWithin key past (t - (policyOf key).windowMs) t ≤
                admittedAfter key past (now - (policyOf key).windowMs) :=
              within_le_after (by linarith)
            have grown : (now :: admitted key past).countP (fun a =>
                decide (t - (policyOf key).windowMs < a ∧ a ≤ t)) ≤
                  admittedWithin key past (t - (policyOf key).windowMs) t + 1 := by
              rw [List.countP_cons, admittedWithin]
              split <;> omega
            have bound : (now :: admitted key past).countP (fun a =>
                decide (t - (policyOf key).windowMs < a ∧ a ≤ t)) ≤ n := by omega
            exact_mod_cast bound
          · rw [List.countP_cons_of_neg (by simp [inside])]
            exact known key t
        · exact known key t
      · simp only [admittedWithin, admitted_consume_other same]
        exact known key t

/- A consume is allowed exactly when fewer than limit admissions of its key lie
   strictly inside the last window, whatever was pruned and whatever other keys did;
   no window of a key ever holds more than limit admissions. -/
theorem sliding_window_exact {past : List (LimiterCall × Option RateLimitResult)}
    {windows : SlidingWindowRateLimiter}
    (run : slidingWindowMachine.Run (Disciplined policyOf) past windows) :
    (∀ later key policy now result earlier,
      past = later ++ (.consume key policy now, some result) :: earlier →
        (result.allowed = true ↔
          (admittedAfter key earlier (now - policy.windowMs) : Rat) < policy.limit)) ∧
    ∀ key t, (admittedWithin key past (t - (policyOf key).windowMs) t : Rat) ≤
      (policyOf key).limit := by
  refine ⟨?_, window_never_overfull run⟩
  intro later key policy now result earlier split
  obtain ⟨before, after, shorter, ok, moved⟩ := run.exchange split
  have uses : policy = (policyOf key).toRateLimitPolicy := ok.2
  subst policy
  simp only [slidingWindowMachine, limiterStep, Option.some.injEq, Prod.mk.injEq] at moved
  rw [← moved.2]
  exact consume_allowed_iff shorter key now ok.1

theorem consume_continues {past : List (LimiterCall × Option RateLimitResult)}
    {windows : SlidingWindowRateLimiter}
    (run : slidingWindowMachine.Run (Disciplined policyOf) past windows) (key : String) (now : Rat)
    (clock : ∀ e ∈ past, e.1.now ≤ now) :
    slidingWindowMachine.Run (Disciplined policyOf)
      ((.consume key (policyOf key).toRateLimitPolicy now,
        some (consume windows key (policyOf key).toRateLimitPolicy now).2) :: past)
      (consume windows key (policyOf key).toRateLimitPolicy now).1 :=
  run.next ⟨clock, rfl⟩ rfl

def onePerSecond : UsablePolicy :=
  ⟨⟨1, 1000, .slidingWindow⟩, ⟨1, by norm_num⟩, le_refl _, by norm_num⟩

theorem sliding_window_exact_second_request :
    let policy := onePerSecond.toRateLimitPolicy
    let first := consume InsertionMap.empty "client" policy 0
    let second := consume first.1 "client" policy 999
    second.2.allowed = true ↔
      (admittedAfter "client" [(.consume "client" policy 0, some first.2)] (999 - 1000) : Rat) <
        1 := by
  intro policy first second
  have start : slidingWindowMachine.Run (Disciplined fun _ => onePerSecond) []
      InsertionMap.empty := Machine.Run.start
  have run := consume_continues (consume_continues start "client" 0 (by simp)) "client" 999
    (by simp [LimiterCall.now])
  exact (sliding_window_exact run).1 [] "client" policy 999 second.2 _ rfl

/- The boundary itself is free again: 1000 ms after the first request, not 999 ms. -/
example :
    let first := (consume InsertionMap.empty "client" onePerSecond.toRateLimitPolicy 0).1
    (consume first "client" onePerSecond.toRateLimitPolicy 999).2.allowed = false ∧
      (consume first "client" onePerSecond.toRateLimitPolicy 1000).2.allowed = true := by
  decide +kernel

end AstraPort.RateLimit
