import Mathlib.Tactic.Linarith
import Mathlib.Tactic.FieldSimp
import Mathlib.Tactic.Ring
import AstraPort.RateLimit.Algorithms

/- Admission bound of the token bucket. What a key spent since any earlier time,
   together with what is left in its bucket, never exceeds a full bucket and the
   refill over that time. -/
namespace AstraPort.RateLimit
open TokenBucketRateLimiter
variable {policyOf : String → UsablePolicy}

theorem rate_pos (policy : UsablePolicy) : 0 < refillRate policy.toRateLimitPolicy := by
  have requests := policy.some_request
  have time := policy.some_time
  exact div_pos (by linarith) (by linarith)

theorem rate_fills_window (policy : UsablePolicy) :
    refillRate policy.toRateLimitPolicy * policy.windowMs = policy.limit := by
  have time := policy.some_time
  exact div_mul_cancel₀ _ (by linarith)

def countSince (times : List Rat) (start : Rat) : Nat := times.countP fun t => decide (start ≤ t)

def countBetween (times : List Rat) (start stop : Rat) : Nat :=
  times.countP fun t => decide (start ≤ t ∧ t ≤ stop)

theorem countSince_cons {now start : Rat} (started : start ≤ now) (times : List Rat) :
    countSince (now :: times) start = countSince times start + 1 := by
  simp [countSince, started]

theorem countSince_none {times : List Rat} {last start : Rat} (latest : ∀ t ∈ times, t ≤ last)
    (after : last < start) : countSince times start = 0 := by
  rw [countSince, List.countP_eq_zero]
  intro t member
  have := latest t member
  simp only [decide_eq_true_eq, not_le]
  linarith

theorem countBetween_le_since (times : List Rat) (start stop : Rat) :
    countBetween times start stop ≤ countSince times start := by
  apply List.countP_mono_left
  intro t _ inside
  simp only [decide_eq_true_eq] at inside ⊢
  exact inside.1

theorem countBetween_outside {now start stop : Rat} (outside : now < start ∨ stop < now)
    (times : List Rat) : countBetween (now :: times) start stop = countBetween times start stop := by
  apply List.countP_cons_of_neg
  simp only [decide_eq_true_eq, not_and, not_le]
  intro started
  rcases outside with early | late
  · linarith
  · exact late

/-- A stored bucket against the admission times of its key. -/
structure Solvent (policy : UsablePolicy) (times : List Rat) (bucket : TokenBucketState) : Prop where
  same_limit : bucket.limit = policy.limit
  same_window : bucket.windowMs = policy.windowMs
  nonnegative : 0 ≤ bucket.tokens
  capped : bucket.tokens ≤ policy.limit
  latest : ∀ t ∈ times, t ≤ bucket.lastRefill
  funded : ∀ start ≤ bucket.lastRefill, (countSince times start : Rat) + bucket.tokens ≤
    policy.limit + refillRate policy.toRateLimitPolicy * (bucket.lastRefill - start)

/-- A key without a bucket may start full: its past is paid for by refill alone. -/
def Recovered (policy : UsablePolicy) (times : List Rat) (now : Rat) : Prop :=
  ∀ start ≤ now, (countSince times start : Rat) ≤
    refillRate policy.toRateLimitPolicy * (now - start)

theorem refilled_of_bucket {policy : UsablePolicy} {times : List Rat} {bucket : TokenBucketState}
    (solvent : Solvent policy times bucket) {now : Rat} (advanced : bucket.lastRefill ≤ now) :
    0 ≤ refilledTokens bucket policy.toRateLimitPolicy now ∧
      ∀ start ≤ now, (countSince times start : Rat) +
        refilledTokens bucket policy.toRateLimitPolicy now ≤
          policy.limit + refillRate policy.toRateLimitPolicy * (now - start) := by
  have rate := rate_pos policy
  have elapsed : max 0 (now - bucket.lastRefill) = now - bucket.lastRefill :=
    max_eq_right (by linarith)
  have gain : 0 ≤ (now - bucket.lastRefill) * refillRate policy.toRateLimitPolicy :=
    mul_nonneg (by linarith) rate.le
  simp only [refilledTokens, elapsed]
  constructor
  · have := solvent.nonnegative
    have := policy.some_request
    exact le_min (by linarith) (by linarith)
  · intro start started
    rcases le_or_gt start bucket.lastRefill with early | late
    · have funded := solvent.funded start early
      have cap := min_le_right policy.limit
        (bucket.tokens + (now - bucket.lastRefill) * refillRate policy.toRateLimitPolicy)
      linarith
    · rw [countSince_none solvent.latest late]
      have cap := min_le_left policy.limit
        (bucket.tokens + (now - bucket.lastRefill) * refillRate policy.toRateLimitPolicy)
      have refill : 0 ≤ refillRate policy.toRateLimitPolicy * (now - start) :=
        mul_nonneg rate.le (by linarith)
      push_cast
      linarith

theorem refilled_of_fresh {policy : UsablePolicy} {times : List Rat} {now : Rat}
    (recovered : Recovered policy times now) :
    0 ≤ refilledTokens (fullBucket policy.toRateLimitPolicy now) policy.toRateLimitPolicy now ∧
      ∀ start ≤ now, (countSince times start : Rat) +
        refilledTokens (fullBucket policy.toRateLimitPolicy now) policy.toRateLimitPolicy now ≤
          policy.limit + refillRate policy.toRateLimitPolicy * (now - start) := by
  have full : refilledTokens (fullBucket policy.toRateLimitPolicy now)
      policy.toRateLimitPolicy now = policy.limit := by
    simp [refilledTokens, fullBucket]
  rw [full]
  constructor
  · have := policy.some_request
    linarith
  · intro start started
    have := recovered start started
    linarith

theorem solvent_after_spending {policy : UsablePolicy} {times : List Rat} {now tokens : Rat}
    {bucket : TokenBucketState} (same_limit : bucket.limit = policy.limit)
    (same_window : bucket.windowMs = policy.windowMs) (nonnegative : 0 ≤ tokens)
    (capped : tokens ≤ policy.limit) (latest : ∀ t ∈ times, t ≤ now)
    (funded : ∀ start ≤ now, (countSince times start : Rat) + tokens ≤
      policy.limit + refillRate policy.toRateLimitPolicy * (now - start)) :
    Solvent policy (if 1 ≤ tokens then now :: times else times)
      { bucket with tokens := spend tokens, lastRefill := now } := by
  unfold spend
  split
  · rename_i enough
    refine ⟨same_limit, same_window, by simpa using enough, ?_, ?_, ?_⟩
    · dsimp only
      linarith
    · intro t member
      rcases List.mem_cons.mp member with rfl | member
      · exact le_refl _
      · exact latest t member
    · intro start started
      have before := funded start started
      rw [countSince_cons started]
      push_cast
      linarith
  · exact ⟨same_limit, same_window, nonnegative, capped, latest, funded⟩

/-- The whole limiter against the history. -/
def Balanced (policyOf : String → UsablePolicy)
    (past : List (LimiterCall × Option RateLimitResult)) (buckets : TokenBucketRateLimiter) : Prop :=
  ∀ key now, (∀ e ∈ past, e.1.now ≤ now) →
    match buckets.get key with
    | some bucket => Solvent (policyOf key) (admitted key past) bucket ∧ bucket.lastRefill ≤ now
    | none => Recovered (policyOf key) (admitted key past) now

theorem bucketFor_solvent {policy : UsablePolicy} {buckets : TokenBucketRateLimiter} {key : String}
    {times : List Rat} {bucket : TokenBucketState} {now : Rat} (stored : buckets.get key = some bucket)
    (solvent : Solvent policy times bucket) :
    bucketFor buckets key policy.toRateLimitPolicy now = bucket := by
  simp [bucketFor, stored, solvent.same_limit, solvent.same_window]

theorem admitted_after_consume (key : String) (policy : RateLimitPolicy)
    (buckets : TokenBucketRateLimiter) (now : Rat)
    (past : List (LimiterCall × Option RateLimitResult)) :
    admitted key ((.consume key policy now, some (consume buckets key policy now).2) :: past) =
      if 1 ≤ refilledTokens (bucketFor buckets key policy now) policy now then
        now :: admitted key past else admitted key past := by
  rw [admitted_consume_self]
  simp only [consume, decide_eq_true_eq]

theorem consume_keeps_solvent (policy : UsablePolicy) {buckets : TokenBucketRateLimiter}
    {key : String} (now : Rat) {past : List (LimiterCall × Option RateLimitResult)}
    (clock : ∀ e ∈ past, e.1.now ≤ now)
    (known : match buckets.get key with
      | some bucket => Solvent policy (admitted key past) bucket ∧ bucket.lastRefill ≤ now
      | none => Recovered policy (admitted key past) now) :
    ∃ bucket, (consume buckets key policy.toRateLimitPolicy now).1.get key = some bucket ∧
      bucket.lastRefill = now ∧ Solvent policy
        (admitted key ((.consume key policy.toRateLimitPolicy now,
          some (consume buckets key policy.toRateLimitPolicy now).2) :: past)) bucket := by
  have latest : ∀ t ∈ admitted key past, t ≤ now := by
    intro t member
    obtain ⟨_, _, at_past⟩ := admitted_was_consumed member
    exact clock _ at_past
  rw [admitted_after_consume]
  refine ⟨_, InsertionMap.get_set_self _ _ _, rfl, ?_⟩
  cases stored : buckets.get key with
  | some bucket =>
    rw [stored] at known
    obtain ⟨solvent, advanced⟩ := known
    rw [bucketFor_solvent stored solvent]
    have refilled := refilled_of_bucket solvent advanced
    exact solvent_after_spending solvent.same_limit solvent.same_window refilled.1
      (min_le_left _ _) latest refilled.2
  | none =>
    rw [stored] at known
    have fresh : bucketFor buckets key policy.toRateLimitPolicy now =
        fullBucket policy.toRateLimitPolicy now := by simp [bucketFor, stored]
    rw [fresh]
    have refilled := refilled_of_fresh known
    exact solvent_after_spending rfl rfl refilled.1 (min_le_left _ _) latest refilled.2

theorem recovered_after_idle {policy : UsablePolicy} {times : List Rat} {bucket : TokenBucketState}
    (solvent : Solvent policy times bucket) {now : Rat}
    (idle : times ≠ [] → bucket.lastRefill ≤ now - policy.windowMs) : Recovered policy times now := by
  intro start started
  have rate := rate_pos policy
  have refill : 0 ≤ refillRate policy.toRateLimitPolicy * (now - start) :=
    mul_nonneg rate.le (by linarith)
  rcases le_or_gt start bucket.lastRefill with early | late
  · by_cases none : times = []
    · simpa [none, countSince] using refill
    · have funded := solvent.funded start early
      have nonnegative := solvent.nonnegative
      have window := rate_fills_window policy
      have earned := mul_le_mul_of_nonneg_left (idle none) rate.le
      linarith
  · rw [countSince_none solvent.latest late]
    simpa using refill

theorem balanced_always {past : List (LimiterCall × Option RateLimitResult)}
    {buckets : TokenBucketRateLimiter}
    (run : tokenBucketMachine.Run (Disciplined policyOf) past buckets) :
    Balanced policyOf past buckets := by
  refine run.invariant (Balanced policyOf) ?_ ?_
  · intro key now _
    have rate := rate_pos (policyOf key)
    simp only [tokenBucketMachine, InsertionMap.get_empty]
    intro start started
    simpa [admitted, countSince] using mul_nonneg rate.le (sub_nonneg.mpr started)
  · intro past buckets call buckets' o before known ok moved key later clock
    have clockPast : ∀ e ∈ past, e.1.now ≤ later := fun e member =>
      clock e (List.mem_cons_of_mem _ member)
    have clockNow : call.now ≤ later := clock (call, o) (List.mem_cons_self ..)
    cases call with
    | consume other policy now =>
      have uses : policy = (policyOf other).toRateLimitPolicy := ok.2
      subst policy
      obtain ⟨rfl, rfl⟩ := Prod.mk.inj (Option.some.inj moved)
      by_cases same : other = key
      · subst other
        obtain ⟨bucket, stored, refilled, solvent⟩ :=
          consume_keeps_solvent (policyOf key) now ok.1 (known key now ok.1)
        rw [stored]
        exact ⟨solvent, refilled ▸ clockNow⟩
      · rw [admitted_consume_other same]
        simp only [consume, InsertionMap.get_set_ne _ _ (Ne.symm same)]
        exact known key later clockPast
    | prune now olderThan =>
      obtain ⟨rfl, rfl⟩ := Prod.mk.inj (Option.some.inj moved)
      have kept := known key later clockPast
      rw [admitted_prune, prune, InsertionMap.get_keep]
      cases stored : buckets.get key with
      | none => simpa [stored] using kept
      | some bucket =>
        rw [stored] at kept
        by_cases stale : bucket.lastRefill < olderThan
        · simp only [Option.filter, stale, decide_true, Bool.not_true]
          apply recovered_after_idle kept.1
          intro some
          obtain ⟨t, member⟩ := List.exists_mem_of_ne_nil _ some
          have back := cutoff_reaches_back before ok member
          simp only [LimiterCall.now] at clockNow
          linarith
        · simpa [Option.filter, stale] using kept

theorem latest_reading (past : List (LimiterCall × Option RateLimitResult)) :
    ∃ now, ∀ e ∈ past, e.1.now ≤ now := by
  induction past with
  | nil => exact ⟨0, by simp⟩
  | cons e past ih =>
    obtain ⟨now, bound⟩ := ih
    refine ⟨max e.1.now now, ?_⟩
    intro other member
    rcases List.mem_cons.mp member with rfl | member
    · exact le_max_left _ _
    · exact le_max_of_le_right (bound other member)

theorem stored_solvent {past : List (LimiterCall × Option RateLimitResult)}
    {buckets : TokenBucketRateLimiter}
    (run : tokenBucketMachine.Run (Disciplined policyOf) past buckets) {key : String}
    {bucket : TokenBucketState} (stored : buckets.get key = some bucket) :
    Solvent (policyOf key) (admitted key past) bucket := by
  obtain ⟨now, bound⟩ := latest_reading past
  have balanced := balanced_always run key now bound
  rw [stored] at balanced
  exact balanced.1

theorem admissions_bounded {past : List (LimiterCall × Option RateLimitResult)}
    {buckets : TokenBucketRateLimiter}
    (run : tokenBucketMachine.Run (Disciplined policyOf) past buckets) :
    ∀ key start stop, start ≤ stop → (countBetween (admitted key past) start stop : Rat) ≤
      (policyOf key).limit +
        refillRate (policyOf key).toRateLimitPolicy * (stop - start) := by
  refine run.invariant (fun past _ => ∀ key start stop, start ≤ stop →
    (countBetween (admitted key past) start stop : Rat) ≤ (policyOf key).limit +
      refillRate (policyOf key).toRateLimitPolicy * (stop - start)) ?_ ?_
  · intro key start stop order
    have rate := rate_pos (policyOf key)
    have requests := (policyOf key).some_request
    have refill := mul_nonneg rate.le (sub_nonneg.mpr order)
    simp only [admitted, List.filterMap_nil, countBetween, List.countP_nil, Nat.cast_zero]
    linarith
  · intro past buckets call buckets' o before known ok moved key start stop order
    cases call with
    | prune now olderThan =>
      rw [admitted_prune]
      exact known key start stop order
    | consume other policy now =>
      by_cases same : other = key
      · subst other
        have uses : policy = (policyOf key).toRateLimitPolicy := ok.2
        subst policy
        have after := before.next ok moved
        obtain ⟨rfl, rfl⟩ := Prod.mk.inj (Option.some.inj moved)
        by_cases inside : start ≤ now ∧ now ≤ stop
        · -- The whole window is already spent from the bucket just written.
          obtain ⟨bucket, stored, refilled, _⟩ := consume_keeps_solvent (policyOf key) now ok.1
            (balanced_always before key now ok.1)
          have solvent := stored_solvent after stored
          have funded := solvent.funded start (refilled ▸ inside.1)
          have nonnegative := solvent.nonnegative
          have later := mul_le_mul_of_nonneg_left (sub_le_sub_right inside.2 start)
            (rate_pos (policyOf key)).le
          have fewer : (countBetween (admitted key ((.consume key (policyOf key).toRateLimitPolicy
              now, some (consume buckets key (policyOf key).toRateLimitPolicy now).2) :: past))
              start stop : Rat) ≤ _ := Nat.cast_le.mpr (countBetween_le_since _ start stop)
          rw [refilled] at funded
          linarith
        · rw [admitted_consume_self]
          split
          · rw [countBetween_outside (by
              rcases not_and_or.mp inside with early | late
              · exact Or.inl (not_le.mp early)
              · exact Or.inr (not_le.mp late))]
            exact known key start stop order
          · exact known key start stop order
      · rw [admitted_consume_other same]
        exact known key start stop order

/- Every stored bucket holds between zero and limit tokens, and every closed
   interval sees at most one full bucket and the refill over its length. -/
theorem token_bucket_admission_bound {past : List (LimiterCall × Option RateLimitResult)}
    {buckets : TokenBucketRateLimiter}
    (run : tokenBucketMachine.Run (Disciplined policyOf) past buckets) :
    (∀ key bucket, buckets.get key = some bucket →
      0 ≤ bucket.tokens ∧ bucket.tokens ≤ (policyOf key).limit) ∧
    ∀ key start stop, start ≤ stop → (countBetween (admitted key past) start stop : Rat) ≤
      (policyOf key).limit + (policyOf key).limit * (stop - start) / (policyOf key).windowMs := by
  constructor
  · intro key bucket stored
    have solvent := stored_solvent run stored
    exact ⟨solvent.nonnegative, solvent.capped⟩
  · intro key start stop order
    have bound := admissions_bounded run key start stop order
    rwa [refillRate, div_mul_eq_mul_div] at bound

def twoPerSecond : UsablePolicy :=
  ⟨⟨2, 1000, .tokenBucket⟩, ⟨2, by norm_num⟩, by norm_num, by norm_num⟩

theorem token_bucket_admission_bound_first_request :
    let policy := twoPerSecond.toRateLimitPolicy
    let first := consume InsertionMap.empty "client" policy 0
    (countBetween (admitted "client" [(.consume "client" policy 0, some first.2)]) 0 500 : Rat) ≤
      2 + 2 * (500 - 0) / 1000 := by
  intro policy first
  have run : tokenBucketMachine.Run (Disciplined fun _ => twoPerSecond)
      [(.consume "client" policy 0, some first.2)] first.1 :=
    Machine.Run.start.next ⟨by simp [Machine.ClockAdvances], rfl⟩ rfl
  exact (token_bucket_admission_bound run).2 "client" 0 500 (by norm_num)

/- Continuous refill: after two requests at once, half a window pays for one more. -/
example :
    let policy := twoPerSecond.toRateLimitPolicy
    let second := (consume (consume InsertionMap.empty "client" policy 0).1 "client" policy 0).1
    (consume second "client" policy 0).2.retryAfterMs = 500 ∧
      (consume second "client" policy 500).2.allowed = true := by
  decide +kernel

end AstraPort.RateLimit
