import Mathlib.Tactic.Linarith
import Mathlib.Tactic.Positivity
import AstraPort.RateLimit.SlidingWindow
import AstraPort.RateLimit.TokenBucket
import AstraPort.RateLimit.Verdicts

/- What a rejected client is told to wait. A check reports the first policy that refuses,
   not the one with the longest wait, and charges the policies that admit the request it
   rejects; so the wait is enough exactly when all of them have recovered by then. -/
namespace AstraPort.RateLimit.RateLimitService
open Limiters TokenBucketRateLimiter SlidingWindowRateLimiter

section Limits
variable (limiters : Limiters) (limit : ApplicableLimit) (now : Rat)

def refilled : Rat :=
  refilledTokens (bucketFor limiters.tokenBucket (limiterKey limit)
    limit.policy.toRateLimitPolicy now) limit.policy.toRateLimitPolicy now

def recentOf : List Rat :=
  recent limiters.slidingWindow (limiterKey limit) limit.policy.toRateLimitPolicy now

/-- What the limiter is left with once the request at this instant is judged. -/
def tokensLeft : Rat := spend (refilled limiters limit now)

def windowLeft : List Rat :=
  if ((recentOf limiters limit now).length : Rat) < limit.policy.limit then
    recentOf limiters limit now ++ [now]
  else recentOf limiters limit now

/-- The policy admits a request at this instant. -/
def Admits : Prop :=
  match limit.policy.algorithm with
  | .tokenBucket => 1 ≤ refilled limiters limit now
  | .slidingWindow => ((recentOf limiters limit now).length : Rat) < limit.policy.limit

instance : Decidable (Admits limiters limit now) := by
  unfold Admits
  split <;> infer_instance

/-- The wait that the policy itself asks for when it refuses: until the bucket holds one
    token again, or until the oldest request leaves the window. -/
def ownWait : Rat :=
  match limit.policy.algorithm with
  | .tokenBucket =>
    max 1 ⌈(1 - tokensLeft limiters limit now) / refillRate limit.policy.toRateLimitPolicy⌉
  | .slidingWindow =>
    max 1 (((windowLeft limiters limit now).head?.getD now) + limit.policy.windowMs - now)

/-- With this request charged to it, the policy has room for another after the wait: a full
    token, or fewer requests in the window than its limit. -/
def Recovers (wait : Rat) : Prop :=
  match limit.policy.algorithm with
  | .tokenBucket =>
    1 ≤ tokensLeft limiters limit now + wait * refillRate limit.policy.toRateLimitPolicy
  | .slidingWindow =>
    (((windowLeft limiters limit now).countP fun t =>
      decide (now + wait - limit.policy.windowMs < t) : Nat) : Rat) < limit.policy.limit

end Limits

section Waiting
variable {limiters : Limiters} {limit : ApplicableLimit} {now : Rat}

theorem verdict_allowed :
    (verdict limiters limit now).allowed = true ↔ Admits limiters limit now := by
  unfold verdict Limiters.consume Admits
  cases limit.policy.algorithm with
  | tokenBucket => exact decide_eq_true_iff
  | slidingWindow => exact decide_eq_true_iff

theorem verdict_retry (refuses : ¬ Admits limiters limit now) :
    (verdict limiters limit now).retryAfterMs = ownWait limiters limit now := by
  unfold verdict Limiters.consume ownWait
  unfold Admits at refuses
  cases chosen : limit.policy.algorithm with
  | tokenBucket =>
    rw [chosen] at refuses
    simp only [TokenBucketRateLimiter.consume]
    rw [if_neg (by simpa [refilled] using refuses)]
    rfl
  | slidingWindow =>
    rw [chosen] at refuses
    simp only [SlidingWindowRateLimiter.consume]
    have full : ¬ ((recent limiters.slidingWindow (limiterKey limit)
        limit.policy.toRateLimitPolicy now).length : Rat) < limit.policy.limit := refuses
    simp only [decide_eq_false full, Bool.false_eq_true, ↓reduceIte]
    unfold windowLeft recentOf
    rw [if_neg full]
    cases (recent limiters.slidingWindow (limiterKey limit)
      limit.policy.toRateLimitPolicy now).head? <;> simp

/- The next verdict is read off what the first one leaves behind. -/
theorem verdict_again {wait : Rat} (waits : 0 ≤ wait) :
    (verdict (chargedFor limiters limit now) limit (now + wait)).allowed = true ↔
      Recovers limiters limit now wait := by
  rw [verdict_allowed]
  unfold Admits Recovers chargedFor Limiters.consume
  cases limit.policy.algorithm with
  | tokenBucket =>
    have whole := limit.policy.some_request
    simp only [refilled, bucketFor, TokenBucketRateLimiter.consume, InsertionMap.get_set_self]
    have own : ¬ ((bucketFor limiters.tokenBucket (limiterKey limit)
        limit.policy.toRateLimitPolicy now).limit ≠ limit.policy.limit ∨
        (bucketFor limiters.tokenBucket (limiterKey limit)
          limit.policy.toRateLimitPolicy now).windowMs ≠ limit.policy.windowMs) := by
      unfold bucketFor
      split
      · split
        · simp [fullBucket]
        · rename_i same
          exact same
      · simp [fullBucket]
    unfold bucketFor at own
    rw [if_neg own]
    have elapsed : max 0 (now + wait - now) = wait := by
      rw [add_sub_cancel_left]
      exact max_eq_right waits
    simp only [refilledTokens, elapsed]
    rw [le_min_iff]
    exact and_iff_right whole
  | slidingWindow =>
    have stored : storedTimestamps (SlidingWindowRateLimiter.consume limiters.slidingWindow
        (limiterKey limit) limit.policy.toRateLimitPolicy now).1 (limiterKey limit) =
          windowLeft limiters limit now := by
      rw [stored_after_consume]
      simp only [SlidingWindowRateLimiter.consume, decide_eq_true_eq]
      rfl
    simp only [recentOf]
    rw [recent_eq_filter, stored, ← List.countP_eq_length_filter]

theorem Recovers.later {wait longer : Rat} (longer_wait : wait ≤ longer)
    (recovers : Recovers limiters limit now wait) : Recovers limiters limit now longer := by
  unfold Recovers at recovers ⊢
  cases chosen : limit.policy.algorithm with
  | tokenBucket =>
    rw [chosen] at recovers
    have rate := rate_pos limit.policy
    have gained := mul_le_mul_of_nonneg_right longer_wait rate.le
    simp only at recovers ⊢
    linarith
  | slidingWindow =>
    rw [chosen] at recovers
    refine lt_of_le_of_lt ?_ recovers
    have fewer : (windowLeft limiters limit now).countP
        (fun t => decide (now + longer - limit.policy.windowMs < t)) ≤
        (windowLeft limiters limit now).countP
          (fun t => decide (now + wait - limit.policy.windowMs < t)) := by
      apply List.countP_mono_left
      intro t _ inside
      simp only [decide_eq_true_eq] at inside ⊢
      linarith
    exact_mod_cast fewer

theorem ownWait_positive (limiters : Limiters) (limit : ApplicableLimit) (now : Rat) :
    1 ≤ ownWait limiters limit now := by
  unfold ownWait
  split <;> exact le_max_left _ _

end Waiting

section Requests
variable (conversions : Conversions) (config : RateLimitConfiguration) (service : RateLimitService)
  (request : RateLimitRequest) (override : Option RateLimitOverride) (skip : Bool) (now : Rat)

/-- A rejected request is allowed once its wait is over, whether the wait is taken from the
    decision or from the Retry-After header. -/
def WaitingSuffices : Prop :=
  let checked := service.check conversions config request override skip now
  checked.2.2.allowed = false →
    ∀ wait, wait = checked.2.2.retryAfterMs ∨ wait = retryAfterSeconds checked.2.2 * 1000 →
      (checked.1.check conversions config request override skip (now + wait)).2.2.allowed = true

/-- Whatever the first refusing policy asks for, every applicable policy recovers within it. -/
def AllRecover : Prop :=
  bypassReason config request skip = none →
    ∀ refusing ∈ (applicableLimits conversions config request override).find? fun limit =>
        !decide (Admits service.limiters limit now),
      ∀ limit ∈ applicableLimits conversions config request override,
        Recovers service.limiters limit now (ownWait service.limiters refusing now)

end Requests

section Deciding
variable {conversions : Conversions} {config : RateLimitConfiguration} {service : RateLimitService}
  {request : RateLimitRequest} {override : Option RateLimitOverride} {skip : Bool} {now : Rat}

theorem check_allowed (limited : bypassReason config request skip = none) :
    (service.check conversions config request override skip now).2.2.allowed = true ↔
      ∀ limit ∈ applicableLimits conversions config request override,
        (verdict service.limiters limit now).allowed = true := by
  rcases check_decision conversions service override now limited with
    ⟨refused, member, found, same⟩ | ⟨all_allowed, allowed⟩
  · have denied : (verdict service.limiters refused now).allowed = false := by
      simpa using List.find?_some found
    have decision : (service.check conversions config request override skip now).2.2.allowed =
        (verdict service.limiters refused now).allowed := by rw [← same]
    rw [decision, denied]
    constructor
    · nofun
    · intro all_allowed
      rw [all_allowed refused member] at denied
      cases denied
  · exact iff_of_true allowed all_allowed

/- After a rejection the same request is judged by what each policy recovers. -/
theorem check_again (limited : bypassReason config request skip = none) {wait : Rat}
    (waits : 0 ≤ wait) :
    ((service.check conversions config request override skip now).1.check conversions config
      request override skip (now + wait)).2.2.allowed = true ↔
      ∀ limit ∈ applicableLimits conversions config request override,
        Recovers service.limiters limit now wait := by
  rw [check_allowed limited]
  refine forall₂_congr fun limit member => ?_
  rw [← verdict_again waits]
  have same := ((check_charges service now limited member).consume (now + wait)).1
  rw [verdict, same]
  rfl

theorem header_covers (decision : RateLimitDecision) :
    decision.retryAfterMs ≤ retryAfterSeconds decision * 1000 := by
  have rounded := Int.le_ceil (decision.retryAfterMs / 1000)
  have at_least := le_max_right (1 : Rat) ⌈decision.retryAfterMs / 1000⌉
  unfold retryAfterSeconds
  linarith

end Deciding

/-- In every state that checks and cleanups lead to under a loaded configuration, a rejected
    request is allowed once it has waited as told. -/
def WaitingAlwaysSuffices : Prop :=
  ∀ conversions env past service,
    (machine conversions (loadRateLimitConfiguration conversions env)).Run
      (Machine.ClockAdvances RateLimitCall.now) past service →
    ∀ request override skip now, (∀ e ∈ past, e.1.now ≤ now) →
      WaitingSuffices conversions (loadRateLimitConfiguration conversions env) service request
        override skip now

/-- One request a second by address, one a minute by user. -/
def shortAddressWindow : Environment := fun name =>
  [("RATE_LIMIT_IP_LIMIT", "1"), ("RATE_LIMIT_IP_WINDOW_MS", "1000"),
    ("RATE_LIMIT_USER_LIMIT", "1")].lookup name

end AstraPort.RateLimit.RateLimitService
