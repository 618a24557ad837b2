import Mathlib.Data.Rat.Floor
import AstraPort.Foundation.InsertionMap
import AstraPort.Foundation.Machine

/- The two in-memory limiters. Numbers are exact rationals; clock readings and
   window lengths are milliseconds. -/
namespace AstraPort.RateLimit

inductive RateLimitAlgorithm where
  | tokenBucket
  | slidingWindow
  deriving DecidableEq, Repr

structure RateLimitPolicy where
  limit : Rat
  windowMs : Rat
  algorithm : RateLimitAlgorithm
  deriving DecidableEq

structure RateLimitResult where
  allowed : Bool
  limit : Rat
  remaining : Rat
  resetAt : Rat
  retryAfterMs : Rat
  deriving DecidableEq

structure TokenBucketState where
  tokens : Rat
  lastRefill : Rat
  limit : Rat
  windowMs : Rat
  deriving DecidableEq

abbrev TokenBucketRateLimiter := InsertionMap String TokenBucketState

namespace TokenBucketRateLimiter

def fullBucket (policy : RateLimitPolicy) (now : Rat) : TokenBucketState :=
  { tokens := policy.limit, lastRefill := now, limit := policy.limit, windowMs := policy.windowMs }

/-- The stored bucket, or a full one on first use and after a change of policy. -/
def bucketFor (buckets : TokenBucketRateLimiter) (key : String) (policy : RateLimitPolicy)
    (now : Rat) : TokenBucketState :=
  match buckets.get key with
  | some bucket =>
    if bucket.limit ≠ policy.limit ∨ bucket.windowMs ≠ policy.windowMs then fullBucket policy now
    else bucket
  | none => fullBucket policy now

def refillRate (policy : RateLimitPolicy) : Rat := policy.limit / policy.windowMs

def refilledTokens (bucket : TokenBucketState) (policy : RateLimitPolicy) (now : Rat) : Rat :=
  min policy.limit (bucket.tokens + max 0 (now - bucket.lastRefill) * refillRate policy)

def spend (tokens : Rat) : Rat := if 1 ≤ tokens then tokens - 1 else tokens

def consume (buckets : TokenBucketRateLimiter) (key : String) (policy : RateLimitPolicy)
    (now : Rat) : TokenBucketRateLimiter × RateLimitResult :=
  let bucket := bucketFor buckets key policy now
  let refilled := refilledTokens bucket policy now
  let allowed := decide (1 ≤ refilled)
  let tokens := spend refilled
  let retryAfterMs : Rat :=
    if allowed then 0 else max 1 ⌈(1 - tokens) / refillRate policy⌉
  let resetAt : Rat := now + ⌈(policy.limit - tokens) / refillRate policy⌉
  (buckets.set key { bucket with tokens := tokens, lastRefill := now },
    { allowed := allowed, limit := policy.limit, remaining := max 0 ⌊tokens⌋,
      resetAt := resetAt, retryAfterMs := retryAfterMs })

def prune (buckets : TokenBucketRateLimiter) (olderThan : Rat) : TokenBucketRateLimiter :=
  buckets.keep fun _ bucket => !decide (bucket.lastRefill < olderThan)

end TokenBucketRateLimiter

structure SlidingWindowState where
  timestamps : List Rat
  lastSeen : Rat
  deriving DecidableEq

abbrev SlidingWindowRateLimiter := InsertionMap String SlidingWindowState

namespace SlidingWindowRateLimiter

def stateFor (windows : SlidingWindowRateLimiter) (key : String) (now : Rat) :
    SlidingWindowState :=
  (windows.get key).getD { timestamps := [], lastSeen := now }

def recent (windows : SlidingWindowRateLimiter) (key : String) (policy : RateLimitPolicy)
    (now : Rat) : List Rat :=
  let cutoff := now - policy.windowMs
  (stateFor windows key now).timestamps.filter fun timestamp => decide (cutoff < timestamp)

def consume (windows : SlidingWindowRateLimiter) (key : String) (policy : RateLimitPolicy)
    (now : Rat) : SlidingWindowRateLimiter × RateLimitResult :=
  let kept := recent windows key policy now
  let allowed := decide ((kept.length : Rat) < policy.limit)
  let timestamps := if allowed then kept ++ [now] else kept
  let resetAt := match timestamps.head? with
    | none => now + policy.windowMs
    | some oldest => oldest + policy.windowMs
  (windows.set key { timestamps := timestamps, lastSeen := now },
    { allowed := allowed, limit := policy.limit,
      remaining := max 0 (policy.limit - timestamps.length), resetAt := resetAt,
      retryAfterMs := if allowed then 0 else max 1 (resetAt - now) })

def prune (windows : SlidingWindowRateLimiter) (olderThan : Rat) : SlidingWindowRateLimiter :=
  windows.keep fun _ state => !decide (state.lastSeen < olderThan)

end SlidingWindowRateLimiter

/-- Calls on either limiter; a prune carries the moment at which it is made. -/
inductive LimiterCall where
  | consume (key : String) (policy : RateLimitPolicy) (now : Rat)
  | prune (now : Rat) (olderThan : Rat)
  deriving DecidableEq

def LimiterCall.now : LimiterCall → Rat
  | .consume _ _ now => now
  | .prune now _ => now

def limiterStep {Limiter : Type}
    (consume : Limiter → String → RateLimitPolicy → Rat → Limiter × RateLimitResult)
    (prune : Limiter → Rat → Limiter) (limiter : Limiter) :
    LimiterCall → Option (Limiter × Option RateLimitResult)
  | .consume key policy now =>
    some ((consume limiter key policy now).1, some (consume limiter key policy now).2)
  | .prune _ olderThan => some (prune limiter olderThan, none)

def tokenBucketMachine : Machine TokenBucketRateLimiter LimiterCall (Option RateLimitResult) :=
  ⟨InsertionMap.empty, limiterStep TokenBucketRateLimiter.consume TokenBucketRateLimiter.prune⟩

def slidingWindowMachine : Machine SlidingWindowRateLimiter LimiterCall (Option RateLimitResult) :=
  ⟨InsertionMap.empty, limiterStep SlidingWindowRateLimiter.consume SlidingWindowRateLimiter.prune⟩

/-- Policies with a whole number of requests, at least one, and at least a millisecond. -/
structure UsablePolicy extends RateLimitPolicy where
  whole_requests : ∃ n : Nat, limit = n
  some_request : 1 ≤ limit
  some_time : 1 ≤ windowMs
  deriving DecidableEq

/-- Pruning stays clear of every window used so far. -/
def ClearOfWindow (now olderThan : Rat) : LimiterCall → Prop
  | .consume _ policy _ => olderThan ≤ now - policy.windowMs
  | .prune _ _ => True

/-- One policy per key, a clock that never runs backwards, and cutoffs that reach
    back at least as far as the longest window in use. -/
def Disciplined {Limiter : Type} (policyOf : String → UsablePolicy) :
    Machine.Permit Limiter LimiterCall (Option RateLimitResult) := fun past limiter call =>
  Machine.ClockAdvances LimiterCall.now past limiter call ∧
    match call with
    | .consume key policy _ => policy = (policyOf key).toRateLimitPolicy
    | .prune now olderThan => ∀ e ∈ past, ClearOfWindow now olderThan e.1

def admission (key : String) : LimiterCall × Option RateLimitResult → Option Rat
  | (.consume other _ now, some result) =>
    if other = key ∧ result.allowed = true then some now else none
  | _ => none

/-- Times at which consumes of the key were allowed, newest first. -/
def admitted (key : String) (past : List (LimiterCall × Option RateLimitResult)) : List Rat :=
  past.filterMap (admission key)

theorem admitted_consume_self (key : String) (policy : RateLimitPolicy) (now : Rat)
    (result : RateLimitResult) (past : List (LimiterCall × Option RateLimitResult)) :
    admitted key ((.consume key policy now, some result) :: past) =
      if result.allowed = true then now :: admitted key past else admitted key past := by
  simp only [admitted, List.filterMap_cons, admission, true_and]
  split <;> simp_all

theorem admitted_consume_other {key other : String} (ne : other ≠ key) (policy : RateLimitPolicy)
    (now : Rat) (result : Option RateLimitResult)
    (past : List (LimiterCall × Option RateLimitResult)) :
    admitted key ((.consume other policy now, result) :: past) = admitted key past := by
  cases result <;> simp [admitted, List.filterMap_cons, admission, ne]

theorem admitted_prune (key : String) (now olderThan : Rat) (result : Option RateLimitResult)
    (past : List (LimiterCall × Option RateLimitResult)) :
    admitted key ((.prune now olderThan, result) :: past) = admitted key past := by
  simp [admitted, List.filterMap_cons, admission]

theorem admitted_was_consumed {key : String} {t : Rat}
    {past : List (LimiterCall × Option RateLimitResult)} (member : t ∈ admitted key past) :
    ∃ policy result, (LimiterCall.consume key policy t, some result) ∈ past := by
  obtain ⟨⟨call, answer⟩, at_past, eq⟩ := List.mem_filterMap.mp member
  cases call with
  | prune now olderThan => simp [admission] at eq
  | consume other policy now =>
    cases answer with
    | none => simp [admission] at eq
    | some result =>
      simp only [admission, Option.ite_none_right_eq_some, Option.some.injEq] at eq
      obtain ⟨⟨same, _⟩, time⟩ := eq
      exact ⟨policy, result, same ▸ time ▸ at_past⟩

theorem past_policies {Limiter : Type} {M : Machine Limiter LimiterCall (Option RateLimitResult)}
    {policyOf : String → UsablePolicy} {past : List (LimiterCall × Option RateLimitResult)}
    {limiter : Limiter} (run : M.Run (Disciplined policyOf) past limiter) :
    ∀ key policy now answer, (LimiterCall.consume key policy now, answer) ∈ past →
      policy = (policyOf key).toRateLimitPolicy := by
  refine run.invariant (fun past _ => ∀ key policy now answer,
    (LimiterCall.consume key policy now, answer) ∈ past →
      policy = (policyOf key).toRateLimitPolicy) (by simp) ?_
  intro past s call s' o _ known ok _ key policy now answer member
  rcases List.mem_cons.mp member with eq | member
  · simp only [Prod.mk.injEq] at eq
    obtain ⟨rfl, _⟩ := eq
    exact ok.2
  · exact known key policy now answer member

/- Every cutoff of a permitted prune lies a full window before the present, for
   each key that has been admitted at all. -/
theorem cutoff_reaches_back {Limiter : Type}
    {M : Machine Limiter LimiterCall (Option RateLimitResult)}
    {policyOf : String → UsablePolicy} {past : List (LimiterCall × Option RateLimitResult)}
    {limiter : Limiter} (run : M.Run (Disciplined policyOf) past limiter) {now olderThan : Rat}
    (ok : Disciplined policyOf past limiter (.prune now olderThan)) {key : String} {t : Rat}
    (member : t ∈ admitted key past) : olderThan ≤ now - (policyOf key).windowMs := by
  obtain ⟨policy, result, at_past⟩ := admitted_was_consumed member
  have clear := ok.2 _ at_past
  have same := past_policies run _ _ _ _ at_past
  subst policy
  exact clear

end AstraPort.RateLimit
