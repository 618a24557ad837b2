import Mathlib.Tactic.Linarith
import Mathlib.Tactic.Ring
import AstraPort.RateLimit.SlidingWindow
import AstraPort.RateLimit.TokenBucket

/- What a limiter tells its caller. The wait of a rejection is the least that suffices, however
   often the key is polled meanwhile, and the requests it says remain are all that remain. -/
namespace AstraPort.RateLimit

def WholeMs (t : Rat) : Prop := ∃ reading : Int, t = reading

theorem WholeMs.le_sub_one {t stop : Rat} (whole : WholeMs t) (whole_stop : WholeMs stop)
    (before : t < stop) : t ≤ stop - 1 := by
  obtain ⟨reading, rfl⟩ := whole
  obtain ⟨last, rfl⟩ := whole_stop
  have order : reading < last := by exact_mod_cast before
  have earlier : reading ≤ last - 1 := by omega
  exact_mod_cast earlier

/-- Whole milliseconds that never run backwards, and one policy for the key. Other keys may
    change theirs, and pruning may drop anything. -/
def SteadyKey {Limiter : Type} (key : String) (policy : UsablePolicy) :
    Machine.Permit Limiter LimiterCall (Option RateLimitResult) := fun past limiter call =>
  Machine.ClockAdvances LimiterCall.now past limiter call ∧ WholeMs call.now ∧
    ∀ own now, call = .consume key own now → own = policy.toRateLimitPolicy

/-- Consumes of any key, the key's own before a given moment. -/
def PollsBefore (key : String) (stop : Rat) : LimiterCall → Prop
  | .consume other _ now => other = key → now < stop
  | .prune _ _ => False

/-- Consumes of any key, the key's own all at one moment. -/
def RepeatsAt (key : String) (instant : Rat) : LimiterCall → Prop
  | .consume other _ now => other = key → now = instant
  | .prune _ _ => False

def isConsumeOf (key : String) : LimiterCall → Bool
  | .consume other _ _ => decide (other = key)
  | .prune _ _ => false

def requestsOf (key : String) (past : List (LimiterCall × Option RateLimitResult)) : Nat :=
  past.countP fun e => isConsumeOf key e.1

section Reports
variable {Limiter : Type}
  (consume : Limiter → String → RateLimitPolicy → Rat → Limiter × RateLimitResult)
  (prune : Limiter → Rat → Limiter) (blank : Limiter) (key : String) (policy : UsablePolicy)

/-- After a rejection every request of the key before the end of its wait is rejected, and the
    next one, at the end of it, is allowed. -/
def WaitIsExact : Prop :=
  ∀ past limiter, (Machine.mk blank (limiterStep consume prune)).Run (SteadyKey key policy) past
      limiter →
    ∀ waiting now (result : RateLimitResult) earlier,
      past = waiting ++ (.consume key policy.toRateLimitPolicy now, some result) :: earlier →
      result.allowed = false →
      (∀ e ∈ waiting, PollsBefore key (now + result.retryAfterMs) e.1) →
        (∀ t answer, (.consume key policy.toRateLimitPolicy t, some answer) ∈ waiting →
          answer.allowed = false) ∧
        (consume limiter key policy.toRateLimitPolicy (now + result.retryAfterMs)).2.allowed = true

/-- After a consume that reports m remaining, a further one at the same instant is allowed
    exactly when fewer than m came before it. -/
def RemainingIsExact : Prop :=
  ∀ past limiter, (Machine.mk blank (limiterStep consume prune)).Run (SteadyKey key policy) past
      limiter →
    ∀ again now (result : RateLimitResult) earlier,
      past = again ++ (.consume key policy.toRateLimitPolicy now, some result) :: earlier →
      (∀ e ∈ again, RepeatsAt key now e.1) →
        ∃ m : Nat, result.remaining = m ∧
          ((consume limiter key policy.toRateLimitPolicy now).2.allowed = true ↔
            requestsOf key again < m)

variable {consume prune blank key policy}

/-- A key that waits: requests of others leave it so, its own before the end are rejected and
    leave it so, and the one at the end is allowed. -/
structure WaitsUntil
    (consume : Limiter → String → RateLimitPolicy → Rat → Limiter × RateLimitResult)
    (key : String) (policy : UsablePolicy) (stop : Rat) (waits : Rat → Limiter → Prop) : Prop where
  others : ∀ limiter last other own now, waits last limiter → other ≠ key →
    waits last (consume limiter other own now).1
  polled : ∀ limiter last now, waits last limiter → last ≤ now → WholeMs now → now < stop →
    (consume limiter key policy.toRateLimitPolicy now).2.allowed = false ∧
      waits now (consume limiter key policy.toRateLimitPolicy now).1
  admitted : ∀ limiter last, waits last limiter →
    (consume limiter key policy.toRateLimitPolicy stop).2.allowed = true

theorem waits_through_run {past waiting earlier : List (LimiterCall × Option RateLimitResult)}
    {limiter : Limiter} {now : Rat} {result : RateLimitResult} {stop : Rat}
    {waits : Rat → Limiter → Prop}
    (run : (Machine.mk blank (limiterStep consume prune)).Run (SteadyKey key policy) past limiter)
    (split : past = waiting ++ (.consume key policy.toRateLimitPolicy now, some result) :: earlier)
    (waiter : WaitsUntil consume key policy stop waits)
    (start : ∀ before, (Machine.mk blank (limiterStep consume prune)).Run (SteadyKey key policy)
      earlier before → consume before key policy.toRateLimitPolicy now =
        ((consume before key policy.toRateLimitPolicy now).1, result) →
      waits now (consume before key policy.toRateLimitPolicy now).1)
    (polls : ∀ e ∈ waiting, PollsBefore key stop e.1) :
    (∀ t answer, (.consume key policy.toRateLimitPolicy t, some answer) ∈ waiting →
      answer.allowed = false) ∧
    ∃ e ∈ waiting ++ (.consume key policy.toRateLimitPolicy now, some result) :: earlier,
      waits e.1.now limiter := by
  refine run.after split (fun waiting limiter => (∀ e ∈ waiting, PollsBefore key stop e.1) →
    (∀ t (answer : RateLimitResult), (.consume key policy.toRateLimitPolicy t, some answer) ∈ waiting →
      answer.allowed = false) ∧
    ∃ e ∈ waiting ++ (.consume key policy.toRateLimitPolicy now, some result) :: earlier,
      waits e.1.now limiter) ?_ ?_ polls
  · intro before after reached _ moved _
    obtain ⟨rfl, same⟩ := Prod.mk.inj (Option.some.inj moved)
    exact ⟨by simp, _, List.mem_cons_self, start before reached (Prod.ext rfl (Option.some.inj same))⟩
  · intro waiting limiter call after answer _ known permitted moved polls
    rw [List.forall_mem_cons] at polls
    obtain ⟨rejected, e, member, waits_now⟩ := known polls.2
    cases call with
    | prune at_time olderThan => exact polls.1.elim
    | consume other own at_time =>
      obtain ⟨rfl, rfl⟩ := Prod.mk.inj (Option.some.inj moved)
      by_cases same : other = key
      · subst other
        obtain rfl := permitted.2.2 own at_time rfl
        obtain ⟨refused, still⟩ := waiter.polled limiter e.1.now at_time waits_now
          (permitted.1 e member) permitted.2.1 (polls.1 rfl)
        refine ⟨?_, _, List.mem_cons_self, still⟩
        intro t answer listed
        rcases List.mem_cons.mp listed with newest | before
        · obtain rfl := Option.some.inj (Prod.mk.inj newest).2
          exact refused
        · exact rejected t answer before
      · refine ⟨?_, e, List.mem_cons_of_mem _ member,
          waiter.others limiter e.1.now other own at_time waits_now same⟩
        intro t answer listed
        rcases List.mem_cons.mp listed with newest | before
        · simp only [Prod.mk.injEq, LimiterCall.consume.injEq] at newest
          exact absurd newest.1.1.symm same
        · exact rejected t answer before

/- A limiter's waits are exact when each rejection it answers starts one. -/
theorem WaitIsExact.of_waits {waits : Rat → Rat → Limiter → Prop}
    (waiter : ∀ stop, (∃ last limiter, waits stop last limiter) →
      WaitsUntil consume key policy stop (waits stop))
    (start : ∀ past limiter now, (Machine.mk blank (limiterStep consume prune)).Run
      (SteadyKey key policy) past limiter → (∀ e ∈ past, e.1.now ≤ now) → WholeMs now →
      (consume limiter key policy.toRateLimitPolicy now).2.allowed = false →
      waits (now + (consume limiter key policy.toRateLimitPolicy now).2.retryAfterMs) now
        (consume limiter key policy.toRateLimitPolicy now).1) :
    WaitIsExact consume prune blank key policy := by
  intro past limiter run waiting now result earlier split rejected polls
  have begins : ∀ before, (Machine.mk blank (limiterStep consume prune)).Run (SteadyKey key policy)
      earlier before → consume before key policy.toRateLimitPolicy now =
        ((consume before key policy.toRateLimitPolicy now).1, result) →
      waits (now + result.retryAfterMs) now (consume before key policy.toRateLimitPolicy now).1 := by
    intro before reached answered
    have told : (consume before key policy.toRateLimitPolicy now).2 = result :=
      congrArg Prod.snd answered
    obtain ⟨_, _, _, permitted, _⟩ := run.exchange split
    have at_start := start earlier before now reached permitted.1 permitted.2.1
    rw [told] at at_start
    exact at_start rejected
  obtain ⟨before, after, reached, _, moved⟩ := run.exchange split
  simp only [limiterStep, Option.some.injEq, Prod.mk.injEq] at moved
  have waiting_now := waiter _ ⟨_, _, begins before reached (Prod.ext rfl moved.2)⟩
  obtain ⟨refused, e, _, waits_now⟩ := waits_through_run run split waiting_now begins polls
  exact ⟨refused, waiting_now.admitted limiter e.1.now waits_now⟩

/-- A key with so many requests left at one instant. -/
structure HasLeft
    (consume : Limiter → String → RateLimitPolicy → Rat → Limiter × RateLimitResult)
    (key : String) (policy : UsablePolicy) (instant : Rat) (left : Int → Limiter → Prop) : Prop where
  others : ∀ limiter n other own now, left n limiter → other ≠ key →
    left n (consume limiter other own now).1
  taken : ∀ limiter n, left n limiter →
    left (n - 1) (consume limiter key policy.toRateLimitPolicy instant).1 ∨
      (n ≤ 0 ∧ left n (consume limiter key policy.toRateLimitPolicy instant).1)
  allowed : ∀ limiter n, left n limiter →
    ((consume limiter key policy.toRateLimitPolicy instant).2.allowed = true ↔ 1 ≤ n)

theorem RemainingIsExact.of_left {left : Rat → Int → Limiter → Prop}
    (counter : ∀ instant, HasLeft consume key policy instant (left instant))
    (start : ∀ limiter now, ∃ n : Int,
      (consume limiter key policy.toRateLimitPolicy now).2.remaining = (n.toNat : Rat) ∧
      left now n (consume limiter key policy.toRateLimitPolicy now).1) :
    RemainingIsExact consume prune blank key policy := by
  intro past limiter run again now result earlier split repeats
  have counted : ∃ n : Int, result.remaining = (n.toNat : Rat) ∧
      ∃ taken : Int, (taken = requestsOf key again ∨ (n ≤ taken ∧ taken ≤ requestsOf key again)) ∧
        left now (n - taken) limiter := by
    refine run.after split (fun again limiter => (∀ e ∈ again, RepeatsAt key now e.1) →
      ∃ n : Int, result.remaining = (n.toNat : Rat) ∧
        ∃ taken : Int, (taken = requestsOf key again ∨ (n ≤ taken ∧ taken ≤ requestsOf key again)) ∧
          left now (n - taken) limiter) ?_ ?_ repeats
    · intro before after _ _ moved _
      obtain ⟨rfl, answered⟩ := Prod.mk.inj (Option.some.inj moved)
      obtain rfl := Option.some.inj answered
      obtain ⟨n, remaining, left_now⟩ := start before now
      exact ⟨n, remaining, 0, Or.inl rfl, by simpa using left_now⟩
    · intro again limiter call after answer _ known permitted moved repeats
      rw [List.forall_mem_cons] at repeats
      obtain ⟨n, remaining, taken, counts, left_now⟩ := known repeats.2
      refine ⟨n, remaining, ?_⟩
      cases call with
      | prune at_time olderThan => exact repeats.1.elim
      | consume other own at_time =>
        obtain ⟨rfl, rfl⟩ := Prod.mk.inj (Option.some.inj moved)
        by_cases same : other = key
        · subst other
          obtain rfl := permitted.2.2 own at_time rfl
          obtain rfl : at_time = now := repeats.1 rfl
          have one_more (reply : Option RateLimitResult) : requestsOf key
              ((.consume key policy.toRateLimitPolicy at_time, reply) :: again) =
                requestsOf key again + 1 := List.countP_cons_of_pos (by simp [isConsumeOf])
          rcases (counter at_time).taken limiter (n - taken) left_now with fewer | ⟨none_left, still⟩
          · refine ⟨taken + 1, ?_, by rwa [← sub_sub]⟩
            rw [one_more]
            omega
          · refine ⟨taken, ?_, still⟩
            rw [one_more]
            omega
        · have as_many (reply : Option RateLimitResult) : requestsOf key
              ((.consume other own at_time, reply) :: again) = requestsOf key again :=
            List.countP_cons_of_neg (by simp [isConsumeOf, same])
          refine ⟨taken, ?_, (counter now).others limiter _ other own at_time left_now same⟩
          rw [as_many]
          exact counts
  obtain ⟨n, remaining, taken, counts, left_now⟩ := counted
  refine ⟨n.toNat, remaining, ?_⟩
  rw [(counter now).allowed limiter (n - taken) left_now]
  omega

end Reports

namespace TokenBucketRateLimiter
variable {key : String} {policy : UsablePolicy} {buckets : TokenBucketRateLimiter}

/-- The key's bucket, as a consume under the policy leaves it. -/
structure OwnBucket (policy : UsablePolicy) (buckets : TokenBucketRateLimiter) (key : String)
    (bucket : TokenBucketState) : Prop where
  stored : buckets.get key = some bucket
  same_limit : bucket.limit = policy.limit
  same_window : bucket.windowMs = policy.windowMs

theorem OwnBucket.bucketFor {bucket : TokenBucketState} (own : OwnBucket policy buckets key bucket)
    (now : Rat) : bucketFor buckets key policy.toRateLimitPolicy now = bucket := by
  unfold TokenBucketRateLimiter.bucketFor
  rw [own.stored]
  simp [own.same_limit, own.same_window]

theorem OwnBucket.other {bucket : TokenBucketState} (own : OwnBucket policy buckets key bucket)
    {other : String} (ne : other ≠ key) (changed : RateLimitPolicy) (now : Rat) :
    OwnBucket policy (consume buckets other changed now).1 key bucket :=
  { own with stored := (InsertionMap.get_set_ne _ _ (Ne.symm ne)).trans own.stored }

theorem bucketFor_own (buckets : TokenBucketRateLimiter) (key : String) (policy : UsablePolicy)
    (now : Rat) : (bucketFor buckets key policy.toRateLimitPolicy now).limit = policy.limit ∧
      (bucketFor buckets key policy.toRateLimitPolicy now).windowMs = policy.windowMs := by
  unfold TokenBucketRateLimiter.bucketFor
  split
  · split
    · exact ⟨rfl, rfl⟩
    · rename_i same
      rw [not_or, not_not, not_not] at same
      exact same
  · exact ⟨rfl, rfl⟩

theorem consume_own (buckets : TokenBucketRateLimiter) (key : String) (policy : UsablePolicy)
    (now : Rat) : OwnBucket policy (consume buckets key policy.toRateLimitPolicy now).1 key
      { bucketFor buckets key policy.toRateLimitPolicy now with
        tokens := spend (refilledTokens (bucketFor buckets key policy.toRateLimitPolicy now)
          policy.toRateLimitPolicy now)
        lastRefill := now } :=
  ⟨InsertionMap.get_set_self _ _ _, (bucketFor_own buckets key policy now).1,
    (bucketFor_own buckets key policy now).2⟩

/-- The level the bucket will have at the end of the wait: one token, but not a millisecond
    before. -/
def FillsBy (key : String) (policy : UsablePolicy) (stop last : Rat)
    (buckets : TokenBucketRateLimiter) : Prop :=
  WholeMs stop ∧ last ≤ stop ∧ ∃ bucket, OwnBucket policy buckets key bucket ∧
    bucket.lastRefill = last ∧
    1 ≤ bucket.tokens + (stop - last) * refillRate policy.toRateLimitPolicy ∧
    bucket.tokens + (stop - last) * refillRate policy.toRateLimitPolicy <
      1 + refillRate policy.toRateLimitPolicy

theorem refilled_since {bucket : TokenBucketState} {now : Rat} (forward : bucket.lastRefill ≤ now) :
    refilledTokens bucket policy.toRateLimitPolicy now = min policy.limit
      (bucket.tokens + (now - bucket.lastRefill) * refillRate policy.toRateLimitPolicy) := by
  rw [refilledTokens, max_eq_right (by linarith)]

theorem fillsBy_waits (key : String) (policy : UsablePolicy) (stop : Rat) :
    WaitsUntil consume key policy stop (FillsBy key policy stop) := by
  have rate := rate_pos policy
  have whole_limit := policy.some_request
  constructor
  · rintro buckets last other own now ⟨whole, ahead, bucket, mine, rest⟩ ne
    exact ⟨whole, ahead, bucket, mine.other ne own now, rest⟩
  · rintro buckets last now ⟨whole, ahead, bucket, mine, rfl, full, short⟩ forward whole_now before
    have left := whole_now.le_sub_one whole before
    have gone : 1 * refillRate policy.toRateLimitPolicy ≤
        (stop - now) * refillRate policy.toRateLimitPolicy :=
      mul_le_mul_of_nonneg_right (by linarith) rate.le
    have level : bucket.tokens + (now - bucket.lastRefill) * refillRate policy.toRateLimitPolicy =
        bucket.tokens + (stop - bucket.lastRefill) * refillRate policy.toRateLimitPolicy -
          (stop - now) * refillRate policy.toRateLimitPolicy := by ring
    have below : bucket.tokens +
        (now - bucket.lastRefill) * refillRate policy.toRateLimitPolicy < 1 := by linarith
    have refilled : refilledTokens bucket policy.toRateLimitPolicy now =
        bucket.tokens + (now - bucket.lastRefill) * refillRate policy.toRateLimitPolicy := by
      rw [refilled_since forward, min_eq_right (by linarith)]
    have after := consume_own buckets key policy now
    rw [mine.bucketFor now, refilled, spend, if_neg (not_le.mpr below)] at after
    constructor
    · simp only [consume, mine.bucketFor now, refilled]
      simpa using below
    · refine ⟨whole, before.le, _, after, rfl, ?_, ?_⟩
      · linarith
      · linarith
  · rintro buckets last ⟨whole, ahead, bucket, mine, rfl, full, short⟩
    simp only [consume, mine.bucketFor stop, decide_eq_true_eq]
    rw [refilled_since ahead]
    exact le_min whole_limit full

theorem rejected_fillsBy (buckets : TokenBucketRateLimiter) (key : String) (policy : UsablePolicy)
    {now : Rat} (whole : WholeMs now)
    (rejected : (consume buckets key policy.toRateLimitPolicy now).2.allowed = false) :
    FillsBy key policy (now + (consume buckets key policy.toRateLimitPolicy now).2.retryAfterMs) now
      (consume buckets key policy.toRateLimitPolicy now).1 := by
  have rate := rate_pos policy
  have own := consume_own buckets key policy now
  generalize reached : refilledTokens (bucketFor buckets key policy.toRateLimitPolicy now)
    policy.toRateLimitPolicy now = tokens at own
  have below : ¬ 1 ≤ tokens := by
    simp only [consume, reached] at rejected
    exact of_decide_eq_false rejected
  have told : (consume buckets key policy.toRateLimitPolicy now).2.retryAfterMs =
      max 1 ((⌈(1 - tokens) / refillRate policy.toRateLimitPolicy⌉ : Int) : Rat) := by
    simp only [consume, reached, spend, below, decide_false, Bool.false_eq_true, ↓reduceIte]
  rw [spend, if_neg below] at own
  have lacking : 0 < (1 - tokens) / refillRate policy.toRateLimitPolicy :=
    div_pos (by linarith) rate
  have some_wait : (1 : Rat) ≤ (⌈(1 - tokens) / refillRate policy.toRateLimitPolicy⌉ : Int) := by
    exact_mod_cast Int.one_le_ceil_iff.mpr lacking
  rw [told, max_eq_right some_wait]
  generalize wait : ⌈(1 - tokens) / refillRate policy.toRateLimitPolicy⌉ = r at some_wait
  have enough : (1 - tokens) / refillRate policy.toRateLimitPolicy ≤ r := wait ▸ Int.le_ceil _
  have least : (r : Rat) < (1 - tokens) / refillRate policy.toRateLimitPolicy + 1 :=
    wait ▸ Int.ceil_lt_add_one _
  rw [div_le_iff₀ rate] at enough
  rw [← sub_lt_iff_lt_add, lt_div_iff₀ rate] at least
  obtain ⟨reading, rfl⟩ := whole
  refine ⟨⟨reading + r, by push_cast; rfl⟩, by linarith, _, own, rfl, ?_, ?_⟩
  · rw [add_sub_cancel_left]
    linarith
  · rw [add_sub_cancel_left]
    linarith

/-- So many whole tokens at one instant. -/
def TokensLeft (key : String) (policy : UsablePolicy) (instant : Rat) (n : Int)
    (buckets : TokenBucketRateLimiter) : Prop :=
  ∃ bucket, OwnBucket policy buckets key bucket ∧ bucket.lastRefill = instant ∧
    bucket.tokens ≤ policy.limit ∧ ⌊bucket.tokens⌋ = n

theorem tokensLeft_counts (key : String) (policy : UsablePolicy) (instant : Rat) :
    HasLeft consume key policy instant (TokensLeft key policy instant) := by
  have unchanged {bucket : TokenBucketState} (same : bucket.lastRefill = instant)
      (capped : bucket.tokens ≤ policy.limit) :
      refilledTokens bucket policy.toRateLimitPolicy instant = bucket.tokens := by
    rw [refilledTokens, same, sub_self, max_self, zero_mul, add_zero, min_eq_right capped]
  constructor
  · rintro buckets n other own now ⟨bucket, mine, rest⟩ ne
    exact ⟨bucket, mine.other ne own now, rest⟩
  · rintro buckets n ⟨bucket, mine, same, capped, floor⟩
    have after := consume_own buckets key policy instant
    rw [mine.bucketFor instant, unchanged same capped] at after
    by_cases enough : 1 ≤ bucket.tokens
    · rw [spend, if_pos enough] at after
      refine Or.inl ⟨_, after, rfl, ?_, ?_⟩
      · dsimp only
        linarith
      · dsimp only
        rw [Int.floor_sub_one, floor]
    · rw [spend, if_neg enough] at after
      refine Or.inr ⟨?_, _, after, rfl, capped, floor⟩
      have few : ⌊bucket.tokens⌋ < 1 := Int.floor_lt.mpr (by exact_mod_cast not_le.mp enough)
      omega
  · rintro buckets n ⟨bucket, mine, same, capped, rfl⟩
    simp only [consume, mine.bucketFor instant, unchanged same capped, decide_eq_true_eq]
    rw [Int.le_floor]
    norm_cast

theorem consume_tokensLeft (key : String) (policy : UsablePolicy)
    (buckets : TokenBucketRateLimiter) (now : Rat) : ∃ n : Int,
      (consume buckets key policy.toRateLimitPolicy now).2.remaining = (n.toNat : Rat) ∧
      TokensLeft key policy now n (consume buckets key policy.toRateLimitPolicy now).1 := by
  have own := consume_own buckets key policy now
  refine ⟨_, ?_, _, own, rfl, ?_, rfl⟩
  · simp only [consume]
    rw [← Int.cast_natCast, Int.toNat_eq_max, max_comm]
    push_cast
    rfl
  · have capped : refilledTokens (bucketFor buckets key policy.toRateLimitPolicy now)
        policy.toRateLimitPolicy now ≤ policy.limit := min_le_left _ _
    dsimp only
    unfold spend
    split
    · linarith
    · exact capped

end TokenBucketRateLimiter

namespace SlidingWindowRateLimiter
variable {key : String} {policy : UsablePolicy} {windows : SlidingWindowRateLimiter}

/-- The stored timestamps of a key in the order they were taken, none later than the clock and
    no more than the limit. -/
structure Orderly (key : String) (policy : UsablePolicy)
    (past : List (LimiterCall × Option RateLimitResult)) (windows : SlidingWindowRateLimiter) :
    Prop where
  sorted : (storedTimestamps windows key).Pairwise (· ≤ ·)
  taken : ∀ t ∈ storedTimestamps windows key, ∃ e ∈ past, t ≤ e.1.now
  within : ((storedTimestamps windows key).length : Rat) ≤ policy.limit

theorem mem_recent {now t : Rat} :
    t ∈ recent windows key policy.toRateLimitPolicy now ↔
      t ∈ storedTimestamps windows key ∧ now - policy.windowMs < t := by
  rw [recent_eq_filter, List.mem_filter, decide_eq_true_eq]

theorem allowed_iff (windows : SlidingWindowRateLimiter) (key : String) (policy : RateLimitPolicy)
    (now : Rat) : (consume windows key policy now).2.allowed = true ↔
      ((recent windows key policy now).length : Rat) < policy.limit := by
  simp only [consume, decide_eq_true_eq]

theorem room_for_one (policy : UsablePolicy) {n : Nat} (room : (n : Rat) < policy.limit) :
    ((n + 1 : Nat) : Rat) ≤ policy.limit := by
  obtain ⟨limit, whole⟩ := policy.whole_requests
  rw [whole] at room ⊢
  exact_mod_cast room

theorem Orderly.recent_length {past : List (LimiterCall × Option RateLimitResult)}
    (orderly : Orderly key policy past windows) (now : Rat) :
    ((recent windows key policy.toRateLimitPolicy now).length : Rat) ≤ policy.limit := by
  have fewer : (recent windows key policy.toRateLimitPolicy now).length ≤
      (storedTimestamps windows key).length := by
    rw [recent_eq_filter]
    exact List.length_filter_le _ _
  have within := orderly.within
  have fewer' : ((recent windows key policy.toRateLimitPolicy now).length : Rat) ≤
      (storedTimestamps windows key).length := by exact_mod_cast fewer
  linarith

theorem Orderly.recent_sorted {past : List (LimiterCall × Option RateLimitResult)}
    (orderly : Orderly key policy past windows) (now : Rat) :
    (recent windows key policy.toRateLimitPolicy now).Pairwise (· ≤ ·) := by
  rw [recent_eq_filter]
  exact orderly.sorted.filter _

theorem orderly_empty (past : List (LimiterCall × Option RateLimitResult))
    (empty : storedTimestamps windows key = []) : Orderly key policy past windows := by
  have whole_limit := policy.some_request
  constructor
  · rw [empty]
    exact List.Pairwise.nil
  · rw [empty]
    intro t member
    cases member
  · rw [empty, List.length_nil]
    push_cast
    linarith

theorem Orderly.untouched {past : List (LimiterCall × Option RateLimitResult)}
    (orderly : Orderly key policy past windows) {changed : SlidingWindowRateLimiter}
    (same : storedTimestamps changed key = storedTimestamps windows key)
    (e : LimiterCall × Option RateLimitResult) : Orderly key policy (e :: past) changed := by
  constructor
  · rw [same]
    exact orderly.sorted
  · intro t member
    rw [same] at member
    obtain ⟨earlier, at_past, before⟩ := orderly.taken t member
    exact ⟨earlier, List.mem_cons_of_mem _ at_past, before⟩
  · rw [same]
    exact orderly.within

/- A consume drops the old requests and appends its own, which is the latest, if there is room. -/
theorem Orderly.consumed {past : List (LimiterCall × Option RateLimitResult)}
    (orderly : Orderly key policy past windows) {now : Rat}
    (earlier : ∀ t ∈ storedTimestamps windows key, t ≤ now) (answer : Option RateLimitResult) :
    Orderly key policy ((.consume key policy.toRateLimitPolicy now, answer) :: past)
      (consume windows key policy.toRateLimitPolicy now).1 := by
  have kept : ∀ t ∈ recent windows key policy.toRateLimitPolicy now, t ≤ now :=
    fun t member => earlier t (mem_recent.mp member).1
  constructor
  · rw [stored_after_consume]
    split
    · rw [List.pairwise_append]
      refine ⟨orderly.recent_sorted now, List.pairwise_singleton _ _, ?_⟩
      intro t member last newest
      rw [List.mem_singleton.mp newest]
      exact kept t member
    · exact orderly.recent_sorted now
  · intro t member
    refine ⟨_, List.mem_cons_self, ?_⟩
    rw [stored_after_consume] at member
    split at member
    · rcases List.mem_append.mp member with before | newest
      · exact kept t before
      · exact (List.mem_singleton.mp newest).le
    · exact kept t member
  · rw [stored_after_consume]
    split
    · rename_i allowed
      rw [List.length_append, List.length_singleton]
      exact room_for_one policy ((allowed_iff _ _ _ _).mp allowed)
    · exact orderly.recent_length now

theorem stored_after_prune (windows : SlidingWindowRateLimiter) (key : String) (olderThan : Rat) :
    storedTimestamps (prune windows olderThan) key = [] ∨
      storedTimestamps (prune windows olderThan) key = storedTimestamps windows key := by
  unfold storedTimestamps prune
  rw [InsertionMap.get_keep]
  cases windows.get key with
  | none => exact Or.inl rfl
  | some state => by_cases stale : state.lastSeen < olderThan <;> simp [Option.filter, stale]

theorem orderly_always {past : List (LimiterCall × Option RateLimitResult)}
    (run : slidingWindowMachine.Run (SteadyKey key policy) past windows) :
    Orderly key policy past windows := by
  apply run.invariant (Orderly key policy) (orderly_empty [] rfl)
  intro past windows call after answer _ known permitted moved
  cases call with
  | consume other own now =>
    obtain ⟨rfl, rfl⟩ := Prod.mk.inj (Option.some.inj moved)
    by_cases same : key = other
    · subst other
      obtain rfl := permitted.2.2 own now rfl
      refine known.consumed ?_ _
      intro t member
      obtain ⟨e, at_past, before⟩ := known.taken t member
      exact before.trans (permitted.1 e at_past)
    · exact known.untouched (stored_after_other_consume windows same own now) _
  | prune now olderThan =>
    obtain ⟨rfl, rfl⟩ := Prod.mk.inj (Option.some.inj moved)
    rcases stored_after_prune windows key olderThan with gone | same
    · exact orderly_empty _ gone
    · exact known.untouched same _

/-- A full window whose oldest request leaves at the end of the wait; until then none does. -/
def FullUntil (key : String) (policy : UsablePolicy) (stop last : Rat)
    (windows : SlidingWindowRateLimiter) : Prop :=
  ∃ oldest rest, storedTimestamps windows key = oldest :: rest ∧
    ((oldest :: rest).length : Rat) = policy.limit ∧ oldest + policy.windowMs ≤ stop ∧
    ∀ now, last ≤ now → WholeMs now → now < stop → ∀ t ∈ oldest :: rest, now - policy.windowMs < t

theorem fullUntil_waits (key : String) (policy : UsablePolicy) (stop : Rat) :
    WaitsUntil consume key policy stop (FullUntil key policy stop) := by
  constructor
  · rintro windows last other own now ⟨oldest, rest, stored, waits⟩ ne
    refine ⟨oldest, rest, ?_, waits⟩
    rw [stored_after_other_consume windows (Ne.symm ne)]
    exact stored
  · rintro windows last now ⟨oldest, rest, stored, full, leaves, stay⟩ forward whole before
    have kept : recent windows key policy.toRateLimitPolicy now = oldest :: rest := by
      rw [recent_eq_filter, stored, List.filter_eq_self]
      intro t member
      rw [decide_eq_true_eq]
      exact stay now forward whole before t member
    have refused : (consume windows key policy.toRateLimitPolicy now).2.allowed = false := by
      rw [Bool.eq_false_iff]
      intro allowed
      rw [allowed_iff, kept, full] at allowed
      exact lt_irrefl _ allowed
    refine ⟨refused, oldest, rest, ?_, full, leaves, ?_⟩
    · rw [stored_after_consume, refused, kept]
      rfl
    · intro later ahead
      exact stay later (forward.trans ahead)
  · rintro windows last ⟨oldest, rest, stored, full, leaves, stay⟩
    rw [allowed_iff, recent_eq_filter, stored, List.filter_cons_of_neg]
    · have fewer : ((rest.filter fun t => decide (stop - policy.windowMs < t)).length : Rat) ≤
          rest.length := by exact_mod_cast List.length_filter_le _ _
      rw [List.length_cons] at full
      push_cast at full
      linarith
    · rw [decide_eq_true_eq, not_lt]
      linarith

theorem rejected_fullUntil {past : List (LimiterCall × Option RateLimitResult)} {now : Rat}
    (run : slidingWindowMachine.Run (SteadyKey key policy) past windows) (whole : WholeMs now)
    (rejected : (consume windows key policy.toRateLimitPolicy now).2.allowed = false) :
    FullUntil key policy
      (now + (consume windows key policy.toRateLimitPolicy now).2.retryAfterMs) now
      (consume windows key policy.toRateLimitPolicy now).1 := by
  have orderly := orderly_always run
  have whole_limit := policy.some_request
  have no_room : ¬ ((recent windows key policy.toRateLimitPolicy now).length : Rat) <
      policy.limit := by
    rw [← allowed_iff, rejected]
    exact Bool.false_ne_true
  have full := le_antisymm (orderly.recent_length now) (not_lt.mp no_room)
  have sorted := orderly.recent_sorted now
  have young : ∀ t ∈ recent windows key policy.toRateLimitPolicy now, now - policy.windowMs < t :=
    fun t member => (mem_recent.mp member).2
  have told : (consume windows key policy.toRateLimitPolicy now).2.retryAfterMs = max 1
      (((recent windows key policy.toRateLimitPolicy now).head?.elim (now + policy.windowMs)
        fun oldest => oldest + policy.windowMs) - now) := by
    simp only [consume, no_room, decide_false, Bool.false_eq_true, ↓reduceIte]
    cases (recent windows key policy.toRateLimitPolicy now).head? <;> rfl
  have stored : storedTimestamps (consume windows key policy.toRateLimitPolicy now).1 key =
      recent windows key policy.toRateLimitPolicy now := by
    rw [stored_after_consume, rejected]
    rfl
  rw [told]
  generalize recent windows key policy.toRateLimitPolicy now = kept at full sorted young stored
  cases kept with
  | nil =>
    rw [List.length_nil] at full
    push_cast at full
    linarith
  | cons oldest rest =>
    have first : ∀ t ∈ rest, oldest ≤ t := (List.pairwise_cons.mp sorted).1
    have longest := le_max_right (1 : Rat) (oldest + policy.windowMs - now)
    refine ⟨oldest, rest, stored, full, ?_, ?_⟩
    · simp only [List.head?_cons, Option.elim_some]
      linarith
    · intro later ahead whole_later before t member
      rcases le_total (oldest + policy.windowMs - now) 1 with short | long
      · -- the guard of one millisecond: no later reading lies before the end of the wait
        simp only [List.head?_cons, Option.elim_some, max_eq_left short] at before
        obtain ⟨reading, rfl⟩ := whole
        have next := whole_later.le_sub_one ⟨reading + 1, by push_cast; rfl⟩ before
        obtain rfl : later = reading := by linarith
        exact young t member
      · simp only [List.head?_cons, Option.elim_some, max_eq_right long] at before
        have not_before : oldest ≤ t := by
          rcases List.mem_cons.mp member with rfl | behind
          · exact le_refl _
          · exact first t behind
        linarith

/-- So much room in the window at one instant. -/
def RoomLeft (key : String) (policy : UsablePolicy) (instant : Rat) (n : Int)
    (windows : SlidingWindowRateLimiter) : Prop :=
  (∀ t ∈ storedTimestamps windows key, instant - policy.windowMs < t) ∧
    ((storedTimestamps windows key).length : Rat) + n = policy.limit

theorem RoomLeft.recent {instant : Rat} {n : Int} (room : RoomLeft key policy instant n windows) :
    recent windows key policy.toRateLimitPolicy instant = storedTimestamps windows key := by
  rw [recent_eq_filter, List.filter_eq_self]
  intro t member
  rw [decide_eq_true_eq]
  exact room.1 t member

theorem RoomLeft.allowed_iff {instant : Rat} {n : Int} (room : RoomLeft key policy instant n windows) :
    (consume windows key policy.toRateLimitPolicy instant).2.allowed = true ↔ 1 ≤ n := by
  rw [SlidingWindowRateLimiter.allowed_iff, room.recent, ← room.2]
  constructor
  · intro less
    have positive : (0 : Rat) < n := by linarith
    exact_mod_cast positive
  · intro some_left
    have positive : (1 : Rat) ≤ n := by exact_mod_cast some_left
    linarith

theorem roomLeft_counts (key : String) (policy : UsablePolicy) (instant : Rat) :
    HasLeft consume key policy instant (RoomLeft key policy instant) := by
  constructor
  · intro windows n other own now room ne
    unfold RoomLeft
    rw [stored_after_other_consume windows (Ne.symm ne)]
    exact room
  · intro windows n room
    have time := policy.some_time
    have stored := stored_after_consume windows key policy.toRateLimitPolicy instant
    rw [room.recent] at stored
    by_cases some_left : 1 ≤ n
    · rw [if_pos (room.allowed_iff.mpr some_left)] at stored
      refine Or.inl ⟨?_, ?_⟩
      · intro t member
        rw [stored] at member
        rcases List.mem_append.mp member with before | newest
        · exact room.1 t before
        · rw [List.mem_singleton.mp newest]
          linarith
      · rw [stored, ← room.2, List.length_append, List.length_singleton]
        push_cast
        ring
    · rw [if_neg fun allowed => some_left (room.allowed_iff.mp allowed)] at stored
      refine Or.inr ⟨by omega, ?_⟩
      unfold RoomLeft
      rw [stored]
      exact room
  · intro windows n room
    exact room.allowed_iff

theorem consume_roomLeft (key : String) (policy : UsablePolicy) (windows : SlidingWindowRateLimiter)
    (now : Rat) : ∃ n : Int,
      (consume windows key policy.toRateLimitPolicy now).2.remaining = (n.toNat : Rat) ∧
      RoomLeft key policy now n (consume windows key policy.toRateLimitPolicy now).1 := by
  have time := policy.some_time
  have stored := stored_after_consume windows key policy.toRateLimitPolicy now
  obtain ⟨limit, whole⟩ := policy.whole_requests
  refine ⟨limit - (storedTimestamps (consume windows key policy.toRateLimitPolicy now).1
    key).length, ?_, ?_, ?_⟩
  · have told : (consume windows key policy.toRateLimitPolicy now).2.remaining = max 0
        (policy.limit - (storedTimestamps (consume windows key policy.toRateLimitPolicy now).1
          key).length) := by
      rw [stored]
      rfl
    rw [told, whole, ← Int.cast_natCast (Int.toNat _), Int.toNat_eq_max, max_comm]
    push_cast
    rfl
  · intro t member
    rw [stored] at member
    split at member
    · rcases List.mem_append.mp member with before | newest
      · exact (mem_recent.mp before).2
      · rw [List.mem_singleton.mp newest]
        linarith
    · exact (mem_recent.mp member).2
  · rw [whole]
    push_cast
    ring

end SlidingWindowRateLimiter

/-- The reports of both limiters are exact: what a rejection asks for is the least wait that
    suffices, polled or not, and what an answer says remains is what remains. -/
theorem reports_are_exact (key : String) (policy : UsablePolicy) :
    (WaitIsExact TokenBucketRateLimiter.consume TokenBucketRateLimiter.prune InsertionMap.empty key
        policy ∧
      RemainingIsExact TokenBucketRateLimiter.consume TokenBucketRateLimiter.prune
        InsertionMap.empty key policy) ∧
    WaitIsExact SlidingWindowRateLimiter.consume SlidingWindowRateLimiter.prune InsertionMap.empty
        key policy ∧
      RemainingIsExact SlidingWindowRateLimiter.consume SlidingWindowRateLimiter.prune
        InsertionMap.empty key policy := by
  refine ⟨⟨?_, ?_⟩, ?_, ?_⟩
  · refine WaitIsExact.of_waits
      (fun stop _ => TokenBucketRateLimiter.fillsBy_waits key policy stop) ?_
    intro past buckets now _ _ whole rejected
    exact TokenBucketRateLimiter.rejected_fillsBy buckets key policy whole rejected
  · exact RemainingIsExact.of_left (TokenBucketRateLimiter.tokensLeft_counts key policy)
      (TokenBucketRateLimiter.consume_tokensLeft key policy)
  · refine WaitIsExact.of_waits
      (fun stop _ => SlidingWindowRateLimiter.fullUntil_waits key policy stop) ?_
    intro past windows now run _ whole rejected
    exact SlidingWindowRateLimiter.rejected_fullUntil run whole rejected
  · exact RemainingIsExact.of_left (SlidingWindowRateLimiter.roomLeft_counts key policy)
      (SlidingWindowRateLimiter.consume_roomLeft key policy)

end AstraPort.RateLimit
