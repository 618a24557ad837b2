import AstraPort.RateLimit.SlidingWindow
import AstraPort.RateLimit.TokenBucket
import AstraPort.RateLimit.Verdicts

/- The cleanup of idle entries. It goes by the last use of an entry and not by the window of
   its policy; what it deletes after a whole window without use is as good as new, so it
   shows only where a check comes back to a deleted key within the window. -/
namespace AstraPort.RateLimit
open TokenBucketRateLimiter SlidingWindowRateLimiter
namespace Limiters

def MissingAt (algorithm : RateLimitAlgorithm) (key : String) (limiters : Limiters) : Prop :=
  match algorithm with
  | .tokenBucket => limiters.tokenBucket.get key = none
  | .slidingWindow => limiters.slidingWindow.get key = none

instance (algorithm : RateLimitAlgorithm) (key : String) (limiters : Limiters) :
    Decidable (MissingAt algorithm key limiters) := by
  unfold MissingAt
  split <;> infer_instance

/-- What is stored under a key comes from the marked instants, and no bucket is in debt. -/
def StoredFrom (algorithm : RateLimitAlgorithm) (key : String) (marked : Rat → Prop)
    (limiters : Limiters) : Prop :=
  match algorithm with
  | .tokenBucket => ∀ bucket ∈ limiters.tokenBucket.get key,
      0 ≤ bucket.tokens ∧ marked bucket.lastRefill
  | .slidingWindow => ∀ window ∈ limiters.slidingWindow.get key,
      ∀ t ∈ window.timestamps, marked t

section Keys
variable {algorithm : RateLimitAlgorithm} {key : String} {one other : Limiters}
  {marked : Rat → Prop} {policy : UsablePolicy} {now : Rat}

theorem StoredFrom.same (stored : StoredFrom algorithm key marked one)
    (same : SameAt algorithm key other one) : StoredFrom algorithm key marked other := by
  cases algorithm with
  | tokenBucket =>
    intro bucket found
    exact stored bucket (same ▸ found)
  | slidingWindow =>
    intro window found
    exact stored window (same ▸ found)

theorem StoredFrom.mono {wider : Rat → Prop} (stored : StoredFrom algorithm key marked one)
    (imp : ∀ t, marked t → wider t) : StoredFrom algorithm key wider one := by
  cases algorithm with
  | tokenBucket =>
    exact fun bucket found => ⟨(stored bucket found).1, imp _ (stored bucket found).2⟩
  | slidingWindow => exact fun window found t member => imp t (stored window found t member)

theorem spend_nonneg {tokens : Rat} (nonnegative : 0 ≤ tokens) : 0 ≤ spend tokens := by
  unfold spend
  split <;> linarith

theorem refilledTokens_nonneg {bucket : TokenBucketState} (nonnegative : 0 ≤ bucket.tokens) :
    0 ≤ refilledTokens bucket policy.toRateLimitPolicy now := by
  have rate := rate_pos policy
  have requests := policy.some_request
  have refill : 0 ≤ max 0 (now - bucket.lastRefill) * refillRate policy.toRateLimitPolicy :=
    mul_nonneg (le_max_left _ _) rate.le
  exact le_min (by linarith) (by linarith)

/- A consume marks its own instant only. -/
theorem StoredFrom.consume (stored : StoredFrom policy.algorithm key marked one)
    (at_now : marked now) :
    StoredFrom policy.algorithm key marked (one.consume key policy.toRateLimitPolicy now).1 := by
  cases chosen : policy.algorithm with
  | tokenBucket =>
    rw [chosen] at stored
    simp only [StoredFrom, Limiters.consume, chosen, TokenBucketRateLimiter.consume,
      InsertionMap.get_set_self, Option.mem_some_iff, forall_eq']
    refine ⟨spend_nonneg (refilledTokens_nonneg ?_), at_now⟩
    unfold bucketFor
    have requests := policy.some_request
    have full : 0 ≤ (fullBucket policy.toRateLimitPolicy now).tokens := by
      simp only [fullBucket]
      linarith
    split
    · split
      · exact full
      · rename_i found _
        exact (stored _ found).1
    · exact full
  | slidingWindow =>
    rw [chosen] at stored
    simp only [StoredFrom, Limiters.consume, chosen, SlidingWindowRateLimiter.consume,
      InsertionMap.get_set_self, Option.mem_some_iff, forall_eq']
    have kept : ∀ t ∈ recent one.slidingWindow key policy.toRateLimitPolicy now, marked t := by
      intro t member
      have from_stored := (List.mem_filter.mp member).1
      unfold stateFor at from_stored
      cases found : one.slidingWindow.get key with
      | none => simp [found] at from_stored
      | some window =>
        rw [found, Option.getD_some] at from_stored
        exact stored window found t from_stored
    intro t member
    split at member
    · rcases List.mem_append.mp member with old | new
      · exact kept t old
      · rw [List.mem_singleton.mp new]
        exact at_now
    · exact kept t member

/- A key without use for a whole window is as good as a new one. -/
theorem lapsed_as_missing (missing : MissingAt policy.algorithm key one)
    (lapsed : StoredFrom policy.algorithm key (fun t => t ≤ now - policy.windowMs) other) :
    (one.consume key policy.toRateLimitPolicy now).2 =
        (other.consume key policy.toRateLimitPolicy now).2 ∧
      SameAt policy.algorithm key (one.consume key policy.toRateLimitPolicy now).1
        (other.consume key policy.toRateLimitPolicy now).1 := by
  cases chosen : policy.algorithm with
  | tokenBucket =>
    rw [chosen] at missing lapsed
    have missing' : one.tokenBucket.get key = none := missing
    have fresh : bucketFor one.tokenBucket key policy.toRateLimitPolicy now =
        fullBucket policy.toRateLimitPolicy now := by
      unfold bucketFor
      rw [missing']
    have as_full : (bucketFor other.tokenBucket key policy.toRateLimitPolicy now).limit =
          policy.limit ∧
        (bucketFor other.tokenBucket key policy.toRateLimitPolicy now).windowMs =
          policy.windowMs ∧
        refilledTokens (bucketFor other.tokenBucket key policy.toRateLimitPolicy now)
          policy.toRateLimitPolicy now =
          refilledTokens (fullBucket policy.toRateLimitPolicy now) policy.toRateLimitPolicy
            now := by
      unfold bucketFor
      split
      · rename_i bucket found
        split
        · exact ⟨rfl, rfl, rfl⟩
        · rename_i same
          push Not at same
          obtain ⟨solvent, idle⟩ := lapsed bucket found
          refine ⟨same.1, same.2, ?_⟩
          have rate := rate_pos policy
          have window := rate_fills_window policy
          have idle_time : policy.windowMs ≤ max 0 (now - bucket.lastRefill) :=
            le_max_of_le_right (by linarith)
          have refill := mul_le_mul_of_nonneg_left idle_time rate.le
          unfold refilledTokens
          rw [min_eq_left (by linarith)]
          simp [fullBucket]
      · exact ⟨rfl, rfl, rfl⟩
    simp only [Limiters.consume, chosen, SameAt, TokenBucketRateLimiter.consume,
      InsertionMap.get_set_self, fresh, as_full.1, as_full.2.1, as_full.2.2]
    simp [fullBucket]
  | slidingWindow =>
    rw [chosen] at missing lapsed
    have missing' : one.slidingWindow.get key = none := missing
    have none_recent : recent one.slidingWindow key policy.toRateLimitPolicy now = [] := by
      unfold recent stateFor
      rw [missing']
      rfl
    have none_recent' : recent other.slidingWindow key policy.toRateLimitPolicy now = [] := by
      rw [recent_eq_filter, List.filter_eq_nil_iff]
      intro t member
      unfold storedTimestamps at member
      cases found : other.slidingWindow.get key with
      | none => simp [found] at member
      | some window =>
        rw [found, Option.map_some, Option.getD_some] at member
        have idle := lapsed window found t member
        simpa using idle
    simp only [Limiters.consume, chosen, SameAt, SlidingWindowRateLimiter.consume,
      InsertionMap.get_set_self, none_recent, none_recent', and_self]

theorem MissingAt.same (missing : MissingAt algorithm key one)
    (same : SameAt algorithm key other one) : MissingAt algorithm key other := by
  cases algorithm <;> exact Eq.trans same missing

theorem missing_after_prune (missing : MissingAt algorithm key one) (olderThan : Rat) :
    MissingAt algorithm key (one.prune olderThan) := by
  cases algorithm with
  | tokenBucket =>
    have missing' : one.tokenBucket.get key = none := missing
    simp [MissingAt, Limiters.prune, TokenBucketRateLimiter.prune, InsertionMap.get_keep, missing']
  | slidingWindow =>
    have missing' : one.slidingWindow.get key = none := missing
    simp [MissingAt, Limiters.prune, SlidingWindowRateLimiter.prune, InsertionMap.get_keep,
      missing']

variable (algorithm key one) in
/- A prune leaves an entry as it is or deletes it. -/
theorem prune_at (olderThan : Rat) : SameAt algorithm key (one.prune olderThan) one ∨
    MissingAt algorithm key (one.prune olderThan) := by
  cases algorithm with
  | tokenBucket =>
    simp only [SameAt, MissingAt, Limiters.prune, TokenBucketRateLimiter.prune,
      InsertionMap.get_keep]
    cases one.tokenBucket.get key with
    | none => exact Or.inl rfl
    | some bucket => by_cases old : bucket.lastRefill < olderThan <;> simp [Option.filter, old]
  | slidingWindow =>
    simp only [SameAt, MissingAt, Limiters.prune, SlidingWindowRateLimiter.prune,
      InsertionMap.get_keep]
    cases one.slidingWindow.get key with
    | none => exact Or.inl rfl
    | some window => by_cases old : window.lastSeen < olderThan <;> simp [Option.filter, old]

/-- When a key was last used, as far as its entry tells. -/
def lastUse (algorithm : RateLimitAlgorithm) (key : String) (limiters : Limiters) : Option Rat :=
  match algorithm with
  | .tokenBucket => (limiters.tokenBucket.get key).map TokenBucketState.lastRefill
  | .slidingWindow => (limiters.slidingWindow.get key).map SlidingWindowState.lastSeen

theorem MissingAt.lastUse (missing : MissingAt algorithm key one) :
    lastUse algorithm key one = none := by
  cases algorithm <;> exact Option.map_eq_none_iff.mpr missing

theorem SameAt.lastUse (same : SameAt algorithm key one other) :
    lastUse algorithm key one = lastUse algorithm key other := by
  cases algorithm <;> exact congrArg (Option.map _) same

theorem lastUse_consume : lastUse policy.algorithm key
    (one.consume key policy.toRateLimitPolicy now).1 = some now := by
  cases chosen : policy.algorithm with
  | tokenBucket =>
    simp [lastUse, Limiters.consume, chosen, TokenBucketRateLimiter.consume]
  | slidingWindow =>
    simp [lastUse, Limiters.consume, chosen, SlidingWindowRateLimiter.consume]

theorem lastUse_prune (olderThan : Rat) : lastUse algorithm key (one.prune olderThan) =
    (lastUse algorithm key one).filter fun last => !decide (last < olderThan) := by
  cases algorithm with
  | tokenBucket =>
    simp only [lastUse, Limiters.prune, TokenBucketRateLimiter.prune, InsertionMap.get_keep,
      Option.filter_map]
    rfl
  | slidingWindow =>
    simp only [lastUse, Limiters.prune, SlidingWindowRateLimiter.prune, InsertionMap.get_keep,
      Option.filter_map]
    rfl

end Keys
end Limiters

namespace RateLimitService
open Limiters

def isCheck : RateLimitCall → Bool
  | .check _ _ _ _ => true
  | .cleanup _ => false

def decisionOf : RateLimitCall × RateLimitAnswer → Option (RateLimitCall × RateLimitDecision)
  | (call, .decided _ decision) => some (call, decision)
  | (_, .cleaned) => none

def decisions (past : List (RateLimitCall × RateLimitAnswer)) :
    List (RateLimitCall × RateLimitDecision) := past.filterMap decisionOf

section Uses
variable (conversions : Conversions) (config : RateLimitConfiguration)

/-- The same checks without the cleanups get the same decisions. -/
def CleanupInvisible
    (permit : Machine.Permit RateLimitService RateLimitCall RateLimitAnswer) : Prop :=
  ∀ past service, (machine conversions config).Run permit past service →
    ∃ past' service', (machine conversions config).Run Machine.anything past' service' ∧
      past'.map Prod.fst = (past.map Prod.fst).filter isCheck ∧ decisions past' = decisions past

/-- Instants at which a key of an algorithm was charged. -/
def ChargedAt (algorithm : RateLimitAlgorithm) (key : String)
    (past : List (RateLimitCall × RateLimitAnswer)) (t : Rat) : Prop :=
  ∃ e ∈ past, e.1.now = t ∧ ∃ limit ∈ limitsOf conversions config e.1,
    limit.policy.algorithm = algorithm ∧ limiterKey limit = key

/-- The last use of the key of a policy lies at least its window back. -/
def Lapsed (limit : ApplicableLimit) (now : Rat)
    (past : List (RateLimitCall × RateLimitAnswer)) : Prop :=
  ∀ e ∈ past, ∀ used ∈ limitsOf conversions config e.1,
    used.policy.algorithm = limit.policy.algorithm → limiterKey used = limiterKey limit →
    e.1.now ≤ now - limit.policy.windowMs

/-- A policy without an entry has not been used within its window. -/
def FindsOwnWindow : Machine.Permit RateLimitService RateLimitCall RateLimitAnswer :=
  fun past service call => ∀ limit ∈ limitsOf conversions config call,
    MissingAt limit.policy.algorithm (limiterKey limit) service.limiters →
    Lapsed conversions config limit call.now past

instance (limit : ApplicableLimit) (now : Rat) (past : List (RateLimitCall × RateLimitAnswer)) :
    Decidable (Lapsed conversions config limit now past) := by
  unfold Lapsed
  infer_instance

instance (past : List (RateLimitCall × RateLimitAnswer)) (service : RateLimitService)
    (call : RateLimitCall) : Decidable (FindsOwnWindow conversions config past service call) := by
  unfold FindsOwnWindow
  infer_instance

/-- The service that is cleaned next to one that is not: an entry is the same, or deleted;
    and what is stored was charged at its instants. -/
structure CleanedBehind (past : List (RateLimitCall × RateLimitAnswer))
    (cleaned kept : RateLimitService) : Prop where
  same_or_missing : ∀ algorithm key, SameAt algorithm key cleaned.limiters kept.limiters ∨
    MissingAt algorithm key cleaned.limiters
  charged : ∀ algorithm key,
    StoredFrom algorithm key (ChargedAt conversions config algorithm key past) kept.limiters

end Uses

section Steps
variable {conversions : Conversions} {config : RateLimitConfiguration}
  {cleaned kept : RateLimitService} {past : List (RateLimitCall × RateLimitAnswer)}
  {request : RateLimitRequest} {override : Option RateLimitOverride} {skip : Bool} {now : Rat}

theorem ChargedAt.earlier {algorithm : RateLimitAlgorithm} {key : String} {t : Rat}
    (charged : ChargedAt conversions config algorithm key past t)
    (e : RateLimitCall × RateLimitAnswer) :
    ChargedAt conversions config algorithm key (e :: past) t := by
  obtain ⟨old, member, use⟩ := charged
  exact ⟨old, List.mem_cons_of_mem _ member, use⟩

/- What a policy does next is the same with the entry and without it. -/
theorem CleanedBehind.consume (behind : CleanedBehind conversions config past cleaned kept)
    {limit : ApplicableLimit} (lapsed : MissingAt limit.policy.algorithm (limiterKey limit)
      cleaned.limiters → Lapsed conversions config limit now past) :
    verdict cleaned.limiters limit now = verdict kept.limiters limit now ∧
      SameAt limit.policy.algorithm (limiterKey limit) (chargedFor cleaned.limiters limit now)
        (chargedFor kept.limiters limit now) := by
  rcases behind.same_or_missing limit.policy.algorithm (limiterKey limit) with same | missing
  · exact same.consume now
  · refine lapsed_as_missing missing ((behind.charged _ _).mono ?_)
    rintro t ⟨e, member, rfl, used, in_limits, algorithm, key⟩
    exact lapsed missing e member used in_limits algorithm key

theorem CleanedBehind.check_same (behind : CleanedBehind conversions config past cleaned kept)
    (own : FindsOwnWindow conversions config past cleaned (.check request override skip now)) :
    (cleaned.check conversions config request override skip now).2 =
      (kept.check conversions config request override skip now).2 := by
  refine RateLimitService.check_same fun limited limit member => ?_
  have limits : limitsOf conversions config (.check request override skip now) =
      applicableLimits conversions config request override := limitsOf_limited limited
  rw [← limits] at member
  exact (behind.consume (own limit member)).1

theorem CleanedBehind.check (behind : CleanedBehind conversions config past cleaned kept)
    (own : FindsOwnWindow conversions config past cleaned (.check request override skip now))
    (answer : RateLimitAnswer) :
    CleanedBehind conversions config ((.check request override skip now, answer) :: past)
      (cleaned.check conversions config request override skip now).1
      (kept.check conversions config request override skip now).1 := by
  have each : ∀ algorithm key,
      (SameAt algorithm key (cleaned.check conversions config request override skip now).1.limiters
          (kept.check conversions config request override skip now).1.limiters ∨
        MissingAt algorithm key
          (cleaned.check conversions config request override skip now).1.limiters) ∧
      StoredFrom algorithm key (ChargedAt conversions config algorithm key
        ((.check request override skip now, answer) :: past))
        (kept.check conversions config request override skip now).1.limiters := by
    intro algorithm key
    have charged := (behind.charged algorithm key).mono fun _ charged =>
      charged.earlier (.check request override skip now, answer)
    by_cases use : ∃ limit ∈ limitsOf conversions config (.check request override skip now),
        limit.policy.algorithm = algorithm ∧ limiterKey limit = key
    · obtain ⟨limit, used, rfl, rfl⟩ := use
      have at_now : ChargedAt conversions config limit.policy.algorithm (limiterKey limit)
          ((.check request override skip now, answer) :: past) now :=
        ⟨_, List.mem_cons_self, rfl, limit, used, rfl, rfl⟩
      exact ⟨Or.inl (((check_uses used).trans (behind.consume (own limit used)).2).trans
        (check_uses used).symm), (charged.consume at_now).same (check_uses used)⟩
    · have unused : ∀ limit ∈ limitsOf conversions config (.check request override skip now),
          limiterKey limit = key → limit.policy.algorithm ≠ algorithm :=
        fun limit member same_key same => use ⟨limit, member, same, same_key⟩
      refine ⟨?_, charged.same (check_leaves unused)⟩
      rcases behind.same_or_missing algorithm key with same | missing
      · exact Or.inl (((check_leaves unused).trans same).trans (check_leaves unused).symm)
      · exact Or.inr (missing.same (check_leaves unused))
  exact ⟨fun algorithm key => (each algorithm key).1, fun algorithm key => (each algorithm key).2⟩

theorem CleanedBehind.cleanup (behind : CleanedBehind conversions config past cleaned kept)
    (e : RateLimitCall × RateLimitAnswer) :
    CleanedBehind conversions config (e :: past) (cleaned.cleanup now) kept where
  same_or_missing algorithm key := by
    rcases behind.same_or_missing algorithm key with same | missing
    · rcases prune_at algorithm key cleaned.limiters (now - maxIdleMs) with unpruned | pruned
      · exact Or.inl (SameAt.trans unpruned same)
      · exact Or.inr pruned
    · exact Or.inr (missing_after_prune missing _)
  charged algorithm key := (behind.charged algorithm key).mono fun _ charged => charged.earlier e

/- The run of the checks alone, next to the run with cleanups. -/
theorem checks_follow {service : RateLimitService}
    (run : (machine conversions config).Run (FindsOwnWindow conversions config) past service) :
    ∃ past' service', (machine conversions config).Run Machine.anything past' service' ∧
      past'.map Prod.fst = (past.map Prod.fst).filter isCheck ∧ decisions past' = decisions past ∧
      CleanedBehind conversions config past service service' := by
  refine run.invariant (fun past service => ∃ past' service',
    (machine conversions config).Run Machine.anything past' service' ∧
      past'.map Prod.fst = (past.map Prod.fst).filter isCheck ∧ decisions past' = decisions past ∧
      CleanedBehind conversions config past service service')
    ⟨[], _, Machine.Run.start, rfl, rfl, fun _ _ => Or.inl (SameAt.refl _), ?_⟩ ?_
  · intro algorithm key
    cases algorithm <;> simp [StoredFrom, machine, RateLimitService.initial, Limiters.empty]
  · intro past cleaned call cleaned' answer _ known own moved
    obtain ⟨past', kept, run', inputs, same, behind⟩ := known
    cases call with
    | cleanup now =>
      obtain ⟨rfl, rfl⟩ := Prod.mk.inj (Option.some.inj moved)
      exact ⟨past', kept, run', inputs, same, behind.cleanup _⟩
    | check request override skip now =>
      obtain ⟨rfl, rfl⟩ := Prod.mk.inj (Option.some.inj moved)
      have answered : (machine conversions config).step kept (.check request override skip now) =
          some ((kept.check conversions config request override skip now).1,
            .decided (cleaned.check conversions config request override skip now).2.1
              (cleaned.check conversions config request override skip now).2.2) := by
        rw [behind.check_same own]
        rfl
      refine ⟨_, _, run'.next trivial answered, ?_, ?_, behind.check own _⟩
      · rw [List.map_cons, List.map_cons, List.filter_cons_of_pos rfl, inputs]
      · simp only [decisions, List.filterMap_cons, decisionOf] at same ⊢
        rw [same]

end Steps

section ShortWindows
variable (conversions : Conversions) (config : RateLimitConfiguration)

/-- A millisecond clock that does not run back, and windows that are over when an idle entry
    is deleted. -/
def ShortWindows : Machine.Permit RateLimitService RateLimitCall RateLimitAnswer :=
  fun past service call => Machine.ClockAdvances RateLimitCall.now past service call ∧
    (∃ n : Int, call.now = n) ∧
    ∀ limit ∈ limitsOf conversions config call, limit.policy.windowMs ≤ maxIdleMs + 1

/-- Entries know the last use of their key; a key without one was last used long ago. -/
structure Remembers (past : List (RateLimitCall × RateLimitAnswer)) (service : RateLimitService) :
    Prop where
  whole : ∀ algorithm key, ∀ last ∈ lastUse algorithm key service.limiters, ∃ n : Int, last = n
  used : ∀ algorithm key, ∀ last ∈ lastUse algorithm key service.limiters, ∀ t,
    ChargedAt conversions config algorithm key past t → t ≤ last
  deleted : ∀ algorithm key, lastUse algorithm key service.limiters = none → ∀ t,
    ChargedAt conversions config algorithm key past t → ∃ e ∈ past, t + (maxIdleMs + 1) ≤ e.1.now

variable {conversions config} {past : List (RateLimitCall × RateLimitAnswer)}
  {service : RateLimitService} {call : RateLimitCall} {answer : RateLimitAnswer}
  {algorithm : RateLimitAlgorithm} {key : String} {t now : Rat}

theorem ChargedAt.not_later
    (charged : ChargedAt conversions config algorithm key ((call, answer) :: past) t)
    (clock : ∀ e ∈ past, e.1.now ≤ call.now) : t ≤ call.now := by
  obtain ⟨e, member, rfl, _⟩ := charged
  rcases List.mem_cons.mp member with rfl | before
  · exact le_refl _
  · exact clock e before

theorem ChargedAt.before
    (charged : ChargedAt conversions config algorithm key ((call, answer) :: past) t)
    (unused : ¬ ∃ limit ∈ limitsOf conversions config call,
      limit.policy.algorithm = algorithm ∧ limiterKey limit = key) :
    ChargedAt conversions config algorithm key past t := by
  obtain ⟨e, member, at_t, use⟩ := charged
  rcases List.mem_cons.mp member with rfl | before
  · exact absurd use unused
  · exact ⟨e, before, at_t, use⟩

theorem Remembers.check {request : RateLimitRequest} {override : Option RateLimitOverride}
    {skip : Bool} (remembers : Remembers conversions config past service)
    (clock : ∀ e ∈ past, e.1.now ≤ now) (whole : ∃ n : Int, now = n) :
    Remembers conversions config ((.check request override skip now, answer) :: past)
      (service.check conversions config request override skip now).1 := by
  -- a key the check uses was last used now; for the others nothing changes
  have after : ∀ algorithm key,
      lastUse algorithm key
          (service.check conversions config request override skip now).1.limiters = some now ∨
      lastUse algorithm key
          (service.check conversions config request override skip now).1.limiters =
        lastUse algorithm key service.limiters ∧
      ∀ t, ChargedAt conversions config algorithm key
        ((.check request override skip now, answer) :: past) t →
        ChargedAt conversions config algorithm key past t := by
    intro algorithm key
    by_cases use : ∃ limit ∈ limitsOf conversions config (.check request override skip now),
        limit.policy.algorithm = algorithm ∧ limiterKey limit = key
    · obtain ⟨limit, used, rfl, rfl⟩ := use
      exact Or.inl ((check_uses used).lastUse.trans lastUse_consume)
    · have unused : ∀ limit ∈ limitsOf conversions config (.check request override skip now),
          limiterKey limit = key → limit.policy.algorithm ≠ algorithm :=
        fun limit member same_key same => use ⟨limit, member, same, same_key⟩
      exact Or.inr ⟨(check_leaves unused).lastUse, fun t charged => charged.before use⟩
  refine ⟨fun algorithm key last found => ?_, fun algorithm key last found t charged => ?_,
    fun algorithm key absent t charged => ?_⟩
  · rcases after algorithm key with at_now | ⟨same, _⟩
    · rw [at_now] at found
      exact Option.some.inj found ▸ whole
    · exact remembers.whole algorithm key last (same ▸ found)
  · rcases after algorithm key with at_now | ⟨same, earlier⟩
    · rw [at_now] at found
      exact Option.some.inj found ▸ charged.not_later clock
    · exact remembers.used algorithm key last (same ▸ found) t (earlier t charged)
  · rcases after algorithm key with at_now | ⟨same, earlier⟩
    · rw [at_now] at absent
      cases absent
    · obtain ⟨e, member, long_ago⟩ :=
        remembers.deleted algorithm key (same ▸ absent) t (earlier t charged)
      exact ⟨e, List.mem_cons_of_mem _ member, long_ago⟩

theorem Remembers.cleanup (remembers : Remembers conversions config past service)
    (whole : ∃ n : Int, now = n) :
    Remembers conversions config ((.cleanup now, answer) :: past) (service.cleanup now) := by
  have earlier : ∀ {algorithm key t},
      ChargedAt conversions config algorithm key ((.cleanup now, answer) :: past) t →
      ChargedAt conversions config algorithm key past t := fun charged =>
    charged.before (by simp [limitsOf])
  have after : ∀ algorithm key, lastUse algorithm key (service.cleanup now).limiters =
      (lastUse algorithm key service.limiters).filter fun last =>
        !decide (last < now - maxIdleMs) := fun algorithm key => lastUse_prune _
  refine ⟨fun algorithm key last found => ?_, fun algorithm key last found t charged => ?_,
    fun algorithm key absent t charged => ?_⟩
  · rw [after] at found
    exact remembers.whole algorithm key last (Option.filter_eq_some_iff.mp found).1
  · rw [after] at found
    exact remembers.used algorithm key last (Option.filter_eq_some_iff.mp found).1 t
      (earlier charged)
  · cases found : lastUse algorithm key service.limiters with
    | none =>
      obtain ⟨e, member, long_ago⟩ := remembers.deleted algorithm key found t (earlier charged)
      exact ⟨e, List.mem_cons_of_mem _ member, long_ago⟩
    | some last =>
      refine ⟨_, List.mem_cons_self, ?_⟩
      have idle : last < now - maxIdleMs := by
        rw [after, found] at absent
        simpa [Option.filter, lt_sub_iff_add_lt] using absent
      obtain ⟨n, rfl⟩ := whole
      obtain ⟨m, rfl⟩ := remembers.whole algorithm key _ found
      have last_use := remembers.used algorithm key _ found t (earlier charged)
      have a_millisecond : m + 1 ≤ n - 3600000 := by
        have idle' : (m : Rat) < ((n - 3600000 : Int) : Rat) := by
          simp only [maxIdleMs] at idle
          push_cast
          linarith
        exact_mod_cast idle'
      have cast : ((m + 1 : Int) : Rat) ≤ ((n - 3600000 : Int) : Rat) := by
        exact_mod_cast a_millisecond
      simp only [maxIdleMs, RateLimitCall.now]
      push_cast at cast
      linarith

theorem remembers_always (run : (machine conversions config).Run (ShortWindows conversions config)
    past service) : Remembers conversions config past service := by
  refine run.invariant (Remembers conversions config) ⟨?_, ?_, ?_⟩ ?_
  · intro algorithm key
    cases algorithm <;> simp [lastUse, machine, RateLimitService.initial, Limiters.empty]
  · intro algorithm key
    cases algorithm <;> simp [lastUse, machine, RateLimitService.initial, Limiters.empty]
  · rintro algorithm key _ t ⟨e, member, _⟩
    cases member
  · intro past service call service' answer _ remembers permitted moved
    obtain ⟨clock, whole, _⟩ := permitted
    cases call with
    | cleanup now =>
      obtain ⟨rfl, rfl⟩ := Prod.mk.inj (Option.some.inj moved)
      exact remembers.cleanup whole
    | check request override skip now =>
      obtain ⟨rfl, rfl⟩ := Prod.mk.inj (Option.some.inj moved)
      exact remembers.check clock whole

variable (conversions config) in
/- Millisecond clocks and windows of up to an hour keep clear of the cleanup. -/
theorem cleanup_invisible_in_short_windows :
    CleanupInvisible conversions config (ShortWindows conversions config) := by
  intro past service run
  have own_windows : (machine conversions config).Run (FindsOwnWindow conversions config) past
      service := by
    apply run.weaken
    intro past service call before permitted limit applies missing e member used used_member
      same_algorithm same_key
    obtain ⟨clock, _, short⟩ := permitted
    obtain ⟨later, in_past, long_ago⟩ := (remembers_always before).deleted _ _ missing.lastUse
      e.1.now ⟨e, member, rfl, used, used_member, same_algorithm, same_key⟩
    have not_later : later.1.now ≤ call.now := clock later in_past
    have window := short limit applies
    linarith
  obtain ⟨past', service', run', inputs, same, _⟩ := checks_follow own_windows
  exact ⟨past', service', run', inputs, same⟩

end ShortWindows

def portfolioAt (now : Rat) : RateLimitCall :=
  .check (requestOf "GET" "/portfolio" "alice") none false now

/-- One request in two hours for each address. -/
def longAddressWindow : Environment := fun name =>
  [("RATE_LIMIT_IP_LIMIT", "1"), ("RATE_LIMIT_IP_WINDOW_MS", "7200000")].lookup name

end RateLimitService
end AstraPort.RateLimit
