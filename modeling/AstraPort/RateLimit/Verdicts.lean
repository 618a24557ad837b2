import AstraPort.RateLimit.Service

/- The verdict of a policy depends on what its limiter holds under its own key alone, and
   the policies of one request never share a key. -/
namespace AstraPort.RateLimit
namespace Limiters

/-- Two pairs of limiters hold the same under a key of an algorithm. -/
def SameAt (algorithm : RateLimitAlgorithm) (key : String) (one other : Limiters) : Prop :=
  match algorithm with
  | .tokenBucket => one.tokenBucket.get key = other.tokenBucket.get key
  | .slidingWindow => one.slidingWindow.get key = other.slidingWindow.get key

section Keys
variable {algorithm : RateLimitAlgorithm} {key : String} {one other third : Limiters}

theorem SameAt.refl (limiters : Limiters) : SameAt algorithm key limiters limiters := by
  cases algorithm <;> rfl

theorem SameAt.symm (same : SameAt algorithm key one other) : SameAt algorithm key other one := by
  cases algorithm <;> exact Eq.symm same

theorem SameAt.trans (first : SameAt algorithm key one other)
    (second : SameAt algorithm key other third) : SameAt algorithm key one third := by
  cases algorithm <;> exact Eq.trans first second

theorem SameAt.consume {policy : RateLimitPolicy} (same : SameAt policy.algorithm key one other)
    (now : Rat) : (one.consume key policy now).2 = (other.consume key policy now).2 ∧
      SameAt policy.algorithm key (one.consume key policy now).1 (other.consume key policy now).1 := by
  cases chosen : policy.algorithm with
  | tokenBucket =>
    rw [chosen] at same
    have bucket : TokenBucketRateLimiter.bucketFor one.tokenBucket key policy now =
        TokenBucketRateLimiter.bucketFor other.tokenBucket key policy now := by
      unfold TokenBucketRateLimiter.bucketFor
      rw [show one.tokenBucket.get key = other.tokenBucket.get key from same]
    simp only [Limiters.consume, chosen, SameAt, TokenBucketRateLimiter.consume, bucket,
      InsertionMap.get_set_self, and_self]
  | slidingWindow =>
    rw [chosen] at same
    have recent : SlidingWindowRateLimiter.recent one.slidingWindow key policy now =
        SlidingWindowRateLimiter.recent other.slidingWindow key policy now := by
      unfold SlidingWindowRateLimiter.recent SlidingWindowRateLimiter.stateFor
      rw [show one.slidingWindow.get key = other.slidingWindow.get key from same]
    simp only [Limiters.consume, chosen, SameAt, SlidingWindowRateLimiter.consume, recent,
      InsertionMap.get_set_self, and_self]

/- A consume leaves everything under other keys and in the other limiter. -/
theorem consume_apart (limiters : Limiters) {consumed : String} {policy : RateLimitPolicy}
    (apart : key ≠ consumed ∨ algorithm ≠ policy.algorithm) (now : Rat) :
    SameAt algorithm key (limiters.consume consumed policy now).1 limiters := by
  cases chosen : policy.algorithm <;> cases algorithm
  all_goals simp only [Limiters.consume, chosen, SameAt]
  · have ne : key ≠ consumed := apart.resolve_right (by simp [chosen])
    exact InsertionMap.get_set_ne _ _ ne
  · have ne : key ≠ consumed := apart.resolve_right (by simp [chosen])
    exact InsertionMap.get_set_ne _ _ ne

theorem SameAt.prune (same : SameAt algorithm key one other) (olderThan : Rat) :
    SameAt algorithm key (one.prune olderThan) (other.prune olderThan) := by
  cases algorithm with
  | tokenBucket =>
    simp only [SameAt, Limiters.prune, TokenBucketRateLimiter.prune,
      InsertionMap.get_keep] at same ⊢
    rw [same]
  | slidingWindow =>
    simp only [SameAt, Limiters.prune, SlidingWindowRateLimiter.prune,
      InsertionMap.get_keep] at same ⊢
    rw [same]

end Keys
end Limiters

namespace RateLimitService
open Limiters

def chargedFor (limiters : Limiters) (limit : ApplicableLimit) (now : Rat) : Limiters :=
  (limiters.consume (limiterKey limit) limit.policy.toRateLimitPolicy now).1

def verdict (limiters : Limiters) (limit : ApplicableLimit) (now : Rat) : RateLimitResult :=
  (limiters.consume (limiterKey limit) limit.policy.toRateLimitPolicy now).2

def appliedAs (limiters : Limiters) (now : Rat) (limit : ApplicableLimit) : AppliedLimit :=
  ⟨limit.scope, limit.policy.algorithm, verdict limiters limit now⟩

/-- The policies that a call is charged to. -/
def limitsOf (conversions : Conversions) (config : RateLimitConfiguration) :
    RateLimitCall → List ApplicableLimit
  | .check request override skip _ =>
    if bypassReason config request skip = none then
      applicableLimits conversions config request override
    else []
  | .cleanup _ => []

theorem scope_of_key {one other : ApplicableLimit} (same : limiterKey one = limiterKey other) :
    one.scope = other.scope := by
  have heads : (limiterKey one).toList.head? = (limiterKey other).toList.head? := by rw [same]
  unfold limiterKey at heads
  cases first : one.scope <;> cases second : other.scope <;>
    simp_all [RateLimitScope.text, String.toList_append]

theorem keys_apart (conversions : Conversions) (config : RateLimitConfiguration)
    (request : RateLimitRequest) (override : Option RateLimitOverride) :
    ((applicableLimits conversions config request override).map limiterKey).Nodup := by
  have scopes : ((applicableLimits conversions config request override).map
      ApplicableLimit.scope).Nodup := by
    unfold applicableLimits otherLimits userLimit endpointLimit ipLimit
    cases nonempty request.userId <;> cases override <;>
      cases endpointPolicy conversions config request <;> simp
  have through_scope : (applicableLimits conversions config request override).Pairwise
      fun one other => one.scope ≠ other.scope := List.pairwise_map.mp scopes
  exact List.pairwise_map.mpr (through_scope.imp fun ne same => ne (scope_of_key same))

section Applying
variable {service : RateLimitService} {now : Rat}

theorem applyAll_apart {algorithm : RateLimitAlgorithm} {key : String}
    (limits : List ApplicableLimit) (apart : ∀ limit ∈ limits,
      key ≠ limiterKey limit ∨ algorithm ≠ limit.policy.algorithm) :
    SameAt algorithm key (service.applyAll now limits).1.limiters service.limiters := by
  induction limits generalizing service with
  | nil => exact SameAt.refl _
  | cons limit rest ih =>
    have first : SameAt algorithm key (service.apply limit now).1.limiters service.limiters :=
      consume_apart service.limiters (apart limit List.mem_cons_self) now
    exact (ih fun limit member => apart limit (List.mem_cons_of_mem _ member)).trans first

/- With keys apart every policy is judged on the limiters as the check found them. -/
theorem applyAll_spec {limits : List ApplicableLimit} (apart : (limits.map limiterKey).Nodup) :
    (service.applyAll now limits).2 = limits.map (appliedAs service.limiters now) ∧
      ∀ limit ∈ limits, SameAt limit.policy.algorithm (limiterKey limit)
        (service.applyAll now limits).1.limiters (chargedFor service.limiters limit now) := by
  induction limits generalizing service with
  | nil => exact ⟨rfl, by simp⟩
  | cons limit rest ih =>
    obtain ⟨untouched, rest_apart⟩ := List.nodup_cons.mp apart
    have key_ne : ∀ other ∈ rest, limiterKey other ≠ limiterKey limit := by
      intro other member same
      exact untouched (same ▸ List.mem_map_of_mem member)
    obtain ⟨results, charges⟩ := @ih (service.apply limit now).1 rest_apart
    have unchanged : ∀ other ∈ rest, SameAt other.policy.algorithm (limiterKey other)
        (service.apply limit now).1.limiters service.limiters := fun other member =>
      consume_apart service.limiters (Or.inl (key_ne other member)) now
    constructor
    · have rest_same : rest.map (appliedAs (service.apply limit now).1.limiters now) =
          rest.map (appliedAs service.limiters now) := by
        apply List.map_congr_left
        intro other member
        have same := ((unchanged other member).consume now).1
        simp only [appliedAs, verdict, same]
      rw [List.map_cons, ← rest_same, ← results]
      rfl
    · intro other member
      rcases List.mem_cons.mp member with rfl | later
      · exact applyAll_apart rest fun limit in_rest => Or.inl (key_ne limit in_rest).symm
      · exact (charges other later).trans ((unchanged other later).consume now).2

end Applying

section Checks
variable {conversions : Conversions} {config : RateLimitConfiguration} {service : RateLimitService}
  {request : RateLimitRequest} {override : Option RateLimitOverride} {skip : Bool} {now : Rat}

theorem check_bypassed {reason : String}
    (bypassed : bypassReason config request skip = some reason) :
    (service.check conversions config request override skip now).1.limiters = service.limiters ∧
      (service.check conversions config request override skip now).2.1 = [] ∧
      (service.check conversions config request override skip now).2.2.allowed = true := by
  simp only [check, bypassed]
  exact ⟨rfl, trivial, rfl⟩

theorem limitsOf_limited (limited : bypassReason config request skip = none) :
    limitsOf conversions config (.check request override skip now) =
      applicableLimits conversions config request override := if_pos limited

theorem check_limits (limited : bypassReason config request skip = none) :
    (service.check conversions config request override skip now).2.1 =
      (applicableLimits conversions config request override).map
        (appliedAs service.limiters now) ∧
      (service.check conversions config request override skip now).1.limiters =
        (service.countTotal.applyAll now
          (applicableLimits conversions config request override)).1.limiters := by
  simp only [check, limited]
  constructor
  · exact (applyAll_spec (keys_apart conversions config request override)).1
  · simp only [countOutcome]
    rfl

variable (service now) in
theorem check_charges (limited : bypassReason config request skip = none) {limit : ApplicableLimit}
    (member : limit ∈ applicableLimits conversions config request override) :
    SameAt limit.policy.algorithm (limiterKey limit)
      (service.check conversions config request override skip now).1.limiters
      (chargedFor service.limiters limit now) := by
  rw [(check_limits limited).2]
  exact (applyAll_spec (keys_apart conversions config request override)).2 limit member

theorem check_uses {limit : ApplicableLimit}
    (used : limit ∈ limitsOf conversions config (.check request override skip now)) :
    SameAt limit.policy.algorithm (limiterKey limit)
      (service.check conversions config request override skip now).1.limiters
      (chargedFor service.limiters limit now) := by
  cases limited : bypassReason config request skip with
  | some reason => simp [limitsOf, limited] at used
  | none =>
    rw [limitsOf_limited limited] at used
    exact check_charges service now limited used

theorem check_leaves {algorithm : RateLimitAlgorithm} {key : String}
    (unused : ∀ limit ∈ limitsOf conversions config (.check request override skip now),
      limiterKey limit = key → limit.policy.algorithm ≠ algorithm) :
    SameAt algorithm key (service.check conversions config request override skip now).1.limiters
      service.limiters := by
  cases limited : bypassReason config request skip with
  | some reason =>
    rw [(check_bypassed limited).1]
    exact SameAt.refl _
  | none =>
    rw [limitsOf_limited limited] at unused
    rw [(check_limits limited).2]
    refine applyAll_apart _ fun limit member => ?_
    by_cases same_key : limiterKey limit = key
    · exact Or.inr (unused limit member same_key).symm
    · exact Or.inl (Ne.symm same_key)

theorem mostRestrictive_mem (first : AppliedLimit) (rest : List AppliedLimit) :
    mostRestrictive first rest ∈ first :: rest := by
  unfold mostRestrictive
  induction rest generalizing first with
  | nil => exact List.mem_singleton.mpr rfl
  | cons candidate rest ih =>
    rw [List.foldl_cons]
    rcases List.mem_cons.mp (ih (if candidate.result.remaining / candidate.result.limit <
      first.result.remaining / first.result.limit then candidate else first)) with same | later
    · rw [same]
      split <;> simp
    · exact List.mem_cons_of_mem _ (List.mem_cons_of_mem _ later)

variable (conversions service override now) in
/- A request that is not bypassed gets the verdict of the first policy that refuses it, and
   is allowed when none does. -/
theorem check_decision (limited : bypassReason config request skip = none) :
    (∃ refused ∈ applicableLimits conversions config request override,
      ((applicableLimits conversions config request override).find? fun limit =>
        !(verdict service.limiters limit now).allowed) = some refused ∧
      (service.check conversions config request override skip now).2.2.toRateLimitResult =
        verdict service.limiters refused now) ∨
    ((∀ limit ∈ applicableLimits conversions config request override,
      (verdict service.limiters limit now).allowed = true) ∧
      (service.check conversions config request override skip now).2.2.allowed = true) := by
  have limits : (service.check conversions config request override skip now).2.1 =
      (applicableLimits conversions config request override).map
        (appliedAs service.limiters now) := (check_limits limited).1
  have first : firstDenied (service.check conversions config request override skip now).2.1 =
      ((applicableLimits conversions config request override).find? fun limit =>
        !(verdict service.limiters limit now).allowed).map (appliedAs service.limiters now) := by
    rw [limits, firstDenied, List.find?_map]
    rfl
  simp only [check, limited] at limits first ⊢
  cases found : (applicableLimits conversions config request override).find? fun limit =>
      !(verdict service.limiters limit now).allowed with
  | some refused =>
    rw [found] at first
    refine Or.inl ⟨refused, List.mem_of_find?_eq_some found, rfl, ?_⟩
    rw [first]
    rfl
  | none =>
    rw [found] at first
    have all_allowed : ∀ limit ∈ applicableLimits conversions config request override,
        (verdict service.limiters limit now).allowed = true := by
      intro limit member
      simpa using List.find?_eq_none.mp found limit member
    refine Or.inr ⟨all_allowed, ?_⟩
    rw [first]
    have chosen := mostRestrictive_mem (service.countTotal.apply (ipLimit config request) now).2
      ((service.countTotal.apply (ipLimit config request) now).1.applyAll now
        (otherLimits conversions config request override)).2
    rw [limits] at chosen
    obtain ⟨limit, member, same⟩ := List.mem_map.mp chosen
    rw [Option.map_none, Option.getD_none, ← same]
    exact all_allowed limit member

/- Verdicts that agree make for the same answer. -/
theorem check_same {other : RateLimitService} (same : bypassReason config request skip = none →
      ∀ limit ∈ applicableLimits conversions config request override,
        verdict service.limiters limit now = verdict other.limiters limit now) :
    (service.check conversions config request override skip now).2 =
      (other.check conversions config request override skip now).2 := by
  cases reason : bypassReason config request skip with
  | some reason => simp only [check, reason, bypass]
  | none =>
    have limits : (service.check conversions config request override skip now).2.1 =
        (other.check conversions config request override skip now).2.1 := by
      rw [(check_limits reason).1, (check_limits reason).1]
      apply List.map_congr_left
      intro limit member
      simp only [appliedAs, same reason limit member]
    simp only [check, reason] at limits ⊢
    obtain ⟨first, rest⟩ := List.cons.inj limits
    simp only [first, rest]

end Checks
end RateLimitService
end AstraPort.RateLimit
