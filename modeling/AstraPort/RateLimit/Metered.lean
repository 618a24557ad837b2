import AstraPort.Monitoring.Metrics
import AstraPort.RateLimit.Service

/- RateLimitService together with the metrics service it counts into. The limiters are a parameter:
   the books are kept in the same way whatever they answer, and whatever an override declares. -/
namespace AstraPort.RateLimit
open Monitoring

/-- What the service uses of its limiters, and how it reads a policy. -/
structure LimiterPair (State Policy : Type) where
  empty : State
  configured : UsablePolicy → Policy
  algorithm : Policy → RateLimitAlgorithm
  consume : State → String → Policy → Rat → State × RateLimitResult
  prune : State → Rat → State
  size : State → Nat

/-- The two limiters in memory. -/
def memoryLimiters : LimiterPair Limiters RateLimitPolicy where
  empty := Limiters.empty
  configured policy := policy.toRateLimitPolicy
  algorithm policy := policy.algorithm
  consume := Limiters.consume
  prune := Limiters.prune
  size := Limiters.size

/-- An override with any numbers; its algorithm is already the one it falls back to. -/
structure DeclaredOverride (Policy : Type) where
  policy : Policy
  scope : Option IdentityScope

/-- A policy to apply, by scope and by key within the scope. -/
structure MeteredLimit (Policy : Type) where
  scope : RateLimitScope
  key : String
  policy : Policy

structure MeteredService (State : Type) where
  limiters : State
  analytics : RateLimitAnalytics
  metrics : MetricsService Rat

/-- What any code may ask of the metrics service. -/
inductive MetricsCall where
  | registerMetric (metric : Metric Rat)
  | incrementCounter (name : String) (labels : Labels) (amount : Rat)
  | setGauge (name : String) (value : Rat) (labels : Labels)
  | recordObserveHistogram (name : String) (valueInSeconds : Rat) (labels : Labels)

/-- The metrics a call may write; registering a name again writes nothing. -/
def MetricsCall.writes : MetricsCall → List String
  | .registerMetric _ => []
  | .incrementCounter name _ _ => [name]
  | .setGauge name _ _ => [name]
  | .recordObserveHistogram name _ _ => [name, name ++ "_count"]

def MetricsCall.perform (metrics : MetricsService Rat) : MetricsCall → MetricsService Rat
  | .registerMetric metric => metrics.registerMetric metric
  | .incrementCounter name labels amount => metrics.incrementCounter name labels amount
  | .setGauge name value labels => metrics.setGauge name value labels
  | .recordObserveHistogram name valueInSeconds labels =>
    metrics.recordObserveHistogram name valueInSeconds labels

inductive MeteredCall (Policy : Type) where
  | check (request : RateLimitRequest) (override : Option (DeclaredOverride Policy)) (skip : Bool)
      (now : Rat)
  | cleanup (now : Rat)
  | metrics (call : MetricsCall)

inductive MeteredAnswer where
  | answered (answer : RateLimitAnswer)
  | recorded

def checksTotal : String := "rate_limit_checks_total"

def exceededTotal : String := "rate_limit_exceeded_total"

def bypassedTotal : String := "rate_limit_bypassed_total"

def activeKeys : String := "rate_limit_active_keys"

def outcomeText (allowed : Bool) : String := if allowed then "allowed" else "rejected"

def noLabels : Labels := InsertionMap.empty

def reasonLabels (reason : String) : Labels := noLabels.set "reason" reason

def scopeLabels (scope : RateLimitScope) : Labels := noLabels.set "scope" scope.text

def checkLabels (scope : RateLimitScope) (algorithm : RateLimitAlgorithm) (allowed : Bool) :
    Labels :=
  ((noLabels.set "scope" scope.text).set "algorithm" algorithm.text).set "outcome"
    (outcomeText allowed)

namespace MeteredService

/-- registerMetrics, on the metrics that the metrics service starts with. -/
def registerMetrics (metrics : MetricsService Rat) : MetricsService Rat :=
  (((metrics.registerMetric
    ⟨checksTotal, "Rate limit checks by scope, algorithm, and outcome", .counter, []⟩).registerMetric
    ⟨exceededTotal, "Requests rejected by rate limit scope", .counter, []⟩).registerMetric
    ⟨bypassedTotal, "Requests that bypassed rate limiting", .counter, []⟩).registerMetric
    ⟨activeKeys, "Active in-memory rate limit keys", .gauge, []⟩

section Service
variable {State Policy : Type} (pair : LimiterPair State Policy) (conversions : Conversions)
  (config : RateLimitConfiguration)

def initial : MeteredService State where
  limiters := pair.empty
  analytics := ⟨0, 0, 0, 0, fun _ => ⟨0, 0⟩⟩
  metrics := registerMetrics MetricsService.initializeDefaultMetrics

def apply (service : MeteredService State) (limit : MeteredLimit Policy) (now : Rat) :
    MeteredService State × AppliedLimit :=
  let algorithm := pair.algorithm limit.policy
  let consumed := pair.consume service.limiters (limit.scope.text ++ ":" ++ limit.key)
    limit.policy now
  let allowed := consumed.2.allowed
  let metrics := service.metrics.incrementCounter checksTotal
    (checkLabels limit.scope algorithm allowed) 1
  ({ limiters := consumed.1,
     analytics := RateLimitService.countScope service.analytics limit.scope allowed,
     metrics := if allowed then metrics
       else metrics.incrementCounter exceededTotal (scopeLabels limit.scope) 1 },
    ⟨limit.scope, algorithm, consumed.2⟩)

def applyAll (service : MeteredService State) (now : Rat) :
    List (MeteredLimit Policy) → MeteredService State × List AppliedLimit
  | [] => (service, [])
  | limit :: rest =>
    let applied := apply pair service limit now
    let others := applyAll applied.1 now rest
    (others.1, applied.2 :: others.2)

def bypass (service : MeteredService State) (reason : String) (now : Rat) :
    MeteredService State × RateLimitDecision :=
  ({ service with
      analytics := { service.analytics with bypassed := service.analytics.bypassed + 1 },
      metrics := service.metrics.incrementCounter bypassedTotal (reasonLabels reason) 1 },
    { allowed := true, bypassed := true, limit := 0, remaining := 0, resetAt := now,
      retryAfterMs := 0, scope := none, algorithm := none })

def countTotal (service : MeteredService State) : MeteredService State :=
  { service with analytics := { service.analytics with total := service.analytics.total + 1 } }

def updateActiveKeysMetric (service : MeteredService State) : MeteredService State :=
  { service with metrics := service.metrics.setGauge activeKeys (pair.size service.limiters) noLabels }

def countOutcome (service : MeteredService State) (rejected : Bool) : MeteredService State :=
  let analytics := service.analytics
  updateActiveKeysMetric pair { service with
    analytics := if rejected then { analytics with rejected := analytics.rejected + 1 }
      else { analytics with allowed := analytics.allowed + 1 } }

def ipLimit (request : RateLimitRequest) : MeteredLimit Policy :=
  ⟨.ip, "ip:" ++ RateLimitService.clientIp request, pair.configured config.ip⟩

def userLimit (request : RateLimitRequest) : Option (MeteredLimit Policy) :=
  (RateLimitService.nonempty request.userId).map fun userId =>
    ⟨.user, "user:" ++ userId, pair.configured config.user⟩

/-- The key of an endpoint limit; without a scope it is that of the user. -/
def endpointKey (request : RateLimitRequest) (scope : IdentityScope) : String :=
  let identity := match scope, RateLimitService.nonempty request.userId with
    | .user, some userId => "user:" ++ userId
    | _, _ => "ip:" ++ RateLimitService.clientIp request
  "endpoint:" ++ RateLimitService.requestPath request ++ ":" ++ identity

def endpointLimit (request : RateLimitRequest) (override : Option (DeclaredOverride Policy)) :
    Option (MeteredLimit Policy) :=
  match override with
  | some override =>
    some ⟨.endpoint, endpointKey request (override.scope.getD .user), override.policy⟩
  | none => (RateLimitService.endpointPolicy conversions config request).map fun policy =>
      ⟨.endpoint, endpointKey request policy.scope, pair.configured policy.toUsablePolicy⟩

def otherLimits (request : RateLimitRequest) (override : Option (DeclaredOverride Policy)) :
    List (MeteredLimit Policy) :=
  (userLimit pair config request).toList ++
    (endpointLimit pair conversions config request override).toList

def check (service : MeteredService State) (request : RateLimitRequest)
    (override : Option (DeclaredOverride Policy)) (skip : Bool) (now : Rat) :
    MeteredService State × List AppliedLimit × RateLimitDecision :=
  let service := service.countTotal
  match RateLimitService.bypassReason config request skip with
  | some reason =>
    let bypassed := service.bypass reason now
    (bypassed.1, [], bypassed.2)
  | none =>
    let byIp := apply pair service (ipLimit pair config request) now
    let others := applyAll pair byIp.1 now (otherLimits pair conversions config request override)
    let limits := byIp.2 :: others.2
    let denied := RateLimitService.firstDenied limits
    let selected := denied.getD (RateLimitService.mostRestrictive byIp.2 others.2)
    (countOutcome pair others.1 denied.isSome, limits,
      { selected.result with
        bypassed := false, scope := selected.scope, algorithm := selected.algorithm })

def cleanup (service : MeteredService State) (now : Rat) : MeteredService State :=
  updateActiveKeysMetric pair
    { service with limiters := pair.prune service.limiters (now - maxIdleMs) }

def step (service : MeteredService State) :
    MeteredCall Policy → Option (MeteredService State × MeteredAnswer)
  | .check request override skip now =>
    let checked := check pair conversions config service request override skip now
    some (checked.1, .answered (.decided checked.2.1 checked.2.2))
  | .cleanup now => some (cleanup pair service now, .answered .cleaned)
  | .metrics call => some ({ service with metrics := call.perform service.metrics }, .recorded)

def machine : Machine (MeteredService State) (MeteredCall Policy) MeteredAnswer :=
  ⟨initial pair, step pair conversions config⟩

end Service

section Refinement
variable {conversions : Conversions} {config : RateLimitConfiguration}

def declared (override : RateLimitOverride) : DeclaredOverride RateLimitPolicy where
  policy := (usablePolicy override.limit override.windowMs
    (override.algorithm.getD .tokenBucket)).toRateLimitPolicy
  scope := override.scope

def meteredLimit (limit : ApplicableLimit) : MeteredLimit RateLimitPolicy :=
  ⟨limit.scope, limit.key, limit.policy.toRateLimitPolicy⟩

def metered : RateLimitCall → MeteredCall RateLimitPolicy
  | .check request override skip now => .check request (override.map declared) skip now
  | .cleanup now => .cleanup now

/-- The same limiters and the same analytics. -/
def Follows (service : RateLimitService) (follower : MeteredService Limiters) : Prop :=
  follower.limiters = service.limiters ∧ follower.analytics = service.analytics

theorem otherLimits_declared (request : RateLimitRequest) (override : Option RateLimitOverride) :
    otherLimits memoryLimiters conversions config request (override.map declared) =
      (RateLimitService.otherLimits conversions config request override).map meteredLimit := by
  have users : userLimit memoryLimiters config request =
      (RateLimitService.userLimit config request).map meteredLimit := by
    rw [userLimit, RateLimitService.userLimit, Option.map_map]
    rfl
  have endpoints : endpointLimit memoryLimiters conversions config request
      (override.map declared) =
      (RateLimitService.endpointLimit conversions config request override).map meteredLimit := by
    cases override with
    | none =>
      rw [RateLimitService.endpointLimit, Option.map_map]
      rfl
    | some override => rfl
  rw [otherLimits, RateLimitService.otherLimits, users, endpoints, List.map_append,
    Option.toList_map, Option.toList_map]

section Following
variable {service : RateLimitService} {follower : MeteredService Limiters}

theorem apply_follows (follows : Follows service follower) (limit : ApplicableLimit) (now : Rat) :
    Follows (service.apply limit now).1
      (apply memoryLimiters follower (meteredLimit limit) now).1 ∧
    (apply memoryLimiters follower (meteredLimit limit) now).2 = (service.apply limit now).2 := by
  obtain ⟨limiters, analytics⟩ := follows
  simp only [apply, RateLimitService.apply, Follows, limiters, analytics]
  exact ⟨⟨rfl, rfl⟩, rfl⟩

theorem applyAll_follows (follows : Follows service follower) (limits : List ApplicableLimit)
    (now : Rat) : Follows (service.applyAll now limits).1
      (applyAll memoryLimiters follower now (limits.map meteredLimit)).1 ∧
    (applyAll memoryLimiters follower now (limits.map meteredLimit)).2 =
      (service.applyAll now limits).2 := by
  induction limits generalizing service follower with
  | nil => exact ⟨follows, rfl⟩
  | cons limit rest ih =>
    obtain ⟨here, shown⟩ := apply_follows follows limit now
    obtain ⟨later, all_shown⟩ := ih here
    refine ⟨later, ?_⟩
    rw [List.map_cons, applyAll, RateLimitService.applyAll, shown, all_shown]

theorem countOutcome_follows (follows : Follows service follower) (rejected : Bool) :
    Follows (service.countOutcome rejected) (countOutcome memoryLimiters follower rejected) := by
  obtain ⟨limiters, analytics⟩ := follows
  simp only [countOutcome, updateActiveKeysMetric, RateLimitService.countOutcome, Follows,
    analytics]
  exact ⟨limiters, trivial⟩

theorem check_follows (follows : Follows service follower) (request : RateLimitRequest)
    (override : Option RateLimitOverride) (skip : Bool) (now : Rat) :
    Follows (service.check conversions config request override skip now).1
      (check memoryLimiters conversions config follower request (override.map declared) skip now).1 ∧
    (check memoryLimiters conversions config follower request (override.map declared) skip now).2 =
      (service.check conversions config request override skip now).2 := by
  have counted : Follows service.countTotal follower.countTotal := by
    obtain ⟨limiters, analytics⟩ := follows
    simp only [countTotal, RateLimitService.countTotal, Follows, analytics]
    exact ⟨limiters, trivial⟩
  unfold check RateLimitService.check
  cases RateLimitService.bypassReason config request skip with
  | some reason =>
    obtain ⟨limiters, analytics⟩ := counted
    simp only [bypass, RateLimitService.bypass, Follows, analytics]
    exact ⟨⟨limiters, trivial⟩, trivial⟩
  | none =>
    obtain ⟨by_ip, shown⟩ := apply_follows counted (RateLimitService.ipLimit config request) now
    obtain ⟨all, all_shown⟩ := applyAll_follows by_ip
      (RateLimitService.otherLimits conversions config request override) now
    rw [← otherLimits_declared] at all all_shown
    have same_ip : ipLimit memoryLimiters config request =
      meteredLimit (RateLimitService.ipLimit config request) := rfl
    simp only [same_ip, shown, all_shown]
    exact ⟨countOutcome_follows all _, trivial⟩

end Following

/- Every run of the service is one of the metered service, with the same answers. -/
theorem metered_of_run {past : List (RateLimitCall × RateLimitAnswer)} {service : RateLimitService}
    (run : (RateLimitService.machine conversions config).Run Machine.anything past service) :
    ∃ follower, (machine memoryLimiters conversions config).Run Machine.anything
        (past.map (Prod.map metered MeteredAnswer.answered)) follower ∧
      Follows service follower := by
  refine run.simulated metered MeteredAnswer.answered (fun _ => Follows) ⟨rfl, rfl⟩ ?_
  intro past service follower call service' answer _ follows _ moved
  cases call with
  | check request override skip now =>
    obtain ⟨rfl, rfl⟩ := Prod.mk.inj (Option.some.inj moved)
    obtain ⟨later, shown⟩ := @check_follows conversions config _ _ follows request override skip now
    refine ⟨_, ?_, later⟩
    simp only [machine, metered, step, shown]
  | cleanup now =>
    obtain ⟨rfl, rfl⟩ := Prod.mk.inj (Option.some.inj moved)
    obtain ⟨limiters, analytics⟩ := follows
    refine ⟨_, rfl, ?_, analytics⟩
    simp only [cleanup, updateActiveKeysMetric, memoryLimiters, limiters]
    rfl

end Refinement
end MeteredService
end AstraPort.RateLimit
