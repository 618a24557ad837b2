import AstraPort.RateLimit.Metered

/- The books of the rate limiter: the counters of its analytics, and the counters it keeps in the
   metrics service, agree with each other at every moment of a run. -/
namespace AstraPort.RateLimit
open Monitoring

def ScopeCounts.of (counts : ScopeCounts) (allowed : Bool) : Nat :=
  if allowed then counts.allowed else counts.rejected

def ScopeCounts.checks (counts : ScopeCounts) : Nat := counts.allowed + counts.rejected

/-- The counters that nobody else writes. -/
def counterNames : List String := [checksTotal, exceededTotal, bypassedTotal]

namespace MeteredService
variable {State Policy : Type} {pair : LimiterPair State Policy} {conversions : Conversions}
  {config : RateLimitConfiguration}

/-- Other code may ask anything of the metrics service but to write these counters. -/
def CountersAlone :
    Machine.Permit (MeteredService State) (MeteredCall Policy) MeteredAnswer := fun _ _ call =>
  match call with
  | .metrics call => ∀ name ∈ counterNames, name ∉ call.writes
  | _ => True

/-- rate_limit_checks_total with this scope and outcome, over both algorithms. -/
def checksMetric (service : MeteredService State) (scope : RateLimitScope) (allowed : Bool) : Rat :=
  ([RateLimitAlgorithm.tokenBucket, .slidingWindow].map fun algorithm =>
    service.metrics.getMetricValue checksTotal (checkLabels scope algorithm allowed)).sum

/-- The analytics agree with themselves. -/
structure Balanced (analytics : RateLimitAnalytics) : Prop where
  total : analytics.total = analytics.allowed + analytics.rejected + analytics.bypassed
  by_ip : (analytics.byScope .ip).checks = analytics.allowed + analytics.rejected
  by_scope : ∀ scope, (analytics.byScope scope).checks ≤ analytics.allowed + analytics.rejected

/-- The metrics agree with the analytics. -/
structure Mirrored (service : MeteredService State) : Prop where
  registered : ∀ name ∈ counterNames, service.metrics.Registered name
  checks : ∀ scope allowed,
    service.checksMetric scope allowed = (service.analytics.byScope scope).of allowed
  exceeded : ∀ scope, service.metrics.getMetricValue exceededTotal (scopeLabels scope) =
    (service.analytics.byScope scope).rejected
  bypassed : service.metrics.sampleTotal bypassedTotal = service.analytics.bypassed

section Labels

theorem scope_text_injective {scope other : RateLimitScope} (same : scope.text = other.text) :
    scope = other := by
  revert same
  cases scope <;> cases other <;> decide

theorem algorithm_text_injective {algorithm other : RateLimitAlgorithm}
    (same : algorithm.text = other.text) : algorithm = other := by
  revert same
  cases algorithm <;> cases other <;> decide

theorem outcomeText_injective {allowed other : Bool}
    (same : outcomeText allowed = outcomeText other) : allowed = other := by
  revert same
  cases allowed <;> cases other <;> decide

theorem scopeLabels_equal {scope other : RateLimitScope} :
    areLabelsEqual (scopeLabels scope) (scopeLabels other) = true ↔ scope = other := by
  rw [areLabelsEqual_iff]
  constructor
  · intro same
    have texts := same "scope"
    simp only [scopeLabels, InsertionMap.get_set_self, Option.some.injEq] at texts
    exact scope_text_injective texts
  · intro same key
    rw [same]

theorem checkLabels_equal {scope scope' : RateLimitScope}
    {algorithm algorithm' : RateLimitAlgorithm} {allowed allowed' : Bool} :
    areLabelsEqual (checkLabels scope algorithm allowed)
      (checkLabels scope' algorithm' allowed') = true ↔
        scope = scope' ∧ algorithm = algorithm' ∧ allowed = allowed' := by
  rw [areLabelsEqual_iff]
  constructor
  · intro same
    have scopes := same "scope"
    have algorithms := same "algorithm"
    have outcomes := same "outcome"
    simp [checkLabels] at scopes algorithms outcomes
    exact ⟨scope_text_injective scopes, algorithm_text_injective algorithms,
      outcomeText_injective outcomes⟩
  · intro same key
    obtain ⟨rfl, rfl, rfl⟩ := same
    rfl

end Labels

section Metrics
variable {service after : MeteredService State}

/- What the metrics show of checks and rejections is decided by their two entries. -/
theorem Mirrored.of_entries (mirrored : Mirrored service)
    (registered : ∀ name ∈ counterNames, after.metrics.Registered name)
    (checks_entry : after.metrics.metrics.get checksTotal = service.metrics.metrics.get checksTotal)
    (exceeded_entry :
      after.metrics.metrics.get exceededTotal = service.metrics.metrics.get exceededTotal)
    (scopes : after.analytics.byScope = service.analytics.byScope)
    (bypassed : after.metrics.sampleTotal bypassedTotal = after.analytics.bypassed) :
    Mirrored after := by
  constructor
  · exact registered
  · intro scope allowed
    rw [scopes, ← mirrored.checks scope allowed]
    simp only [checksMetric, MetricsService.getMetricValue, checks_entry]
  · intro scope
    rw [scopes, ← mirrored.exceeded scope]
    simp only [MetricsService.getMetricValue, exceeded_entry]
  · exact bypassed

theorem Mirrored.of_same (mirrored : Mirrored service)
    (entries : ∀ name ∈ counterNames,
      after.metrics.metrics.get name = service.metrics.metrics.get name)
    (scopes : after.analytics.byScope = service.analytics.byScope)
    (bypasses : after.analytics.bypassed = service.analytics.bypassed) : Mirrored after := by
  apply mirrored.of_entries
  · intro name member
    rw [MetricsService.Registered, entries name member]
    exact mirrored.registered name member
  · exact entries checksTotal (by decide)
  · exact entries exceededTotal (by decide)
  · exact scopes
  · rw [bypasses, ← mirrored.bypassed]
    simp only [MetricsService.sampleTotal, entries bypassedTotal (by decide)]

section Counting
variable {metrics : MetricsService Rat}

/-- What an applied limit writes into the metrics. -/
def countCheck (metrics : MetricsService Rat) (scope : RateLimitScope)
    (algorithm : RateLimitAlgorithm) (allowed : Bool) : MetricsService Rat :=
  let checked := metrics.incrementCounter checksTotal (checkLabels scope algorithm allowed) 1
  if allowed then checked else checked.incrementCounter exceededTotal (scopeLabels scope) 1

theorem countCheck_registered {name : String} (registered : metrics.Registered name)
    (scope : RateLimitScope) (algorithm : RateLimitAlgorithm) (allowed : Bool) :
    (countCheck metrics scope algorithm allowed).Registered name := by
  have checked : (metrics.incrementCounter checksTotal (checkLabels scope algorithm allowed)
      1).Registered name := MetricsService.change_registered registered
  cases allowed with
  | true => exact checked
  | false => exact MetricsService.change_registered checked

theorem countCheck_get {name : String} (not_checks : name ≠ checksTotal)
    (not_exceeded : name ≠ exceededTotal) (scope : RateLimitScope) (algorithm : RateLimitAlgorithm)
    (allowed : Bool) :
    (countCheck metrics scope algorithm allowed).metrics.get name = metrics.metrics.get name := by
  have checked : (metrics.incrementCounter checksTotal (checkLabels scope algorithm allowed)
      1).metrics.get name = metrics.metrics.get name := MetricsService.change_get_other not_checks
  cases allowed with
  | true => exact checked
  | false => exact (MetricsService.change_get_other not_exceeded).trans checked

/- One check more under its labels. -/
theorem countCheck_checks (registered : metrics.Registered checksTotal) (scope : RateLimitScope)
    (algorithm : RateLimitAlgorithm) (allowed : Bool) (other : RateLimitScope)
    (any : RateLimitAlgorithm) (outcome : Bool) :
    (countCheck metrics scope algorithm allowed).getMetricValue checksTotal
        (checkLabels other any outcome) =
      metrics.getMetricValue checksTotal (checkLabels other any outcome) +
        if scope = other ∧ algorithm = any ∧ allowed = outcome then 1 else 0 := by
  have grown := MetricsService.incrementCounter_reads registered 1
    (checkLabels scope algorithm allowed) (checkLabels other any outcome)
  simp only [checkLabels_equal] at grown
  rw [← grown]
  cases allowed with
  | true => rfl
  | false => exact MetricsService.change_other (by decide) _

/- One rejection more under its scope, if it was one. -/
theorem countCheck_exceeded (registered : metrics.Registered exceededTotal) (scope : RateLimitScope)
    (algorithm : RateLimitAlgorithm) (allowed : Bool) (other : RateLimitScope) :
    (countCheck metrics scope algorithm allowed).getMetricValue exceededTotal (scopeLabels other) =
      metrics.getMetricValue exceededTotal (scopeLabels other) +
        if scope = other ∧ allowed = false then 1 else 0 := by
  have checked : (metrics.incrementCounter checksTotal (checkLabels scope algorithm allowed)
      1).getMetricValue exceededTotal (scopeLabels other) =
      metrics.getMetricValue exceededTotal (scopeLabels other) :=
    MetricsService.change_other (by decide) _
  rw [← checked]
  cases allowed with
  | true =>
    rw [if_neg (by simp), add_zero]
    rfl
  | false =>
    have still_registered : (metrics.incrementCounter checksTotal
        (checkLabels scope algorithm false) 1).Registered exceededTotal :=
      MetricsService.change_registered registered
    have grown := MetricsService.incrementCounter_reads still_registered 1 (scopeLabels scope)
      (scopeLabels other)
    simp only [scopeLabels_equal] at grown
    simp only [and_true]
    exact grown

end Counting

theorem checksMetric_countCheck (registered : service.metrics.Registered checksTotal)
    (scope : RateLimitScope) (algorithm : RateLimitAlgorithm) (allowed : Bool)
    (counted : after.metrics = countCheck service.metrics scope algorithm allowed)
    (other : RateLimitScope) (outcome : Bool) :
    after.checksMetric other outcome =
      service.checksMetric other outcome + if scope = other ∧ allowed = outcome then 1 else 0 := by
  simp only [checksMetric, counted, countCheck_checks registered, List.map_cons, List.map_nil,
    List.sum_cons, List.sum_nil, add_zero]
  by_cases same : scope = other ∧ allowed = outcome
  · obtain ⟨rfl, rfl⟩ := same
    cases algorithm with
    | tokenBucket => simp [add_right_comm]
    | slidingWindow => simp [add_assoc]
  · have apart (any : RateLimitAlgorithm) :
        ¬ (scope = other ∧ algorithm = any ∧ allowed = outcome) :=
      fun all => same ⟨all.1, all.2.2⟩
    simp [same, apart]

theorem countScope_of (analytics : RateLimitAnalytics) (scope other : RateLimitScope)
    (allowed outcome : Bool) :
    ((RateLimitService.countScope analytics scope allowed).byScope other).of outcome =
      (analytics.byScope other).of outcome + if scope = other ∧ allowed = outcome then 1 else 0 := by
  unfold RateLimitService.countScope
  by_cases same : other = scope
  · subst same
    cases allowed <;> cases outcome <;> simp [ScopeCounts.of]
  · simp [same, Ne.symm same]

/- An applied limit adds one to the analytics of its scope and outcome and to the metrics. -/
theorem Mirrored.apply (mirrored : Mirrored service) (limit : MeteredLimit Policy) (now : Rat) :
    Mirrored (MeteredService.apply pair service limit now).1 := by
  let allowed := (pair.consume service.limiters (limit.scope.text ++ ":" ++ limit.key) limit.policy
    now).2.allowed
  have metrics : (MeteredService.apply pair service limit now).1.metrics =
      countCheck service.metrics limit.scope (pair.algorithm limit.policy) allowed := rfl
  have analytics : (MeteredService.apply pair service limit now).1.analytics =
      RateLimitService.countScope service.analytics limit.scope allowed := rfl
  constructor
  · intro name member
    rw [metrics]
    exact countCheck_registered (mirrored.registered name member) _ _ _
  · intro scope outcome
    rw [checksMetric_countCheck (mirrored.registered checksTotal (by decide)) _ _ _ metrics,
      analytics, countScope_of, mirrored.checks scope outcome]
    push_cast
    rfl
  · intro scope
    have rejected := countScope_of service.analytics limit.scope scope allowed false
    simp only [ScopeCounts.of, Bool.false_eq_true, if_false] at rejected
    rw [metrics, countCheck_exceeded (mirrored.registered exceededTotal (by decide)), analytics,
      rejected, mirrored.exceeded scope]
    push_cast
    rfl
  · rw [metrics, MetricsService.sampleTotal, countCheck_get (by decide) (by decide)]
    exact mirrored.bypassed

theorem Mirrored.applyAll (mirrored : Mirrored service) (limits : List (MeteredLimit Policy))
    (now : Rat) : Mirrored (MeteredService.applyAll pair service now limits).1 := by
  induction limits generalizing service with
  | nil => exact mirrored
  | cons limit rest ih => exact ih (mirrored.apply limit now)

theorem Mirrored.bypass (mirrored : Mirrored service) (reason : String) (now : Rat) :
    Mirrored (service.bypass reason now).1 := by
  have bypassed_registered := mirrored.registered bypassedTotal (by decide)
  apply mirrored.of_entries
  · intro name member
    exact MetricsService.change_registered (mirrored.registered name member)
  · exact MetricsService.change_get_other (by decide)
  · exact MetricsService.change_get_other (by decide)
  · rfl
  · have grown := MetricsService.incrementCounter_total bypassed_registered 1 (reasonLabels reason)
    rw [mirrored.bypassed] at grown
    exact grown.trans (Nat.cast_succ _).symm

theorem Mirrored.updateActiveKeysMetric (mirrored : Mirrored service) :
    Mirrored (MeteredService.updateActiveKeysMetric pair service) := by
  apply mirrored.of_same
  · intro name member
    apply MetricsService.change_get_other
    revert name
    decide
  · rfl
  · rfl

theorem Mirrored.countOutcome (mirrored : Mirrored service) (rejected : Bool) :
    Mirrored (MeteredService.countOutcome pair service rejected) := by
  apply Mirrored.updateActiveKeysMetric
  apply mirrored.of_same
  · intro name _
    rfl
  · cases rejected <;> rfl
  · cases rejected <;> rfl

theorem Mirrored.check (mirrored : Mirrored service) (request : RateLimitRequest)
    (override : Option (DeclaredOverride Policy)) (skip : Bool) (now : Rat) :
    Mirrored (MeteredService.check pair conversions config service request override skip now).1 := by
  have counted : Mirrored service.countTotal := mirrored.of_same (fun _ _ => rfl) rfl rfl
  unfold MeteredService.check
  cases RateLimitService.bypassReason config request skip with
  | some reason => exact counted.bypass reason now
  | none => exact ((counted.apply _ now).applyAll _ now).countOutcome _

/- A call keeps every entry it does not write; registering cannot replace one. -/
theorem perform_get {metrics : MetricsService Rat} {name : String}
    (registered : metrics.Registered name) (call : MetricsCall) (unwritten : name ∉ call.writes) :
    (call.perform metrics).metrics.get name = metrics.metrics.get name := by
  cases call with
  | registerMetric metric =>
    rw [MetricsCall.perform, MetricsService.registerMetric]
    split
    · rfl
    · rename_i unknown
      apply InsertionMap.get_set_ne
      intro same
      exact registered (same ▸ unknown)
  | incrementCounter other labels amount =>
    exact MetricsService.change_get_other (List.ne_of_not_mem_cons unwritten)
  | setGauge other value labels =>
    exact MetricsService.change_get_other (List.ne_of_not_mem_cons unwritten)
  | recordObserveHistogram other valueInSeconds labels =>
    obtain ⟨not_sum, not_count⟩ := List.ne_and_not_mem_of_not_mem_cons unwritten
    rw [MetricsCall.perform, MetricsService.recordObserveHistogram]
    split
    · rfl
    · rw [MetricsService.incrementCounter,
        MetricsService.change_get_other (List.ne_of_not_mem_cons not_count),
        MetricsService.change_get_other not_sum]

theorem Mirrored.step (mirrored : Mirrored service) {call : MeteredCall Policy}
    {answer : MeteredAnswer} {past : List (MeteredCall Policy × MeteredAnswer)}
    (alone : CountersAlone past service call)
    (moved : MeteredService.step pair conversions config service call = some (after, answer)) :
    Mirrored after := by
  cases call with
  | check request override skip now =>
    obtain ⟨rfl, -⟩ := Prod.mk.inj (Option.some.inj moved)
    exact mirrored.check request override skip now
  | cleanup now =>
    obtain ⟨rfl, -⟩ := Prod.mk.inj (Option.some.inj moved)
    apply Mirrored.updateActiveKeysMetric
    exact mirrored.of_same (fun _ _ => rfl) rfl rfl
  | metrics call =>
    obtain ⟨rfl, -⟩ := Prod.mk.inj (Option.some.inj moved)
    apply mirrored.of_same
    · intro name member
      exact perform_get (mirrored.registered name member) call (alone name member)
    · rfl
    · rfl

/- The service starts with its counters registered and without samples. -/
theorem counters_at_start : ∀ name ∈ counterNames,
    ((registerMetrics MetricsService.initializeDefaultMetrics).metrics.get name).map Metric.values =
      some [] := by
  intro name member
  simp only [counterNames, List.mem_cons, List.not_mem_nil, or_false] at member
  obtain rfl | rfl | rfl := member <;> rfl

theorem mirrored_at_start : Mirrored (initial pair) := by
  have entry (name : String) (member : name ∈ counterNames) : ∃ metric : Metric Rat,
      (initial pair).metrics.metrics.get name = some metric ∧ metric.values = [] :=
    Option.map_eq_some_iff.mp (counters_at_start name member)
  have reads (name : String) (member : name ∈ counterNames) (labels : Labels) :
      (initial pair).metrics.getMetricValue name labels = 0 := by
    obtain ⟨metric, found, none_yet⟩ := entry name member
    rw [MetricsService.getMetricValue, found]
    simp [none_yet, findMetricValue]
  constructor
  · intro name member
    obtain ⟨metric, found, -⟩ := entry name member
    rw [MetricsService.Registered, found]
    exact Option.some_ne_none metric
  · intro scope allowed
    have none_yet : ((initial pair).analytics.byScope scope).of allowed = 0 := by
      cases allowed <;> rfl
    simp [checksMetric, reads checksTotal (by decide), none_yet]
  · intro scope
    rw [reads exceededTotal (by decide)]
    rfl
  · obtain ⟨metric, found, none_yet⟩ := entry bypassedTotal (by decide)
    rw [MetricsService.sampleTotal, found]
    simp [none_yet, initial]

end Metrics

section Analytics
variable {service after : MeteredService State}

theorem countScope_checks (analytics : RateLimitAnalytics) (scope other : RateLimitScope)
    (allowed : Bool) :
    ((RateLimitService.countScope analytics scope allowed).byScope other).checks =
      (analytics.byScope other).checks + if scope = other then 1 else 0 := by
  have accepted := countScope_of analytics scope other allowed true
  have refused := countScope_of analytics scope other allowed false
  simp only [ScopeCounts.of, if_true, Bool.false_eq_true, if_false] at accepted refused
  rw [ScopeCounts.checks, accepted, refused, ScopeCounts.checks]
  cases allowed with
  | true => simp only [Bool.true_eq_false, and_true, and_false, if_false]; omega
  | false => simp only [Bool.false_eq_true, and_true, and_false, if_false]; omega

/-- What applying limits does to the analytics: each is counted once, under its own scope. -/
structure Counted (limits : List (MeteredLimit Policy)) (before after : RateLimitAnalytics) :
    Prop where
  total : after.total = before.total
  allowed : after.allowed = before.allowed
  rejected : after.rejected = before.rejected
  bypassed : after.bypassed = before.bypassed
  checks : ∀ scope, (after.byScope scope).checks =
    (before.byScope scope).checks + limits.countP fun limit => limit.scope = scope

theorem applyAll_counted (limits : List (MeteredLimit Policy)) (now : Rat) :
    Counted limits service.analytics
      (MeteredService.applyAll pair service now limits).1.analytics := by
  induction limits generalizing service with
  | nil => exact ⟨rfl, rfl, rfl, rfl, fun _ => rfl⟩
  | cons limit rest ih =>
    have later := @ih (MeteredService.apply pair service limit now).1
    refine ⟨later.total, later.allowed, later.rejected, later.bypassed, fun scope => ?_⟩
    have here : ((MeteredService.apply pair service limit now).1.analytics.byScope scope).checks =
        (service.analytics.byScope scope).checks + if limit.scope = scope then 1 else 0 :=
      countScope_checks service.analytics limit.scope scope _
    rw [MeteredService.applyAll, later.checks scope, here, List.countP_cons]
    simp only [decide_eq_true_eq]
    omega

theorem userLimit_scope {request : RateLimitRequest} {limit : MeteredLimit Policy}
    (applies : userLimit pair config request = some limit) : limit.scope = .user := by
  obtain ⟨userId, -, rfl⟩ := Option.map_eq_some_iff.mp applies
  rfl

theorem endpointLimit_scope {request : RateLimitRequest}
    {override : Option (DeclaredOverride Policy)} {limit : MeteredLimit Policy}
    (applies : endpointLimit pair conversions config request override = some limit) :
    limit.scope = .endpoint := by
  cases override with
  | some override =>
    obtain rfl := Option.some.inj applies
    rfl
  | none =>
    obtain ⟨policy, -, rfl⟩ := Option.map_eq_some_iff.mp applies
    rfl

theorem countP_scope {limit : Option (MeteredLimit Policy)} {own : RateLimitScope}
    (all : ∀ l, limit = some l → l.scope = own) (scope : RateLimitScope) :
    limit.toList.countP (fun l => l.scope = scope) ≤ if own = scope then 1 else 0 := by
  cases limit with
  | none => exact Nat.zero_le _
  | some limit =>
    rw [Option.toList_some, List.countP_singleton, all limit rfl]
    simp

/- A check applies at most one limit of each scope, and none but the first is by address. -/
theorem otherLimits_scopes (request : RateLimitRequest)
    (override : Option (DeclaredOverride Policy)) (scope : RateLimitScope) :
    (otherLimits pair conversions config request override).countP (fun limit => limit.scope = scope) ≤
      if scope = .ip then 0 else 1 := by
  have of_user : (userLimit pair config request).toList.countP
      (fun limit => limit.scope = scope) ≤ if RateLimitScope.user = scope then 1 else 0 :=
    countP_scope (fun _ => userLimit_scope) scope
  have of_endpoint : (endpointLimit pair conversions config request override).toList.countP
      (fun limit => limit.scope = scope) ≤ if RateLimitScope.endpoint = scope then 1 else 0 :=
    countP_scope (fun _ => endpointLimit_scope) scope
  rw [otherLimits, List.countP_append]
  cases scope with
  | ip =>
    simp only [reduceCtorEq, if_false, if_true] at of_user of_endpoint ⊢
    omega
  | user =>
    simp only [reduceCtorEq, if_false, if_true] at of_user of_endpoint ⊢
    omega
  | endpoint =>
    simp only [reduceCtorEq, if_false, if_true] at of_user of_endpoint ⊢
    omega

/- One decided request is one check by address and at most one of every scope. -/
theorem balanced_after_limits {before after decided : RateLimitAnalytics}
    (balanced : Balanced before) {first : MeteredLimit Policy} {others : List (MeteredLimit Policy)}
    (by_address : first.scope = .ip)
    (scopes : ∀ scope, others.countP (fun limit => limit.scope = scope) ≤
      if scope = .ip then 0 else 1)
    (counted : Counted (first :: others)
      { before with total := before.total + 1 } after)
    (same_scopes : decided.byScope = after.byScope) (same_total : decided.total = after.total)
    (same_bypassed : decided.bypassed = after.bypassed)
    (outcome : decided.allowed + decided.rejected = after.allowed + after.rejected + 1) :
    Balanced decided := by
  have checks (scope : RateLimitScope) : (decided.byScope scope).checks =
      (before.byScope scope).checks +
        (others.countP (fun limit => limit.scope = scope) + if scope = .ip then 1 else 0) := by
    rw [same_scopes, counted.checks scope, List.countP_cons, by_address]
    simp [eq_comm]
  have same_allowed : after.allowed = before.allowed := counted.allowed
  have same_rejected : after.rejected = before.rejected := counted.rejected
  have bypasses : after.bypassed = before.bypassed := counted.bypassed
  have one_more : after.total = before.total + 1 := counted.total
  constructor
  · have total := balanced.total
    omega
  · have by_ip := balanced.by_ip
    have none_else := scopes .ip
    rw [checks .ip]
    simp only [if_true] at none_else ⊢
    omega
  · intro scope
    have bound := balanced.by_scope scope
    have at_most := scopes scope
    rw [checks scope]
    by_cases by_address : scope = .ip
    · rw [if_pos by_address] at at_most ⊢
      omega
    · rw [if_neg by_address] at at_most ⊢
      omega

theorem Balanced.check (balanced : Balanced service.analytics) (request : RateLimitRequest)
    (override : Option (DeclaredOverride Policy)) (skip : Bool) (now : Rat) :
    Balanced (MeteredService.check pair conversions config service request override skip
      now).1.analytics := by
  unfold MeteredService.check
  cases RateLimitService.bypassReason config request skip with
  | some reason =>
    have total := balanced.total
    refine ⟨?_, balanced.by_ip, balanced.by_scope⟩
    simp only [bypass, countTotal]
    omega
  | none =>
    let limits := ipLimit pair config request :: otherLimits pair conversions config request override
    have counted : Counted limits service.countTotal.analytics
        (applyAll pair service.countTotal now limits).1.analytics := applyAll_counted limits now
    simp only []
    generalize (RateLimitService.firstDenied _).isSome = rejected
    apply balanced_after_limits balanced rfl (otherLimits_scopes request override) counted
    · cases rejected <;> rfl
    · cases rejected <;> rfl
    · cases rejected <;> rfl
    · cases rejected with
      | true => exact (Nat.add_assoc _ _ _).symm
      | false => exact Nat.add_right_comm _ _ _

theorem Balanced.step (balanced : Balanced service.analytics) {call : MeteredCall Policy}
    {answer : MeteredAnswer}
    (moved : MeteredService.step pair conversions config service call = some (after, answer)) :
    Balanced after.analytics := by
  cases call with
  | check request override skip now =>
    obtain ⟨rfl, -⟩ := Prod.mk.inj (Option.some.inj moved)
    exact balanced.check request override skip now
  | cleanup now =>
    obtain ⟨rfl, -⟩ := Prod.mk.inj (Option.some.inj moved)
    exact balanced
  | metrics call =>
    obtain ⟨rfl, -⟩ := Prod.mk.inj (Option.some.inj moved)
    exact balanced

theorem balanced_at_start : Balanced (initial pair).analytics :=
  ⟨rfl, rfl, fun _ => Nat.le_refl _⟩

end Analytics

theorem analytics_balanced
    {permit : Machine.Permit (MeteredService State) (MeteredCall Policy) MeteredAnswer}
    {past : List (MeteredCall Policy × MeteredAnswer)} {service : MeteredService State}
    (run : (machine pair conversions config).Run permit past service) :
    Balanced service.analytics := by
  apply run.invariant fun _ service => Balanced service.analytics
  · exact balanced_at_start
  · intro past service call after answer _ known _ moved
    exact known.step moved

/- The same of the service over its own limiters, which the metered service follows. -/
theorem service_analytics_balanced {past : List (RateLimitCall × RateLimitAnswer)}
    {service : RateLimitService}
    (run : (RateLimitService.machine conversions config).Run Machine.anything past service) :
    Balanced service.analytics := by
  obtain ⟨follower, metered, follows⟩ := metered_of_run run
  exact follows.2 ▸ analytics_balanced metered

theorem metrics_mirrored {past : List (MeteredCall Policy × MeteredAnswer)}
    {service : MeteredService State}
    (run : (machine pair conversions config).Run CountersAlone past service) :
    Mirrored service := by
  apply run.invariant fun _ service => Mirrored service
  · exact mirrored_at_start
  · intro past service call after answer _ known alone moved
    exact known.step alone moved

/- In every run whose counters nobody else writes, both books agree: with any limiters, requests,
   overrides, skips and configuration. -/
theorem rate_limit_books_agree {past : List (MeteredCall Policy × MeteredAnswer)}
    {service : MeteredService State}
    (run : (machine pair conversions config).Run CountersAlone past service) :
    let books := service.analytics
    let decided := books.allowed + books.rejected
    books.total = decided + books.bypassed ∧
    (books.byScope .ip).allowed + (books.byScope .ip).rejected = decided ∧
    (books.byScope .user).allowed + (books.byScope .user).rejected ≤ decided ∧
    (books.byScope .endpoint).allowed + (books.byScope .endpoint).rejected ≤ decided ∧
    (∀ scope, service.checksMetric scope true = (books.byScope scope).allowed ∧
      service.checksMetric scope false = (books.byScope scope).rejected) ∧
    (∀ scope, service.metrics.getMetricValue exceededTotal (scopeLabels scope) =
      (books.byScope scope).rejected) ∧
    service.metrics.sampleTotal bypassedTotal = books.bypassed := by
  have balanced := analytics_balanced run
  have mirrored := metrics_mirrored run
  refine ⟨balanced.total, balanced.by_ip, balanced.by_scope .user, balanced.by_scope .endpoint,
    ?_, mirrored.exceeded, mirrored.bypassed⟩
  intro scope
  exact ⟨mirrored.checks scope true, mirrored.checks scope false⟩

/- Two requests under the default configuration, and a skipped one between them. -/
theorem rate_limit_books_agree_after_three_checks :
    let config := loadRateLimitConfiguration (plainConversions none) fun _ => none
    let M := machine memoryLimiters (plainConversions none) config
    ∃ past service, M.Run CountersAlone past service ∧ past.length = 3 ∧
      service.analytics.total = 3 ∧ service.metrics.sampleTotal bypassedTotal = 1 ∧
      service.checksMetric .ip true = 2 := by
  intro config M
  let request (skip : Bool) : MeteredCall RateLimitPolicy :=
    .check (requestOf "GET" "/portfolio" "alice") none skip 0
  have asked (past : List (MeteredCall RateLimitPolicy × MeteredAnswer))
      (service : MeteredService Limiters) (skip : Bool) :
      CountersAlone past service (request skip) := trivial
  have run := ((Machine.Run.start.next (asked [] M.init false) rfl).next (asked _ _ true) rfl).next
    (asked _ _ false) rfl
  have agree := rate_limit_books_agree run
  refine ⟨_, _, run, rfl, ?_, agree.2.2.2.2.2.2.trans ?_, (agree.2.2.2.2.1 .ip).1.trans ?_⟩
  · decide +kernel
  · decide +kernel
  · decide +kernel

end MeteredService
end AstraPort.RateLimit
