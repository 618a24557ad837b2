import AstraPort.RateLimit.Verdicts

/- Endpoint policies against each other. A limiter key names the path and the identity of a
   request but not the policy, so two policies that meet on a path share its state; where
   they do not, the requests of one leave the verdicts of the other as they are. -/
namespace AstraPort.RateLimit.RateLimitService
open Limiters

section Uses
variable (conversions : Conversions) (config : RateLimitConfiguration)

def endpointLimitOf (request : RateLimitRequest) (policy : EndpointRateLimitPolicy) :
    ApplicableLimit := ⟨.endpoint, endpointKey request policy, policy.toUsablePolicy⟩

/-- The endpoint policy that a request without override selects, and its key. -/
def endpointUse : RateLimitCall → Option (EndpointRateLimitPolicy × String)
  | .check request none skip _ =>
    if bypassReason config request skip = none then
      (endpointPolicy conversions config request).map fun policy =>
        (policy, limiterKey (endpointLimitOf request policy))
    else none
  | .check _ (some _) _ _ => none
  | .cleanup _ => none

def Selects (policy : EndpointRateLimitPolicy) (call : RateLimitCall) : Prop :=
  ∃ use ∈ endpointUse conversions config call, use.1 = policy

/-- Calls that do not select a different endpoint policy. -/
def SelectsNoOther (policy : EndpointRateLimitPolicy) (call : RateLimitCall) : Prop :=
  ∀ use ∈ endpointUse conversions config call, use.1 = policy

instance (policy : EndpointRateLimitPolicy) (call : RateLimitCall) :
    Decidable (Selects conversions config policy call) :=
  inferInstanceAs (Decidable (∃ use ∈ endpointUse conversions config call, use.1 = policy))

instance (policy : EndpointRateLimitPolicy) (call : RateLimitCall) :
    Decidable (SelectsNoOther conversions config policy call) :=
  inferInstanceAs (Decidable (∀ use ∈ endpointUse conversions config call, use.1 = policy))

def endpointVerdict : RateLimitAnswer → Option RateLimitResult
  | .decided limits _ =>
    (limits.find? fun limit => limit.scope = .endpoint).map AppliedLimit.result
  | .cleaned => none

/-- The requests that select a policy, each with its verdict under that policy. -/
def verdictsOf (policy : EndpointRateLimitPolicy) (past : List (RateLimitCall × RateLimitAnswer)) :
    List (RateLimitCall × Option RateLimitResult) :=
  (past.filter fun e => Selects conversions config policy e.1).map fun e =>
    (e.1, endpointVerdict e.2)

def WithoutOverride : RateLimitCall → Prop
  | .check _ override _ _ => override = none
  | .cleanup _ => True

instance : DecidablePred WithoutOverride
  | .check _ override _ _ => inferInstanceAs (Decidable (override = none))
  | .cleanup _ => isTrue trivial

def NoOverrides : Machine.Permit RateLimitService RateLimitCall RateLimitAnswer :=
  fun _ _ call => WithoutOverride call

instance (past : List (RateLimitCall × RateLimitAnswer)) (service : RateLimitService)
    (call : RateLimitCall) : Decidable (NoOverrides past service call) :=
  inferInstanceAs (Decidable (WithoutOverride call))

/-- The requests of another policy with the same algorithm use other keys. -/
def Apart (policy : EndpointRateLimitPolicy) (key : String)
    (past : List (RateLimitCall × RateLimitAnswer)) : Prop :=
  ∀ e ∈ past, ∀ use ∈ endpointUse conversions config e.1, use.1 ≠ policy →
    use.1.algorithm = policy.algorithm → use.2 ≠ key

instance (policy : EndpointRateLimitPolicy) (key : String)
    (past : List (RateLimitCall × RateLimitAnswer)) :
    Decidable (Apart conversions config policy key past) :=
  inferInstanceAs (Decidable (∀ e ∈ past, ∀ use ∈ endpointUse conversions config e.1,
    use.1 ≠ policy → use.1.algorithm = policy.algorithm → use.2 ≠ key))

/-- No request meets on its key what a different endpoint policy with the same algorithm
    has left there. -/
def KeysNotShared : Machine.Permit RateLimitService RateLimitCall RateLimitAnswer :=
  fun past _ call => WithoutOverride call ∧
    ∀ use ∈ endpointUse conversions config call, Apart conversions config use.1 use.2 past

instance (past : List (RateLimitCall × RateLimitAnswer)) (service : RateLimitService)
    (call : RateLimitCall) : Decidable (KeysNotShared conversions config past service call) :=
  inferInstanceAs (Decidable (WithoutOverride call ∧
    ∀ use ∈ endpointUse conversions config call, Apart conversions config use.1 use.2 past))

end Uses

/-- Two services hold the same under every endpoint key that only the policy has used. -/
def Agree (conversions : Conversions) (config : RateLimitConfiguration)
    (policy : EndpointRateLimitPolicy) (past : List (RateLimitCall × RateLimitAnswer))
    (one other : RateLimitService) : Prop :=
  ∀ limit : ApplicableLimit, limit.scope = .endpoint →
    Apart conversions config policy (limiterKey limit) past →
    SameAt policy.algorithm (limiterKey limit) one.limiters other.limiters

section Steps
variable {conversions : Conversions} {config : RateLimitConfiguration}
  {policy : EndpointRateLimitPolicy} {service other : RateLimitService}
  {request : RateLimitRequest} {skip : Bool} {now : Rat}
  {past : List (RateLimitCall × RateLimitAnswer)}

theorem Apart.earlier {key : String} {e : RateLimitCall × RateLimitAnswer}
    (apart : Apart conversions config policy key (e :: past)) :
    Apart conversions config policy key past := fun old member =>
  apart old (List.mem_cons_of_mem _ member)

theorem endpointUse_limited (limited : bypassReason config request skip = none) :
    endpointUse conversions config (.check request none skip now) =
      (endpointPolicy conversions config request).map fun policy =>
        (policy, limiterKey (endpointLimitOf request policy)) := if_pos limited

/- What a check leaves under an endpoint key that it does not use. -/
theorem check_apart {algorithm : RateLimitAlgorithm} {limit : ApplicableLimit}
    (scope : limit.scope = .endpoint)
    (apart : ∀ use ∈ endpointUse conversions config (.check request none skip now),
      use.2 ≠ limiterKey limit ∨ use.1.algorithm ≠ algorithm) :
    SameAt algorithm (limiterKey limit)
      (service.check conversions config request none skip now).1.limiters service.limiters := by
  refine check_leaves fun applied used same => ?_
  have scopes : applied.scope = .endpoint := (scope_of_key same).trans scope
  cases limited : bypassReason config request skip with
  | some reason => simp [limitsOf, limited] at used
  | none =>
    rw [limitsOf_limited limited] at used
    rw [endpointUse_limited limited] at apart
    rcases List.mem_cons.mp used with rfl | others
    · cases scopes
    · rcases List.mem_append.mp others with by_user | by_endpoint
      · obtain ⟨userId, _, rfl⟩ := Option.map_eq_some_iff.mp (Option.mem_toList.mp by_user)
        cases scopes
      · obtain ⟨chosen, found, rfl⟩ :=
          Option.map_eq_some_iff.mp (Option.mem_toList.mp by_endpoint)
        exact (apart _ (Option.mem_map_of_mem _ found)).resolve_left fun differ => differ same

theorem check_endpointVerdict (limited : bypassReason config request skip = none)
    (chosen : endpointPolicy conversions config request = some policy) :
    endpointVerdict (.decided (service.check conversions config request none skip now).2.1
      (service.check conversions config request none skip now).2.2) =
      some (verdict service.limiters (endpointLimitOf request policy) now) := by
  simp only [endpointVerdict, (check_limits limited).1, applicableLimits, otherLimits,
    endpointLimit, chosen, Option.map_some, Option.toList_some, userLimit]
  cases nonempty request.userId <;> rfl

/- A check that both services make: the verdict under the policy is the same, and they
   keep agreeing. -/
theorem Agree.check (agree : Agree conversions config policy past service other)
    (apart : ∀ use ∈ endpointUse conversions config (.check request none skip now),
      use.1 = policy ∧ Apart conversions config policy use.2 past)
    (e : RateLimitCall × RateLimitAnswer) :
    Agree conversions config policy (e :: past)
      (service.check conversions config request none skip now).1
      (other.check conversions config request none skip now).1 := by
  intro limit scope only
  have before := agree limit scope only.earlier
  by_cases used : ∃ use ∈ endpointUse conversions config (.check request none skip now),
      use.2 = limiterKey limit
  · obtain ⟨use, uses, same_key⟩ := used
    obtain ⟨rfl, _⟩ := apart use uses
    cases limited : bypassReason config request skip with
    | some reason => simp [endpointUse, limited] at uses
    | none =>
      rw [endpointUse_limited limited] at uses
      obtain ⟨chosen, found, rfl⟩ := Option.map_eq_some_iff.mp uses
      have member : endpointLimitOf request chosen ∈ applicableLimits conversions config request
          none := by
        simp [applicableLimits, otherLimits, endpointLimit, found, endpointLimitOf]
      have charged := check_charges service now limited member
      have charged' := check_charges other now limited member
      rw [← same_key] at before ⊢
      exact (charged.trans (before.consume now).2).trans charged'.symm
  · have elsewhere : ∀ use ∈ endpointUse conversions config (.check request none skip now),
        use.2 ≠ limiterKey limit ∨ use.1.algorithm ≠ policy.algorithm := fun use uses =>
      Or.inl fun same => used ⟨use, uses, same⟩
    exact ((check_apart scope elsewhere).trans before).trans (check_apart scope elsewhere).symm

/- A check that only the first service makes, because it selects another policy. -/
theorem Agree.removed (agree : Agree conversions config policy past service other)
    (answer : RateLimitAnswer)
    (elsewhere : ¬ SelectsNoOther conversions config policy (.check request none skip now)) :
    Agree conversions config policy ((.check request none skip now, answer) :: past)
      (service.check conversions config request none skip now).1 other := by
  intro limit scope only
  have untouched : ∀ use ∈ endpointUse conversions config (.check request none skip now),
      use.2 ≠ limiterKey limit ∨ use.1.algorithm ≠ policy.algorithm := by
    intro use uses
    by_cases algorithm : use.1.algorithm = policy.algorithm
    · have different : use.1 ≠ policy := by
        intro same
        apply elsewhere
        intro use' uses'
        rw [Option.mem_unique uses' uses, same]
      exact Or.inl (only _ List.mem_cons_self use uses different algorithm)
    · exact Or.inr algorithm
  exact (check_apart scope untouched).trans (agree limit scope only.earlier)

theorem Agree.cleanup (agree : Agree conversions config policy past service other)
    (e : RateLimitCall × RateLimitAnswer) :
    Agree conversions config policy (e :: past) (service.cleanup now) (other.cleanup now) :=
  fun limit scope only => (agree limit scope only.earlier).prune _

/- The verdict under the policy that a check selects comes from its own key. -/
theorem Agree.verdict (agree : Agree conversions config policy past service other)
    (apart : ∀ use ∈ endpointUse conversions config (.check request none skip now),
      Apart conversions config use.1 use.2 past)
    (selected : Selects conversions config policy (.check request none skip now)) :
    endpointVerdict (.decided (service.check conversions config request none skip now).2.1
      (service.check conversions config request none skip now).2.2) =
      endpointVerdict (.decided (other.check conversions config request none skip now).2.1
        (other.check conversions config request none skip now).2.2) := by
  obtain ⟨use, uses, rfl⟩ := selected
  have only := apart use uses
  cases limited : bypassReason config request skip with
  | some reason => simp [endpointUse, limited] at uses
  | none =>
    rw [endpointUse_limited limited] at uses
    obtain ⟨chosen, found, rfl⟩ := Option.map_eq_some_iff.mp uses
    have same := (agree (endpointLimitOf request chosen) rfl only).consume now
    rw [check_endpointVerdict limited found, check_endpointVerdict limited found]
    exact congrArg some same.1

end Steps

section Runs
variable (conversions : Conversions) (config : RateLimitConfiguration)

/-- Removing the requests that select another endpoint policy leaves a run in which the
    policy gives the same verdicts. -/
def EndpointsIndependent
    (permit : Machine.Permit RateLimitService RateLimitCall RateLimitAnswer) : Prop :=
  ∀ policy past service, (machine conversions config).Run permit past service →
    ∃ past' service', (machine conversions config).Run Machine.anything past' service' ∧
      past'.map Prod.fst = (past.map Prod.fst).filter
        (fun call => SelectsNoOther conversions config policy call) ∧
      verdictsOf conversions config policy past' = verdictsOf conversions config policy past

variable {conversions config}

theorem not_selected_of_other {policy : EndpointRateLimitPolicy} {call : RateLimitCall}
    (elsewhere : ¬ SelectsNoOther conversions config policy call) :
    ¬ Selects conversions config policy call := by
  intro selected
  obtain ⟨use, uses, same⟩ := selected
  apply elsewhere
  intro use' uses'
  rw [Option.mem_unique uses' uses, same]

theorem verdictsOf_cons {policy : EndpointRateLimitPolicy} {call : RateLimitCall}
    {answer answer' : RateLimitAnswer} {past past' : List (RateLimitCall × RateLimitAnswer)}
    (before : verdictsOf conversions config policy past' =
      verdictsOf conversions config policy past)
    (same : Selects conversions config policy call →
      endpointVerdict answer' = endpointVerdict answer) :
    verdictsOf conversions config policy ((call, answer') :: past') =
      verdictsOf conversions config policy ((call, answer) :: past) := by
  unfold verdictsOf at before ⊢
  by_cases selected : Selects conversions config policy call
  · simp only [List.filter_cons, selected, decide_true, if_true, List.map_cons, before,
      same selected]
  · rw [List.filter_cons_of_neg (by simpa using selected),
      List.filter_cons_of_neg (by simpa using selected)]
    exact before

/- The run without the other requests, next to the run with them. -/
theorem removal_follows (policy : EndpointRateLimitPolicy)
    {past : List (RateLimitCall × RateLimitAnswer)} {service : RateLimitService}
    (run : (machine conversions config).Run (KeysNotShared conversions config) past service) :
    ∃ past' service', (machine conversions config).Run Machine.anything past' service' ∧
      past'.map Prod.fst = (past.map Prod.fst).filter
        (fun call => SelectsNoOther conversions config policy call) ∧
      verdictsOf conversions config policy past' = verdictsOf conversions config policy past ∧
      Agree conversions config policy past service service' := by
  refine run.invariant (fun past service => ∃ past' service',
    (machine conversions config).Run Machine.anything past' service' ∧
      past'.map Prod.fst = (past.map Prod.fst).filter
        (fun call => SelectsNoOther conversions config policy call) ∧
      verdictsOf conversions config policy past' = verdictsOf conversions config policy past ∧
      Agree conversions config policy past service service')
    ⟨[], _, Machine.Run.start, rfl, rfl, fun _ _ _ => SameAt.refl _⟩ ?_
  intro past service call service' answer _ known ok moved
  obtain ⟨past', other, run', inputs, verdicts, agree⟩ := known
  cases call with
  | cleanup now =>
    obtain ⟨rfl, rfl⟩ := Prod.mk.inj (Option.some.inj moved)
    have cleaned : (machine conversions config).step other (.cleanup now) =
        some (other.cleanup now, .cleaned) := rfl
    refine ⟨_, _, run'.next trivial cleaned, ?_, ?_, agree.cleanup _⟩
    · simp [inputs, SelectsNoOther, endpointUse]
    · exact verdictsOf_cons verdicts fun _ => rfl
  | check request override skip now =>
    obtain ⟨rfl, apart⟩ := ok
    obtain ⟨rfl, rfl⟩ := Prod.mk.inj (Option.some.inj moved)
    by_cases kept : SelectsNoOther conversions config policy (.check request none skip now)
    · have checked : (machine conversions config).step other (.check request none skip now) =
          some ((other.check conversions config request none skip now).1, _) := rfl
      refine ⟨_, _, run'.next trivial checked, ?_, ?_, agree.check ?_ _⟩
      · simp [inputs, kept]
      · exact verdictsOf_cons verdicts fun selected => (agree.verdict apart selected).symm
      · intro use uses
        exact ⟨kept use uses, kept use uses ▸ apart use uses⟩
    · refine ⟨past', other, run', ?_, ?_, agree.removed _ kept⟩
      · simp [inputs, kept]
      · rw [verdicts]
        unfold verdictsOf
        simp [not_selected_of_other kept]

end Runs

/-- Two policies for one path, told apart by the method alone. -/
def oneGetTwoPosts : Conversions := plainConversions (some (.object
  [("GET /x", .object [("limit", .number 1), ("windowMs", .number 60000)]),
    ("POST /x", .object [("limit", .number 2), ("windowMs", .number 60000)])]))

def endpointsOnly : Environment := fun name => [("RATE_LIMIT_ENDPOINTS_JSON",
  "\x7b\"GET /x\":\x7b\"limit\":1,\"windowMs\":60000\x7d," ++
    "\"POST /x\":\x7b\"limit\":2,\"windowMs\":60000\x7d\x7d")].lookup name

def callOf (method url userId : String) : RateLimitCall :=
  .check (requestOf method url userId) none false 0

/-- Endpoint policies are independent in every run in which no request meets, on the key of
its endpoint policy, an earlier request of a different policy with the same algorithm. -/
theorem endpoints_independent_of_apart (conversions : Conversions) (env : Environment) :
    EndpointsIndependent conversions (loadRateLimitConfiguration conversions env)
      (KeysNotShared conversions (loadRateLimitConfiguration conversions env)) := by
  intro policy past service run
  obtain ⟨past', service', run', inputs, verdicts, _⟩ := removal_follows policy run
  exact ⟨past', service', run', inputs, verdicts⟩

/- One user reads, another posts in between: the posts leave the verdicts on the reads. -/
theorem endpoints_independent_for_two_users :
    let config := loadRateLimitConfiguration oneGetTwoPosts endpointsOnly
    let M := machine oneGetTwoPosts config
    ∃ policy ∈ config.endpoints, ∃ past service past' service',
      M.Run (KeysNotShared oneGetTwoPosts config) past service ∧
      M.Run Machine.anything past' service' ∧
      past.length = 3 ∧ (verdictsOf oneGetTwoPosts config policy past).length = 2 ∧
      past'.map Prod.fst = [callOf "GET" "/x" "alice", callOf "GET" "/x" "alice"] ∧
      verdictsOf oneGetTwoPosts config policy past' =
        verdictsOf oneGetTwoPosts config policy past := by
  intro config M
  have seen : ∃ policy ∈ config.endpoints,
      ∃ moment ∈ M.play (KeysNotShared oneGetTwoPosts config) ⟨[], M.init⟩
        [callOf "GET" "/x" "alice", callOf "POST" "/x" "bob", callOf "GET" "/x" "alice"],
      moment.past.length = 3 ∧ (verdictsOf oneGetTwoPosts config policy moment.past).length = 2 ∧
      (moment.past.map Prod.fst).filter
        (fun call => SelectsNoOther oneGetTwoPosts config policy call) =
          [callOf "GET" "/x" "alice", callOf "GET" "/x" "alice"] := by decide +kernel
  obtain ⟨policy, found, moment, played, all_three, both, kept⟩ := seen
  obtain ⟨past', service', run', inputs, verdicts⟩ := endpoints_independent_of_apart oneGetTwoPosts
    endpointsOnly policy moment.past moment.state (Machine.play_run played)
  exact ⟨policy, found, moment.past, moment.state, past', service', Machine.play_run played, run',
    all_three, both, inputs.trans kept, verdicts⟩

/- A request of the other policy gives the policy a new bucket, and with it a verdict that
   it would not have given. -/
theorem other_method_refills : ¬ ∀ conversions env, EndpointsIndependent conversions
    (loadRateLimitConfiguration conversions env) NoOverrides := by
  intro independent
  let config := loadRateLimitConfiguration oneGetTwoPosts endpointsOnly
  let M := machine oneGetTwoPosts config
  have seen : ∃ policy ∈ config.endpoints,
      ∃ moment ∈ M.play NoOverrides ⟨[], M.init⟩
        [callOf "GET" "/x" "alice", callOf "POST" "/x" "alice", callOf "GET" "/x" "alice"],
      ∃ alone ∈ M.play Machine.anything ⟨[], M.init⟩ ((moment.past.map Prod.fst).filter
        (fun call => SelectsNoOther oneGetTwoPosts config policy call)).reverse,
      verdictsOf oneGetTwoPosts config policy alone.past ≠
        verdictsOf oneGetTwoPosts config policy moment.past := by decide +kernel
  obtain ⟨policy, _, moment, played, alone, replayed, differ⟩ := seen
  obtain ⟨past', service', run', inputs, verdicts⟩ := independent oneGetTwoPosts endpointsOnly
    policy moment.past moment.state (Machine.play_run played)
  have again := run'.replays
  rw [List.map_reverse, inputs] at again
  have same : alone = ⟨past', service'⟩ := Option.mem_unique replayed again
  rw [same] at differ
  exact differ verdicts

end AstraPort.RateLimit.RateLimitService
