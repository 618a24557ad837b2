import AstraPort.RateLimit.Configuration

/- RateLimitService: which policies apply to a request, and the decision they lead to. A
   check reads the clock once. -/
namespace AstraPort.RateLimit

inductive HeaderValue where
  | one (value : String)
  | many (values : List String)
  deriving DecidableEq

/-- What the service reads of an express request; a missing route, socket or user is a
    missing path, address or id. -/
structure RateLimitRequest where
  method : Option String
  ip : Option String
  url : Option String
  originalUrl : Option String
  routePath : Option String
  remoteAddress : Option String
  userId : Option String
  headers : List (String × HeaderValue)
  deriving DecidableEq

inductive RateLimitScope where
  | ip
  | user
  | endpoint
  deriving DecidableEq

def RateLimitScope.text : RateLimitScope → String
  | .ip => "ip"
  | .user => "user"
  | .endpoint => "endpoint"

def RateLimitAlgorithm.text : RateLimitAlgorithm → String
  | .tokenBucket => "token-bucket"
  | .slidingWindow => "sliding-window"

/-- A policy to apply: the scope it is reported under and its key within that scope. -/
structure ApplicableLimit where
  scope : RateLimitScope
  key : String
  policy : UsablePolicy
  deriving DecidableEq

structure AppliedLimit where
  scope : RateLimitScope
  algorithm : RateLimitAlgorithm
  result : RateLimitResult
  deriving DecidableEq

structure RateLimitDecision extends RateLimitResult where
  bypassed : Bool
  scope : Option RateLimitScope
  algorithm : Option RateLimitAlgorithm
  deriving DecidableEq

structure ScopeCounts where
  allowed : Nat
  rejected : Nat
  deriving DecidableEq

structure RateLimitAnalytics where
  total : Nat
  allowed : Nat
  rejected : Nat
  bypassed : Nat
  byScope : RateLimitScope → ScopeCounts

/-- A call of incrementCounter on the metrics service. -/
structure CounterIncrement where
  name : String
  labels : List (String × String)
  deriving DecidableEq

/-- The two limiters side by side. -/
structure Limiters where
  tokenBucket : TokenBucketRateLimiter
  slidingWindow : SlidingWindowRateLimiter

namespace Limiters

def empty : Limiters := ⟨InsertionMap.empty, InsertionMap.empty⟩

def consume (limiters : Limiters) (key : String) (policy : RateLimitPolicy) (now : Rat) :
    Limiters × RateLimitResult :=
  match policy.algorithm with
  | .slidingWindow =>
    let consumed := SlidingWindowRateLimiter.consume limiters.slidingWindow key policy now
    ({ limiters with slidingWindow := consumed.1 }, consumed.2)
  | .tokenBucket =>
    let consumed := TokenBucketRateLimiter.consume limiters.tokenBucket key policy now
    ({ limiters with tokenBucket := consumed.1 }, consumed.2)

def prune (limiters : Limiters) (olderThan : Rat) : Limiters where
  tokenBucket := TokenBucketRateLimiter.prune limiters.tokenBucket olderThan
  slidingWindow := SlidingWindowRateLimiter.prune limiters.slidingWindow olderThan

def size (limiters : Limiters) : Nat := limiters.tokenBucket.size + limiters.slidingWindow.size

end Limiters

structure RateLimitService where
  limiters : Limiters
  analytics : RateLimitAnalytics
  increments : List CounterIncrement
  activeKeysMetric : Nat

def maxIdleMs : Rat := 60 * 60 * 1000

inductive RateLimitCall where
  | check (request : RateLimitRequest) (override : Option RateLimitOverride) (skip : Bool)
      (now : Rat)
  | cleanup (now : Rat)
  deriving DecidableEq

def RateLimitCall.now : RateLimitCall → Rat
  | .check _ _ _ now => now
  | .cleanup now => now

/-- A check shows its decision, and the verdicts it was made from. -/
inductive RateLimitAnswer where
  | decided (limits : List AppliedLimit) (decision : RateLimitDecision)
  | cleaned
  deriving DecidableEq

namespace RateLimitService

def initial : RateLimitService where
  limiters := Limiters.empty
  analytics := ⟨0, 0, 0, 0, fun _ => ⟨0, 0⟩⟩
  increments := []
  activeKeysMetric := 0

section Requests
variable (conversions : Conversions) (config : RateLimitConfiguration)

def nonempty (value : Option String) : Option String := value.filter fun text => decide (text ≠ "")

def requestPath (request : RateLimitRequest) : String :=
  match nonempty request.routePath with
  | some routePath => routePath
  | none => textBefore '?' ((request.originalUrl.or request.url).getD "/")

def clientIp (request : RateLimitRequest) : String :=
  (request.ip.or request.remoteAddress).getD "unknown"

def header (request : RateLimitRequest) (name : String) : Option String :=
  match request.headers.lookup name with
  | none => none
  | some (.one value) => some value
  | some (.many values) => values.head?

def isWhitelisted (ip : String) (userId apiKey : Option String) : Bool :=
  config.whitelist.ips.contains ip || userId.any config.whitelist.userIds.contains ||
    apiKey.any config.whitelist.apiKeys.contains

def selects (policy : EndpointRateLimitPolicy) (method path : String) : Bool :=
  let otherMethod := (nonempty policy.method).any fun only => decide (only ≠ method)
  if otherMethod then false
  else if policy.path.toList.getLast? = some '*' then policy.path.toList.dropLast.isPrefixOf path.toList
  else path = policy.path

def endpointPolicy (request : RateLimitRequest) : Option EndpointRateLimitPolicy :=
  let method := conversions.toUpperCase (request.method.getD "GET")
  let path := requestPath request
  config.endpoints.find? fun policy => selects policy method path

def overridePolicy (request : RateLimitRequest) (override : RateLimitOverride) :
    EndpointRateLimitPolicy :=
  { usablePolicy override.limit override.windowMs (override.algorithm.getD .tokenBucket) with
    path := requestPath request, method := none, scope := override.scope.getD .user }

def endpointKey (request : RateLimitRequest) (policy : EndpointRateLimitPolicy) : String :=
  let identity := match policy.scope, nonempty request.userId with
    | .user, some userId => "user:" ++ userId
    | _, _ => "ip:" ++ clientIp request
  "endpoint:" ++ requestPath request ++ ":" ++ identity

def ipLimit (request : RateLimitRequest) : ApplicableLimit :=
  ⟨.ip, "ip:" ++ clientIp request, config.ip⟩

def userLimit (request : RateLimitRequest) : Option ApplicableLimit :=
  (nonempty request.userId).map fun userId => ⟨.user, "user:" ++ userId, config.user⟩

def endpointLimit (request : RateLimitRequest) (override : Option RateLimitOverride) :
    Option ApplicableLimit :=
  let policy := match override with
    | some override => some (overridePolicy request override)
    | none => endpointPolicy conversions config request
  policy.map fun policy => ⟨.endpoint, endpointKey request policy, policy.toUsablePolicy⟩

def otherLimits (request : RateLimitRequest) (override : Option RateLimitOverride) :
    List ApplicableLimit :=
  (userLimit config request).toList ++ (endpointLimit conversions config request override).toList

/-- The policies of a request that is not bypassed, in the order they are applied. -/
def applicableLimits (request : RateLimitRequest) (override : Option RateLimitOverride) :
    List ApplicableLimit :=
  ipLimit config request :: otherLimits conversions config request override

/-- Why a request is let through unlimited, if it is. -/
def bypassReason (request : RateLimitRequest) (skip : Bool) : Option String :=
  if !config.enabled || skip then some "configuration"
  else if isWhitelisted config (clientIp request) request.userId (header request "x-api-key") then
    some "whitelist"
  else none

end Requests

def limiterKey (limit : ApplicableLimit) : String := limit.scope.text ++ ":" ++ limit.key

def countScope (analytics : RateLimitAnalytics) (scope : RateLimitScope) (allowed : Bool) :
    RateLimitAnalytics :=
  let counts := analytics.byScope scope
  let counted : ScopeCounts := if allowed then { counts with allowed := counts.allowed + 1 }
    else { counts with rejected := counts.rejected + 1 }
  { analytics with byScope := fun other => if other = scope then counted else analytics.byScope other }

def apply (service : RateLimitService) (limit : ApplicableLimit) (now : Rat) :
    RateLimitService × AppliedLimit :=
  let algorithm := limit.policy.algorithm
  let consumed := service.limiters.consume (limiterKey limit) limit.policy.toRateLimitPolicy now
  let allowed := consumed.2.allowed
  let outcome := if allowed then "allowed" else "rejected"
  let checked : CounterIncrement := ⟨"rate_limit_checks_total",
    [("scope", limit.scope.text), ("algorithm", algorithm.text), ("outcome", outcome)]⟩
  let exceeded : List CounterIncrement := if allowed then []
    else [⟨"rate_limit_exceeded_total", [("scope", limit.scope.text)]⟩]
  ({ service with limiters := consumed.1,
                  analytics := countScope service.analytics limit.scope allowed,
                  increments := service.increments ++ checked :: exceeded },
    ⟨limit.scope, algorithm, consumed.2⟩)

def applyAll (service : RateLimitService) (now : Rat) :
    List ApplicableLimit → RateLimitService × List AppliedLimit
  | [] => (service, [])
  | limit :: rest =>
    let applied := service.apply limit now
    let others := applied.1.applyAll now rest
    (others.1, applied.2 :: others.2)

/-- The limit with the smallest share left, the first of several. -/
def mostRestrictive (first : AppliedLimit) (rest : List AppliedLimit) : AppliedLimit :=
  rest.foldl (fun selected candidate =>
    if candidate.result.remaining / candidate.result.limit <
        selected.result.remaining / selected.result.limit then candidate else selected) first

def firstDenied (limits : List AppliedLimit) : Option AppliedLimit :=
  limits.find? fun limit => !limit.result.allowed

def bypass (service : RateLimitService) (reason : String) (now : Rat) :
    RateLimitService × RateLimitDecision :=
  ({ service with
      analytics := { service.analytics with bypassed := service.analytics.bypassed + 1 },
      increments := service.increments ++ [⟨"rate_limit_bypassed_total", [("reason", reason)]⟩] },
    { allowed := true, bypassed := true, limit := 0, remaining := 0, resetAt := now,
      retryAfterMs := 0, scope := none, algorithm := none })

def countTotal (service : RateLimitService) : RateLimitService :=
  { service with analytics := { service.analytics with total := service.analytics.total + 1 } }

def countOutcome (service : RateLimitService) (rejected : Bool) : RateLimitService :=
  let analytics := service.analytics
  { service with
    analytics := if rejected then { analytics with rejected := analytics.rejected + 1 }
      else { analytics with allowed := analytics.allowed + 1 },
    activeKeysMetric := service.limiters.size }

section Calls
variable (conversions : Conversions) (config : RateLimitConfiguration)

def check (service : RateLimitService) (request : RateLimitRequest)
    (override : Option RateLimitOverride) (skip : Bool) (now : Rat) :
    RateLimitService × List AppliedLimit × RateLimitDecision :=
  let service := service.countTotal
  match bypassReason config request skip with
  | some reason =>
    let bypassed := service.bypass reason now
    (bypassed.1, [], bypassed.2)
  | none =>
    let byIp := service.apply (ipLimit config request) now
    let others := byIp.1.applyAll now (otherLimits conversions config request override)
    let limits := byIp.2 :: others.2
    let denied := firstDenied limits
    let selected := denied.getD (mostRestrictive byIp.2 others.2)
    (others.1.countOutcome denied.isSome, limits,
      { selected.result with
        bypassed := false, scope := selected.scope, algorithm := selected.algorithm })

/-- The timer of onModuleInit. -/
def cleanup (service : RateLimitService) (now : Rat) : RateLimitService :=
  let limiters := service.limiters.prune (now - maxIdleMs)
  { service with limiters := limiters, activeKeysMetric := limiters.size }

def step (service : RateLimitService) :
    RateLimitCall → Option (RateLimitService × RateLimitAnswer)
  | .check request override skip now =>
    let checked := service.check conversions config request override skip now
    some (checked.1, .decided checked.2.1 checked.2.2)
  | .cleanup now => some (service.cleanup now, .cleaned)

def machine : Machine RateLimitService RateLimitCall RateLimitAnswer :=
  ⟨initial, step conversions config⟩

end Calls

/-- The seconds that setHeaders and the exception put into Retry-After. -/
def retryAfterSeconds (decision : RateLimitDecision) : Rat :=
  max 1 ⌈decision.retryAfterMs / 1000⌉

end RateLimitService

/-- The conversions on plain numerals, ASCII letters and one JSON text, for fixed runs. -/
def plainConversions (parsed : Option JsonValue) : Conversions where
  number
    | some (.number value) => some value
    | some (.string text) =>
      if text.toList.all Char.isDigit then
        some (text.toList.foldl (fun n c => n * 10 + (c.toNat - 48)) 0 : Nat)
      else none
    | _ => none
  parse _ := parsed
  toUpperCase text := String.ofList (text.toList.map Char.toUpper)
  toLowerCase text := String.ofList (text.toList.map Char.toLower)

def requestOf (method url userId : String) : RateLimitRequest where
  method := some method
  ip := some "203.0.113.10"
  url := some url
  originalUrl := none
  routePath := none
  remoteAddress := none
  userId := some userId
  headers := []

end AstraPort.RateLimit
