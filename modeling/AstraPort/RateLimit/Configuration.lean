import AstraPort.Foundation.Text
import AstraPort.RateLimit.Algorithms

/- loadRateLimitConfiguration. Whatever the environment says, every policy it yields admits
   a positive whole number of requests in a positive whole number of milliseconds. -/
namespace AstraPort.RateLimit

def PositiveInteger := { x : Rat // (∃ n : Nat, x = n) ∧ 1 ≤ x }
  deriving DecidableEq

/-- Whether an endpoint policy counts requests by address or by user. -/
inductive IdentityScope where
  | ip
  | user
  deriving DecidableEq

structure EndpointRateLimitPolicy extends UsablePolicy where
  path : String
  method : Option String
  scope : IdentityScope
  deriving DecidableEq

structure Whitelist where
  ips : List String
  userIds : List String
  apiKeys : List String
  deriving DecidableEq

structure RateLimitConfiguration where
  enabled : Bool
  failOpen : Bool
  ip : UsablePolicy
  user : UsablePolicy
  endpoints : List EndpointRateLimitPolicy
  whitelist : Whitelist
  deriving DecidableEq

/-- What a handler declares for itself; its numbers are positive like configured ones. -/
structure RateLimitOverride where
  limit : PositiveInteger
  windowMs : PositiveInteger
  algorithm : Option RateLimitAlgorithm
  scope : Option IdentityScope
  deriving DecidableEq

/-- A parsed JSON value; the entries of an object in the order of Object.entries. -/
inductive JsonValue where
  | null
  | boolean (value : Bool)
  | number (value : Rat)
  | string (text : String)
  | array (items : List JsonValue)
  | object (entries : List (String × JsonValue))

/-- The conversions of the language that the configuration goes through: Number (none for
    what is no finite number; it is applied to undefined too), JSON.parse (none where it
    throws) and the two case mappings. -/
structure Conversions where
  number : Option JsonValue → Option Rat
  parse : String → Option JsonValue
  toUpperCase : String → String
  toLowerCase : String → String

abbrev Environment := String → Option String

def usablePolicy (limit windowMs : PositiveInteger) (algorithm : RateLimitAlgorithm) :
    UsablePolicy where
  limit := limit.val
  windowMs := windowMs.val
  algorithm := algorithm
  whole_requests := limit.property.1
  some_request := limit.property.2
  some_time := windowMs.property.2

/-- Number.isInteger(parsed) && parsed > 0. -/
def asPositiveInteger (parsed : Option Rat) : Option PositiveInteger :=
  match parsed with
  | none => none
  | some x =>
    if valid : x.isInt = true ∧ 0 < x then
      have whole : (x.num : Rat) = x := Rat.eq_num_of_isInt valid.1 ▸ rfl
      have positive : 0 < x.num := Rat.num_pos.mpr valid.2
      some ⟨x, ⟨x.num.toNat, by
        rw [← Int.cast_natCast, Int.toNat_of_nonneg positive.le]
        exact whole.symm⟩, by
        rw [← whole]
        exact_mod_cast positive⟩
    else none

def positiveWhole (n : Nat) (positive : 0 < n) : PositiveInteger :=
  ⟨n, ⟨n, rfl⟩, by exact_mod_cast positive⟩

def defaultWindowMs : PositiveInteger := positiveWhole 60000 (by decide)

section Loading
variable (conversions : Conversions)

def positiveInteger (value : Option String) (fallback : PositiveInteger) : PositiveInteger :=
  match value with
  | none => fallback
  | some text =>
    if trim text = "" then fallback
    else (asPositiveInteger (conversions.number (some (.string text)))).getD fallback

def booleanValue (value : Option String) (fallback : Bool) : Bool :=
  match value with
  | none => fallback
  | some text => conversions.toLowerCase (trim text) ∉ ["false", "0", "no", "off"]

def algorithmName (text : String) : Option RateLimitAlgorithm :=
  if text = "sliding-window" then some .slidingWindow
  else if text = "token-bucket" then some .tokenBucket
  else none

def algorithmValue (value : Option JsonValue) (fallback : RateLimitAlgorithm) :
    RateLimitAlgorithm :=
  match value with
  | some (.string text) => (algorithmName text).getD fallback
  | _ => fallback

def stringSet (value : Option String) : List String :=
  ((splitOnChar ',' (value.getD "")).map trim).filter fun item => decide (item ≠ "")

def isLetter (c : Char) : Bool := ('a' ≤ c ∧ c ≤ 'z') ∨ ('A' ≤ c ∧ c ≤ 'Z')

/-- The match of /^([A-Za-z]+)\s+(.+)$/ : letters, blanks, and a rest of one line. -/
def matchSelector (key : List Char) : Option (List Char × List Char) :=
  let letters := key.takeWhile isLetter
  let path := (key.dropWhile isLetter).dropWhile isBlank
  if letters ≠ [] ∧ (key.dropWhile isLetter).head?.any isBlank ∧ path ≠ [] ∧
      ¬ path.any isLineTerminator then some (letters, path)
  else none

def parseEndpointKey (key : String) : Option String × String :=
  match matchSelector (trimChars key.toList) with
  | none => (none, trim key)
  | some (letters, path) =>
    (some (conversions.toUpperCase (String.ofList letters)), trim (String.ofList path))

def field (entries : List (String × JsonValue)) (name : String) : Option JsonValue :=
  entries.lookup name

def endpointScope : Option JsonValue → IdentityScope
  | some (.string text) => if text = "ip" then .ip else .user
  | _ => .user

/-- One entry of the map; what is no usable policy is left out. -/
def parseEndpointPolicy (entry : String × JsonValue) : Option EndpointRateLimitPolicy :=
  match entry.2 with
  | .object candidate =>
    match asPositiveInteger (conversions.number (field candidate "limit")),
      asPositiveInteger (conversions.number (field candidate "windowMs")) with
    | some limit, some windowMs =>
      let selector := parseEndpointKey conversions entry.1
      some { usablePolicy limit windowMs
               (algorithmValue (field candidate "algorithm") .tokenBucket) with
             path := selector.2, method := selector.1,
             scope := endpointScope (field candidate "scope") }
    | _, _ => none
  | _ => none

def parseEndpointPolicies (raw : Option String) : List EndpointRateLimitPolicy :=
  match raw with
  | none => []
  | some text =>
    if text = "" then []
    else match conversions.parse text with
      | some (.object entries) => entries.filterMap (parseEndpointPolicy conversions)
      | _ => []

def policyFromEnvironment (env : Environment) (name : String) (limit windowMs : PositiveInteger)
    (algorithm : RateLimitAlgorithm) : UsablePolicy :=
  usablePolicy (positiveInteger conversions (env ("RATE_LIMIT_" ++ name ++ "_LIMIT")) limit)
    (positiveInteger conversions (env ("RATE_LIMIT_" ++ name ++ "_WINDOW_MS")) windowMs)
    (algorithmValue ((env ("RATE_LIMIT_" ++ name ++ "_ALGORITHM")).map JsonValue.string) algorithm)

def loadRateLimitConfiguration (env : Environment) : RateLimitConfiguration where
  enabled := booleanValue conversions (env "RATE_LIMIT_ENABLED") true
  failOpen := booleanValue conversions (env "RATE_LIMIT_FAIL_OPEN") true
  ip := policyFromEnvironment conversions env "IP" (positiveWhole 100 (by decide)) defaultWindowMs
    .tokenBucket
  user := policyFromEnvironment conversions env "USER" (positiveWhole 300 (by decide))
    defaultWindowMs .slidingWindow
  endpoints := parseEndpointPolicies conversions (env "RATE_LIMIT_ENDPOINTS_JSON")
  whitelist :=
    { ips := stringSet (env "RATE_LIMIT_WHITELIST_IPS"),
      userIds := stringSet (env "RATE_LIMIT_WHITELIST_USER_IDS"),
      apiKeys := stringSet (env "RATE_LIMIT_WHITELIST_API_KEYS") }

end Loading
end AstraPort.RateLimit
