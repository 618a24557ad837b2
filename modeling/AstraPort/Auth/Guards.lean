import AstraPort.Auth.LogoutFailures
import AstraPort.Auth.Standing
import AstraPort.Foundation.Text

/- JwtAuthGuard and RolesGuard, both registered for every route, and the handlers behind them.
   A request runs its guards one after the other and then its handler; other requests, and the
   calls of the public routes, come in between. -/
namespace AstraPort.Auth

/-- What Public and Roles attach to a handler or to its controller. -/
structure RouteMetadata where
  isPublic : Option Bool
  roles : Option (List UserRole)
  deriving DecidableEq

inductive Guard where
  | jwtAuth
  | roles
  deriving DecidableEq

/-- A handler, its controller, and the guards both of them name. -/
structure Route where
  handler : RouteMetadata
  controller : RouteMetadata
  guards : List Guard
  deriving DecidableEq

namespace Route

/-- Reflector.getAllAndOverride over the handler and its controller. -/
def getAllAndOverride {Value : Type} (route : Route) (key : RouteMetadata → Option Value) :
    Option Value := key route.handler <|> key route.controller

def isPublic (route : Route) : Bool := (route.getAllAndOverride RouteMetadata.isPublic).getD false

def requiredRoles (route : Route) : List UserRole :=
  (route.getAllAndOverride RouteMetadata.roles).getD []

/-- The guards of the module come first, then those of the controller and the handler. -/
def allGuards (route : Route) : List Guard := .jwtAuth :: .roles :: route.guards

end Route

/-- A handler of AuthController: both guards once more. -/
def authRoute (roles : Option (List UserRole)) : Route :=
  ⟨⟨none, roles⟩, ⟨none, none⟩, [.jwtAuth, .roles]⟩

/-- The handlers that write the blacklist, and any other. -/
inductive Handler where
  | logout
  | revoke (token : String)
  | other (route : Route)
  deriving DecidableEq

def Handler.route : Handler → Route
  | .logout => authRoute none
  | .revoke _ => authRoute (some [.admin])
  | .other route => route

/-- A request as it arrives: its Authorization header, and the handler it is routed to. -/
structure Arrival where
  authorization : Option String
  handler : Handler
  deriving DecidableEq

/-- replace(/^Bearer\s+/i, '') -/
def withoutScheme (header : String) : String :=
  let rest := header.toList.drop 6
  if (header.toList.take 6).map Char.toLower = "bearer".toList ∧ rest.head?.any isBlank then
    String.ofList (rest.dropWhile isBlank)
  else header

/-- The token a handler has blacklisted: logout reads the header itself. -/
def Arrival.withdraws (arrival : Arrival) : Option String :=
  match arrival.handler with
  | .logout => some (withoutScheme (arrival.authorization.getD ""))
  | .revoke token => some token
  | .other _ => none

/-- The header parser of the JWT strategy, and the library that signs and checks tokens. A
    token that is not accepted comes with a message. -/
structure TokenLibrary extends JwtService where
  bearer : Option String → Option String
  verify : String → (now : Nat) → Except String JwtPayload

/-- A signed token is accepted while the second has not come at which it expires, and decodes
    to its id and that second. -/
structure TokenLibrary.Documented (library : TokenLibrary) : Prop where
  verified : ∀ payload expiresIn issuedAt now,
    library.verify (library.sign payload expiresIn issuedAt) now =
      if now / 1000 < issuedAt / 1000 + expiresIn then .ok payload else .error "jwt expired"
  decoded : ∀ payload expiresIn issuedAt,
    library.decode (library.sign payload expiresIn issuedAt) =
      some ⟨some payload.jti, some (issuedAt / 1000 + expiresIn)⟩

inductive Refusal where
  | unauthorized (message : String)
  | forbidden (message : String)
  deriving DecidableEq

/-- A request under way, with the user a guard has put into it and the guards still to run. -/
structure PendingRequest extends Arrival where
  user : Option AuthUser
  guards : List Guard
  deriving DecidableEq

structure GuardedService where
  accounts : AccountService
  requests : InsertionMap Nat PendingRequest

/-- Calls of public routes, requests at their stages, and the purge of the blacklist. -/
inductive GuardedCall where
  | account (call : AccountCall)
  | arrive (request : Nat) (arrival : Arrival)
  | guard (request : Nat) (guard : Guard)
  | handle (request : Nat) (failures : RepositoryFailures)
  | purgeExpired
  deriving DecidableEq

structure TimedGuarded where
  now : Nat
  call : GuardedCall
  deriving DecidableEq

inductive GuardedAnswer where
  | account (answer : AccountAnswer)
  | arrived
  | passed
  | authenticated (user : AuthUser)
  | refused (refusal : Refusal)
  | handled (user : Option AuthUser) (result : Except Thrown Unit)
  | purged

abbrev GuardedHistory := List (TimedGuarded × GuardedAnswer)

namespace AuthService

def isRevoked (service : AuthService) (jti : String) : Bool :=
  0 < service.revokedTokens.countP fun record => record.jti = jti

def purgeExpired (service : AuthService) (now : Nat) : AuthService :=
  { service with
    revokedTokens := service.revokedTokens.filter fun record => !decide (record.expiresAt < now) }

end AuthService

def UserRole.text : UserRole → String
  | .admin => "admin"
  | .user => "user"
  | .readonly => "readonly"

namespace GuardedService

def withAuth (service : GuardedService) (auth : AuthService) : GuardedService :=
  ⟨⟨auth, service.accounts.requests⟩, service.requests⟩

def withRequests (service : GuardedService) (requests : InsertionMap Nat PendingRequest) :
    GuardedService := ⟨service.accounts, requests⟩

/-- A request behind a guard, with the user the guard found, if any. -/
def passOn (pending : PendingRequest) (user : Option AuthUser) (guards : List Guard) :
    PendingRequest := ⟨pending.toArrival, user <|> pending.user, guards⟩

@[simp] theorem passOn_toArrival (pending : PendingRequest) (user : Option AuthUser)
    (guards : List Guard) : (passOn pending user guards).toArrival = pending.toArrival := rfl

@[simp] theorem passOn_guards (pending : PendingRequest) (user : Option AuthUser)
    (guards : List Guard) : (passOn pending user guards).guards = guards := rfl

@[simp] theorem passOn_none (pending : PendingRequest) (guards : List Guard) :
    (passOn pending none guards).user = pending.user := rfl

@[simp] theorem passOn_some (pending : PendingRequest) (user : AuthUser) (guards : List Guard) :
    (passOn pending (some user) guards).user = some user := rfl

section Libraries
variable (hashService : HashService) (library : TokenLibrary) (clientId : Option String)

/-- JwtAuthGuard and the strategy it runs: the user to put into the request, if any. -/
def authenticate (service : AuthService) (arrival : Arrival) (now : Nat) :
    Except Refusal (Option AuthUser) :=
  if arrival.handler.route.isPublic then .ok none
  else match library.bearer arrival.authorization with
    | none => .error (.unauthorized "No auth token")
    | some token =>
      match library.verify token now with
      | .error message => .error (.unauthorized message)
      | .ok payload =>
        if payload.jti ≠ "" ∧ service.isRevoked payload.jti then
          .error (.unauthorized "Token has been revoked")
        else .ok (some ⟨payload.sub, payload.email, payload.role⟩)

/-- RolesGuard. -/
def checkRoles (pending : PendingRequest) : Except Refusal (Option AuthUser) :=
  let requiredRoles := pending.handler.route.requiredRoles
  if requiredRoles = [] then .ok none
  else match pending.user with
    | none => .error (.forbidden "No authenticated user found")
    | some user =>
      if user.role ∈ requiredRoles then .ok none
      else .error (.forbidden
        ("Requires one of: [" ++ ", ".intercalate (requiredRoles.map UserRole.text) ++ "]"))

def canActivate (service : AuthService) (pending : PendingRequest) (now : Nat) :
    Guard → Except Refusal (Option AuthUser)
  | .jwtAuth => authenticate library service pending.toArrival now
  | .roles => checkRoles pending

/-- The handler itself, with the user the request carries. -/
def run (service : AuthService) (pending : PendingRequest) (failures : RepositoryFailures) :
    AuthService × Except Thrown Unit :=
  match pending.handler with
  | .logout =>
    match pending.user with
    | some user => service.logoutCall library.toJwtService failures user.id
        (withoutScheme (pending.authorization.getD ""))
    | none => (service, .error .typeError)
  | .revoke token => service.revokeTokenCall library.toJwtService failures token
  | .other _ => (service, .ok ())

def initial (rows : List User) : GuardedService := ⟨AccountService.initial rows, InsertionMap.empty⟩

def guardStep (service : GuardedService) (request : Nat) (guard : Guard) (now : Nat) :
    Option (GuardedService × GuardedAnswer) :=
  match service.requests.get request with
  | none => none
  | some pending =>
    match pending.guards with
    | [] => none
    | next :: guards =>
      if next ≠ guard then none
      else match canActivate library service.accounts.auth pending now guard with
        | .error refusal =>
          some (service.withRequests (service.requests.delete request), .refused refusal)
        | .ok user =>
          some (service.withRequests (service.requests.set request (passOn pending user guards)),
            (user.map GuardedAnswer.authenticated).getD .passed)

def handleStep (service : GuardedService) (request : Nat) (failures : RepositoryFailures) :
    Option (GuardedService × GuardedAnswer) :=
  match service.requests.get request with
  | none => none
  | some pending =>
    if pending.guards ≠ [] then none
    else
      let done := run library service.accounts.auth pending failures
      some ((service.withAuth done.1).withRequests (service.requests.delete request),
        .handled pending.user done.2)

def step (service : GuardedService) (timed : TimedGuarded) :
    Option (GuardedService × GuardedAnswer) :=
  match timed.call with
  | .account call =>
    match call with
    | .logout _ _ => none
    | call => (AccountService.step hashService library.toJwtService clientId service.accounts
        ⟨timed.now, call⟩).map fun done => (⟨done.1, service.requests⟩, .account done.2)
  | .arrive request arrival =>
    if (service.requests.get request).isSome then none
    else
      let pending : PendingRequest := ⟨arrival, none, arrival.handler.route.allGuards⟩
      some (service.withRequests (service.requests.set request pending), .arrived)
  | .guard request guard => guardStep library service request guard timed.now
  | .handle request failures => handleStep library service request failures
  | .purgeExpired =>
    some (service.withAuth (service.accounts.auth.purgeExpired timed.now), .purged)

def machine (rows : List User) : Machine GuardedService TimedGuarded GuardedAnswer :=
  ⟨initial rows, step hashService library clientId⟩

end Libraries

section Inversion
variable {hashService : HashService} {library : TokenLibrary} {clientId : Option String}
  {service after : GuardedService} {answer : GuardedAnswer}

theorem account_cases {call : AccountCall} {now : Nat}
    (moved : step hashService library clientId service ⟨now, .account call⟩ = some (after, answer)) :
    (∀ userId accessToken, call ≠ .logout userId accessToken) ∧
      ∃ accounts given, AccountService.step hashService library.toJwtService clientId
          service.accounts ⟨now, call⟩ = some (accounts, given) ∧
        after = ⟨accounts, service.requests⟩ ∧ answer = .account given := by
  simp only [step] at moved
  split at moved
  · cases moved
  · rename_i call signedIn
    obtain ⟨done, stepped, shown⟩ := Option.map_eq_some_iff.mp moved
    obtain ⟨rfl, rfl⟩ := Prod.mk.inj shown
    exact ⟨signedIn, done.1, done.2, stepped, rfl, rfl⟩

theorem arrive_cases {request now : Nat} {arrival : Arrival}
    (moved : step hashService library clientId service ⟨now, .arrive request arrival⟩ =
      some (after, answer)) :
    service.requests.get request = none ∧
      after = service.withRequests (service.requests.set request
        ⟨arrival, none, arrival.handler.route.allGuards⟩) ∧ answer = .arrived := by
  simp only [step] at moved
  split at moved
  · cases moved
  · rename_i free
    obtain ⟨rfl, rfl⟩ := Prod.mk.inj (Option.some.inj moved)
    exact ⟨by simpa using free, rfl, rfl⟩

theorem arrives {request now : Nat} {arrival : Arrival}
    (free : service.requests.get request = none) :
    step hashService library clientId service ⟨now, .arrive request arrival⟩ =
      some (service.withRequests (service.requests.set request
        ⟨arrival, none, arrival.handler.route.allGuards⟩), .arrived) := by
  simp [step, free]

/- A guard takes the request out, or passes it on with the user it found. -/
theorem guard_cases {request now : Nat} {guard : Guard}
    (moved : step hashService library clientId service ⟨now, .guard request guard⟩ =
      some (after, answer)) :
    ∃ pending guards, service.requests.get request = some pending ∧
      pending.guards = guard :: guards ∧
      ((∃ refusal, canActivate library service.accounts.auth pending now guard = .error refusal ∧
          after = service.withRequests (service.requests.delete request) ∧
          answer = .refused refusal) ∨
        ∃ user, canActivate library service.accounts.auth pending now guard = .ok user ∧
          after = service.withRequests (service.requests.set request
            (passOn pending user guards)) ∧
          answer = (user.map GuardedAnswer.authenticated).getD .passed) := by
  simp only [step, guardStep] at moved
  split at moved
  · cases moved
  · rename_i pending found
    split at moved
    · cases moved
    · rename_i next guards left
      split at moved
      · cases moved
      · rename_i due
        obtain rfl := not_not.mp due
        refine ⟨pending, guards, found, left, ?_⟩
        split at moved
        · rename_i refusal refused
          obtain ⟨rfl, rfl⟩ := Prod.mk.inj (Option.some.inj moved)
          exact .inl ⟨refusal, refused, rfl, rfl⟩
        · rename_i user passed
          obtain ⟨rfl, rfl⟩ := Prod.mk.inj (Option.some.inj moved)
          exact .inr ⟨user, passed, rfl, rfl⟩

theorem guard_passes {request now : Nat} {guard : Guard} {pending : PendingRequest}
    {guards : List Guard} {user : Option AuthUser}
    (held : service.requests.get request = some pending)
    (due : pending.guards = guard :: guards)
    (passed : canActivate library service.accounts.auth pending now guard = .ok user) :
    step hashService library clientId service ⟨now, .guard request guard⟩ =
      some (service.withRequests (service.requests.set request (passOn pending user guards)),
        (user.map GuardedAnswer.authenticated).getD .passed) := by
  simp [step, guardStep, held, due, passed]

theorem handle_cases {request now : Nat} {failures : RepositoryFailures}
    (moved : step hashService library clientId service ⟨now, .handle request failures⟩ =
      some (after, answer)) :
    ∃ pending, service.requests.get request = some pending ∧ pending.guards = [] ∧
      after = (service.withAuth (run library service.accounts.auth pending failures).1).withRequests
        (service.requests.delete request) ∧
      answer = .handled pending.user (run library service.accounts.auth pending failures).2 := by
  simp only [step, handleStep] at moved
  split at moved
  · cases moved
  · rename_i pending found
    split at moved
    · cases moved
    · rename_i finished
      obtain ⟨rfl, rfl⟩ := Prod.mk.inj (Option.some.inj moved)
      exact ⟨pending, found, not_not.mp finished, rfl, rfl⟩

theorem handles {request now : Nat} {failures : RepositoryFailures} {pending : PendingRequest}
    (held : service.requests.get request = some pending) (finished : pending.guards = []) :
    step hashService library clientId service ⟨now, .handle request failures⟩ =
      some ((service.withAuth
          (run library service.accounts.auth pending failures).1).withRequests
        (service.requests.delete request),
        .handled pending.user (run library service.accounts.auth pending failures).2) := by
  simp [step, handleStep, held, finished, withAuth, withRequests]

theorem purge_cases {now : Nat}
    (moved : step hashService library clientId service ⟨now, .purgeExpired⟩ =
      some (after, answer)) :
    after = service.withAuth (service.accounts.auth.purgeExpired now) ∧ answer = .purged := by
  obtain ⟨rfl, rfl⟩ := Prod.mk.inj (Option.some.inj moved)
  exact ⟨rfl, rfl⟩

end Inversion
end GuardedService
end AstraPort.Auth
