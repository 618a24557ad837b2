import AstraPort.Foundation.Host
import AstraPort.Foundation.InsertionMap
import AstraPort.Foundation.Machine

/- AuthService: login, refreshTokens and logout as a machine over the rows of the users
   table. A call moves from await to await, so calls interleave at each of them. -/
namespace AstraPort.Auth

inductive UserRole where
  | admin
  | user
  | readonly
  deriving DecidableEq

inductive UserStatus where
  | active
  | inactive
  | suspended
  deriving DecidableEq

/-- A row of the users table. -/
structure User where
  id : String
  email : String
  passwordHash : String
  socialProvider : Option String
  socialProviderId : Option String
  role : UserRole
  status : UserStatus
  refreshTokenHash : Option String
  apiKeyHash : Option String
  apiKeyPrefix : Option String
  deriving DecidableEq

structure AuthUser where
  id : String
  email : String
  role : UserRole
  deriving DecidableEq

structure TokenPair where
  accessToken : String
  refreshToken : String
  deriving DecidableEq

structure RevokedToken where
  jti : String
  expiresAt : Nat
  deriving DecidableEq

/-- bcrypt with an ideal comparison; the salt of a hash comes with the call. -/
structure HashService where
  hash : (salt plain : String) → String
  compare : (plain hashed : String) → Bool
  ideal : ∀ salt plain other, compare plain (hash salt other) = true ↔ plain = other

structure JwtPayload where
  sub : String
  email : String
  role : UserRole
  jti : String
  deriving DecidableEq

/-- What logout reads of a decoded access token. -/
structure DecodedToken where
  jti : Option String
  exp : Option Nat
  deriving DecidableEq

structure JwtService where
  sign : JwtPayload → (expiresIn now : Nat) → String
  decode : String → Option DecodedToken

/-- A login in progress; inside refreshTokens it redeems the token presented there. -/
structure Issue where
  user : AuthUser
  tokens : TokenPair
  redeems : Option String
  deriving DecidableEq

/-- The await a call stands at. -/
inductive AuthStage where
  | readUser (userId refreshToken : String)
  | compare (user : User) (hashed refreshToken : String)
  | clear (user : User) (refreshToken : String)
  | hash (issue : Issue)
  | store (issue : Issue) (hashed : String)
  | revoke (userId jti : String) (expiresAt : Nat)
  | forget (userId : String)
  deriving DecidableEq

structure AuthService where
  users : InsertionMap String User
  revokedTokens : List RevokedToken
  tasks : InsertionMap Nat AuthStage

/-- Random values a step may use: an access token id, a refresh token, a salt. -/
structure Randomness where
  jti : String
  token : String
  salt : String
  deriving DecidableEq

inductive AuthCall where
  | login (task : Nat) (user : AuthUser) (random : Randomness)
  | refreshTokens (task : Nat) (userId refreshToken : String)
  | logout (task : Nat) (userId accessToken : String)
  | proceed (task : Nat) (random : Randomness)
  | reject (task : Nat) (message : String)
  deriving DecidableEq

def AuthCall.task : AuthCall → Nat
  | .login task _ _ => task
  | .refreshTokens task _ _ => task
  | .logout task _ _ => task
  | .proceed task _ => task
  | .reject task _ => task

structure TimedAuth where
  now : Nat
  call : AuthCall
  deriving DecidableEq

/-- What a step shows: an await passed, or the end of the call. -/
inductive AuthAnswer where
  | started
  | read
  | accepted (refreshToken : String)
  | cleared
  | hashed
  | revoked (written : Bool)
  | loggedIn (tokens : TokenPair)
  | refreshed (refreshToken : String) (tokens : TokenPair)
  | loggedOut (userId : String)
  | threw (thrown : Thrown)
  deriving DecidableEq

namespace AuthService

def accessTokenTtl : Nat := 15 * 60

/-- Nobody is logged in at the start. -/
def initial (rows : List User) : AuthService where
  users := rows.foldl (fun users row => users.set row.id { row with refreshTokenHash := none })
    InsertionMap.empty
  revokedTokens := []
  tasks := InsertionMap.empty

def toAuthUser (user : User) : AuthUser := ⟨user.id, user.email, user.role⟩

def atStage (service : AuthService) (task : Nat) (stage : AuthStage) : AuthService :=
  { service with tasks := service.tasks.set task stage }

def withoutTask (service : AuthService) (task : Nat) : AuthService :=
  { service with tasks := service.tasks.delete task }

/-- userRepo.update(userId, { refreshTokenHash }): nothing happens without the row. -/
def updateRefreshTokenHash (service : AuthService) (userId : String) (hashed : Option String) :
    AuthService :=
  match service.users.get userId with
  | some user =>
    let written := { user with refreshTokenHash := hashed }
    { service with users := service.users.set userId written }
  | none => service

def invalidRefreshToken : AuthAnswer :=
  .threw (.unauthorized "Refresh token invalid or expired")

/-- The blacklist has a unique index on the token id. -/
def revoke (service : AuthService) (jti : String) (expiresAt : Nat) : AuthService × Bool :=
  if service.revokedTokens.any fun record => record.jti = jti then (service, false)
  else ({ service with revokedTokens := ⟨jti, expiresAt⟩ :: service.revokedTokens }, true)

section Libraries
variable (hashService : HashService) (jwtService : JwtService)

/-- login up to its first await: both tokens are drawn at once. -/
def issue (user : AuthUser) (random : Randomness) (redeems : Option String) (now : Nat) : Issue :=
  let payload : JwtPayload := ⟨user.id, user.email, user.role, random.jti⟩
  ⟨user, ⟨jwtService.sign payload accessTokenTtl now, random.token⟩, redeems⟩

def finish (issue : Issue) : AuthAnswer :=
  match issue.redeems with
  | none => .loggedIn issue.tokens
  | some refreshToken => .refreshed refreshToken issue.tokens

/-- logout up to its first await: a token that names its id and expiry is revoked first. -/
def logoutStage (userId accessToken : String) : AuthStage :=
  match jwtService.decode accessToken with
  | some ⟨some jti, some exp⟩ =>
    if jti ≠ "" ∧ exp ≠ 0 then .revoke userId jti (exp * 1000) else .forget userId
  | _ => .forget userId

/-- From one await to the next. -/
def turn (service : AuthService) (task : Nat) (random : Randomness) (now : Nat) :
    AuthStage → AuthService × AuthAnswer
  | .readUser userId refreshToken =>
    match service.users.get userId with
    | none => (service.withoutTask task, invalidRefreshToken)
    | some user =>
      match user.refreshTokenHash.filter fun hashed => decide (hashed ≠ "") with
      | none => (service.withoutTask task, invalidRefreshToken)
      | some hashed => (service.atStage task (.compare user hashed refreshToken), .read)
  | .compare user hashed refreshToken =>
    if hashService.compare refreshToken hashed then
      (service.atStage task (.clear user refreshToken), .accepted refreshToken)
    else (service.withoutTask task, invalidRefreshToken)
  | .clear user refreshToken =>
    ((service.updateRefreshTokenHash user.id none).atStage task
      (.hash (issue jwtService (toAuthUser user) random (some refreshToken) now)), .cleared)
  | .hash issue =>
    (service.atStage task (.store issue (hashService.hash random.salt issue.tokens.refreshToken)),
      .hashed)
  | .store issue hashed =>
    ((service.updateRefreshTokenHash issue.user.id (some hashed)).withoutTask task, finish issue)
  | .revoke userId jti expiresAt =>
    let revoked := service.revoke jti expiresAt
    (revoked.1.atStage task (.forget userId), .revoked revoked.2)
  | .forget userId =>
    ((service.updateRefreshTokenHash userId none).withoutTask task, .loggedOut userId)

def enter (service : AuthService) (task : Nat) (stage : AuthStage) :
    Option (AuthService × AuthAnswer) :=
  if (service.tasks.get task).isSome then none else some (service.atStage task stage, .started)

def step (service : AuthService) (timed : TimedAuth) : Option (AuthService × AuthAnswer) :=
  match timed.call with
  | .login task user random =>
    service.enter task (.hash (issue jwtService user random none timed.now))
  | .refreshTokens task userId refreshToken => service.enter task (.readUser userId refreshToken)
  | .logout task userId accessToken => service.enter task (logoutStage jwtService userId accessToken)
  | .proceed task random =>
    (service.tasks.get task).map (service.turn hashService jwtService task random timed.now)
  | .reject task message =>
    -- logout catches what the blacklist throws
    match service.tasks.get task with
    | none => none
    | some (.revoke userId _ _) => some (service.atStage task (.forget userId), .revoked false)
    | some _ => some (service.withoutTask task, .threw (.error message))

def machine (rows : List User) : Machine AuthService TimedAuth AuthAnswer :=
  ⟨initial rows, step hashService jwtService⟩

end Libraries

/-- Everything a step can do. -/
inductive Move (hashService : HashService) (jwtService : JwtService) (service : AuthService)
    (now : Nat) : AuthCall → AuthService → AuthAnswer → Prop where
  | loggingIn {task : Nat} (user : AuthUser) (random : Randomness)
      (free : service.tasks.get task = none) :
      Move hashService jwtService service now (.login task user random)
        (service.atStage task (.hash (issue jwtService user random none now))) .started
  | refreshing {task : Nat} (userId refreshToken : String)
      (free : service.tasks.get task = none) :
      Move hashService jwtService service now (.refreshTokens task userId refreshToken)
        (service.atStage task (.readUser userId refreshToken)) .started
  | loggingOut {task : Nat} (userId accessToken : String) (free : service.tasks.get task = none) :
      Move hashService jwtService service now (.logout task userId accessToken)
        (service.atStage task (logoutStage jwtService userId accessToken)) .started
  | read {task : Nat} {random : Randomness} {userId refreshToken : String} {user : User}
      {hashed : String} (running : service.tasks.get task = some (.readUser userId refreshToken))
      (found : service.users.get userId = some user)
      (present : user.refreshTokenHash = some hashed) :
      Move hashService jwtService service now (.proceed task random)
        (service.atStage task (.compare user hashed refreshToken)) .read
  | accepted {task : Nat} {random : Randomness} {user : User} {hashed refreshToken : String}
      (running : service.tasks.get task = some (.compare user hashed refreshToken))
      (valid : hashService.compare refreshToken hashed = true) :
      Move hashService jwtService service now (.proceed task random)
        (service.atStage task (.clear user refreshToken)) (.accepted refreshToken)
  | cleared {task : Nat} {random : Randomness} {user : User} {refreshToken : String}
      (running : service.tasks.get task = some (.clear user refreshToken)) :
      Move hashService jwtService service now (.proceed task random)
        ((service.updateRefreshTokenHash user.id none).atStage task
          (.hash (issue jwtService (toAuthUser user) random (some refreshToken) now))) .cleared
  | hashed {task : Nat} {random : Randomness} {issue : Issue}
      (running : service.tasks.get task = some (.hash issue)) :
      Move hashService jwtService service now (.proceed task random)
        (service.atStage task
          (.store issue (hashService.hash random.salt issue.tokens.refreshToken))) .hashed
  | stored {task : Nat} {random : Randomness} {issue : Issue} {hashed : String}
      (running : service.tasks.get task = some (.store issue hashed)) :
      Move hashService jwtService service now (.proceed task random)
        ((service.updateRefreshTokenHash issue.user.id (some hashed)).withoutTask task)
        (finish issue)
  | revoking {call : AuthCall} {userId jti : String} {expiresAt : Nat}
      (running : service.tasks.get call.task = some (.revoke userId jti expiresAt))
      (revokedTokens : List RevokedToken) (written : Bool) :
      Move hashService jwtService service now call
        ({ service with revokedTokens := revokedTokens }.atStage call.task (.forget userId))
        (.revoked written)
  | forgot {task : Nat} {random : Randomness} {userId : String}
      (running : service.tasks.get task = some (.forget userId)) :
      Move hashService jwtService service now (.proceed task random)
        ((service.updateRefreshTokenHash userId none).withoutTask task) (.loggedOut userId)
  | ended {call : AuthCall} {stage : AuthStage}
      (running : service.tasks.get call.task = some stage) (thrown : Thrown) :
      Move hashService jwtService service now call (service.withoutTask call.task) (.threw thrown)

section Inversion
variable {hashService : HashService} {jwtService : JwtService} {service after : AuthService}
  {answer : AuthAnswer}

theorem enter_some {task : Nat} {stage : AuthStage}
    (entered : service.enter task stage = some (after, answer)) :
    service.tasks.get task = none ∧ after = service.atStage task stage ∧ answer = .started := by
  unfold enter at entered
  split at entered
  · cases entered
  · rename_i free
    obtain ⟨rfl, rfl⟩ := Prod.mk.inj (Option.some.inj entered)
    exact ⟨by simpa using free, rfl, rfl⟩

theorem turn_moves {task now : Nat} {random : Randomness} {stage : AuthStage}
    (running : service.tasks.get task = some stage)
    (turned : service.turn hashService jwtService task random now stage = (after, answer)) :
    Move hashService jwtService service now (.proceed task random) after answer := by
  cases stage with
  | readUser userId refreshToken =>
    simp only [turn] at turned
    split at turned
    · obtain ⟨rfl, rfl⟩ := Prod.mk.inj turned
      exact .ended running _
    · rename_i user found
      split at turned
      · obtain ⟨rfl, rfl⟩ := Prod.mk.inj turned
        exact .ended running _
      · rename_i hashed present
        obtain ⟨rfl, rfl⟩ := Prod.mk.inj turned
        exact .read running found (Option.filter_eq_some_iff.mp present).1
  | compare user hashed refreshToken =>
    simp only [turn] at turned
    split at turned
    · rename_i valid
      obtain ⟨rfl, rfl⟩ := Prod.mk.inj turned
      exact .accepted running valid
    · obtain ⟨rfl, rfl⟩ := Prod.mk.inj turned
      exact .ended running _
  | clear user refreshToken =>
    obtain ⟨rfl, rfl⟩ := Prod.mk.inj turned
    exact .cleared running
  | hash issue =>
    obtain ⟨rfl, rfl⟩ := Prod.mk.inj turned
    exact .hashed running
  | store issue hashed =>
    obtain ⟨rfl, rfl⟩ := Prod.mk.inj turned
    exact .stored running
  | revoke userId jti expiresAt =>
    simp only [turn, revoke] at turned
    split at turned
    · obtain ⟨rfl, rfl⟩ := Prod.mk.inj turned
      exact .revoking running service.revokedTokens false
    · obtain ⟨rfl, rfl⟩ := Prod.mk.inj turned
      exact .revoking running _ true
  | forget userId =>
    obtain ⟨rfl, rfl⟩ := Prod.mk.inj turned
    exact .forgot running

/- Inversion of a step; later proofs split on its moves and unfold nothing. -/
theorem step_moves {timed : TimedAuth}
    (moved : step hashService jwtService service timed = some (after, answer)) :
    Move hashService jwtService service timed.now timed.call after answer := by
  obtain ⟨now, call⟩ := timed
  cases call with
  | login task user random =>
    obtain ⟨free, rfl, rfl⟩ := enter_some moved
    exact .loggingIn user random free
  | refreshTokens task userId refreshToken =>
    obtain ⟨free, rfl, rfl⟩ := enter_some moved
    exact .refreshing userId refreshToken free
  | logout task userId accessToken =>
    obtain ⟨free, rfl, rfl⟩ := enter_some moved
    exact .loggingOut userId accessToken free
  | proceed task random =>
    obtain ⟨stage, running, turned⟩ := Option.map_eq_some_iff.mp moved
    exact turn_moves running turned
  | reject task message =>
    simp only [step] at moved
    split at moved
    · cases moved
    · rename_i userId jti expiresAt running
      obtain ⟨rfl, rfl⟩ := Prod.mk.inj (Option.some.inj moved)
      exact .revoking running service.revokedTokens false
    · rename_i stage _ running
      obtain ⟨rfl, rfl⟩ := Prod.mk.inj (Option.some.inj moved)
      exact .ended running _

end Inversion
end AuthService
end AstraPort.Auth
