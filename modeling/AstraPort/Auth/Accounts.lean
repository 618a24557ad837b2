import AstraPort.Auth.Service

/- AuthService as its callers see it: register, validateCredentials, login, socialLogin,
   refreshTokens and logout, each run to its end, and a user's status changed by an
   administrator. The guard of the login route puts the validated user into the request, and
   the handler takes it from there, so other calls may come between the two. -/
namespace AstraPort.Auth

structure RegisterDto where
  email : String
  password : String
  role : Option UserRole
  deriving DecidableEq

structure SocialLoginDto where
  provider : String
  idToken : String
  deriving DecidableEq

/-- What an identity token claims about its holder. -/
structure GooglePayload where
  sub : Option String
  email : Option String
  emailVerified : Option Bool
  deriving DecidableEq

/-- The answer of verifyIdToken: a thrown error, or a ticket with or without a payload. -/
abbrev GoogleTicket := Option (Option GooglePayload)

/-- Random values for a row that may be created: its uuid, a password, a salt. -/
structure NewAccount where
  id : String
  password : String
  salt : String
  deriving DecidableEq

inductive AccountCall where
  | register (dto : RegisterDto) (id salt : String)
  | validateCredentials (request : Nat) (email password : String)
  | login (request : Nat) (random : Randomness)
  | socialLogin (dto : SocialLoginDto) (ticket : GoogleTicket) (account : NewAccount)
      (random : Randomness)
  | refreshTokens (userId refreshToken : String) (random : Randomness)
  | logout (userId accessToken : String)
  | changeStatus (userId : String) (status : UserStatus)
  deriving DecidableEq

structure TimedAccount where
  now : Nat
  call : AccountCall
  deriving DecidableEq

inductive AccountAnswer where
  | registered (user : AuthUser)
  | validated (user : Option AuthUser)
  | issued (payload : JwtPayload) (tokens : TokenPair)
  | loggedOut
  | statusChanged
  | threw (thrown : Thrown)
  deriving DecidableEq

/-- The service, and the user each login request carries from its guard to its handler. -/
structure AccountService where
  auth : AuthService
  requests : InsertionMap Nat AuthUser

namespace AuthService

/-- userRepo.update on one row. -/
def updateUser (service : AuthService) (userId : String) (change : User → User) : AuthService :=
  match service.users.get userId with
  | some user => { service with users := service.users.set userId (change user) }
  | none => service

def findUser (service : AuthService) (wanted : User → Bool) : Option User :=
  service.users.values.find? wanted

/-- userRepo.save of a new row: ids and email addresses are unique. -/
def insertUser (service : AuthService) (row : User) : Except Thrown AuthService :=
  if (service.findUser fun user => decide (user.id = row.id ∨ user.email = row.email)).isSome then
    .error (.error "duplicate key value violates unique constraint")
  else .ok { service with users := service.users.set row.id row }

/-- userRepo.create: columns that are not given take their defaults. -/
def newUser (id email passwordHash : String) (social : Option (String × String))
    (role : UserRole) : User where
  id := id
  email := email
  passwordHash := passwordHash
  socialProvider := social.map Prod.fst
  socialProviderId := social.map Prod.snd
  role := role
  status := .active
  refreshTokenHash := none
  apiKeyHash := none
  apiKeyPrefix := none

def googleProvider : String := "google"

/-- A present text that is not empty. -/
def truthy (text : Option String) : Option String := text.filter fun text => decide (text ≠ "")

def notActive : Thrown := .unauthorized "User account is not active"

/-- The subject and the verified email address an identity token stands for. -/
def googleIdentity (clientId : Option String) (dto : SocialLoginDto) (ticket : GoogleTicket) :
    Except Thrown (String × String) :=
  if dto.provider ≠ googleProvider then
    .error (.unauthorized "Unsupported social login provider")
  else if truthy clientId = none then .error (.unauthorized "Google login is not configured")
  else match ticket with
    | none => .error (.unauthorized "Invalid Google ID token")
    | some payload =>
      match payload.bind fun p => truthy p.sub, payload.bind fun p => truthy p.email,
        payload.bind GooglePayload.emailVerified with
      | some sub, some email, some true => .ok (sub, email)
      | _, _, _ => .error (.unauthorized "Google account email is not verified")

section Libraries
variable (hashService : HashService) (jwtService : JwtService)

def register (service : AuthService) (dto : RegisterDto) (id salt : String) :
    AuthService × Except Thrown AuthUser :=
  match service.findUser fun user => decide (user.email = dto.email) with
  | some _ => (service, .error (.conflict "Email already in use"))
  | none =>
    let user := newUser id dto.email (hashService.hash salt dto.password) none (dto.role.getD .user)
    match service.insertUser user with
    | .error thrown => (service, .error thrown)
    | .ok service => (service, .ok (toAuthUser user))

def validateCredentials (service : AuthService) (email password : String) : Option AuthUser :=
  match service.findUser fun user => decide (user.email = email) with
  | none => none
  | some user =>
    if user.status ≠ .active then none
    else if hashService.compare password user.passwordHash then some (toAuthUser user) else none

/-- Claims of the access token a login signs. -/
def payloadOf (user : AuthUser) (random : Randomness) : JwtPayload :=
  ⟨user.id, user.email, user.role, random.jti⟩

def login (service : AuthService) (user : AuthUser) (random : Randomness) (now : Nat) :
    AuthService × JwtPayload × TokenPair :=
  let issue := issue jwtService user random none now
  (service.updateRefreshTokenHash user.id
    (some (hashService.hash random.salt issue.tokens.refreshToken)),
    payloadOf user random, issue.tokens)

/-- The row a verified identity signs in to: already linked, found by its email address and
    linked now, or created. -/
def socialUser (service : AuthService) (provider sub email : String) (account : NewAccount) :
    AuthService × Except Thrown User :=
  match service.findUser fun user =>
    decide (user.socialProvider = some provider ∧ user.socialProviderId = some sub) with
  | some user => (service, .ok user)
  | none =>
    match service.findUser fun user => decide (user.email = email) with
    | some user =>
      if user.status ≠ .active then (service, .error notActive)
      else
        let link := fun user : User =>
          { user with socialProvider := some provider, socialProviderId := some sub }
        (service.updateUser user.id link, .ok user)
    | none =>
      let passwordHash := hashService.hash account.salt account.password
      let user := newUser account.id email passwordHash (some (provider, sub)) .user
      match service.insertUser user with
      | .error thrown => (service, .error thrown)
      | .ok service => (service, .ok user)

def socialLogin (clientId : Option String) (service : AuthService) (dto : SocialLoginDto)
    (ticket : GoogleTicket) (account : NewAccount) (random : Randomness) (now : Nat) :
    AuthService × Except Thrown (JwtPayload × TokenPair) :=
  match googleIdentity clientId dto ticket with
  | .error thrown => (service, .error thrown)
  | .ok (sub, email) =>
    match service.socialUser hashService dto.provider sub email account with
    | (service, .error thrown) => (service, .error thrown)
    | (service, .ok user) =>
      if user.status ≠ .active then (service, .error notActive)
      else
        let signedIn := service.login hashService jwtService (toAuthUser user) random now
        (signedIn.1, .ok signedIn.2)

/-- The row whose stored hash a presented refresh token matches. -/
def redeemed (service : AuthService) (userId refreshToken : String) : Option User :=
  (service.users.get userId).filter fun user =>
    match truthy user.refreshTokenHash with
    | some hashed => hashService.compare refreshToken hashed
    | none => false

def refreshTokens (service : AuthService) (userId refreshToken : String) (random : Randomness)
    (now : Nat) : AuthService × Except Thrown (JwtPayload × TokenPair) :=
  match service.redeemed hashService userId refreshToken with
  | none => (service, .error (.unauthorized "Refresh token invalid or expired"))
  | some user =>
    let signedIn := (service.updateRefreshTokenHash user.id none).login hashService jwtService
      (toAuthUser user) random now
    (signedIn.1, .ok signedIn.2)

def logout (service : AuthService) (userId accessToken : String) : AuthService :=
  let service := match logoutStage jwtService userId accessToken with
    | .revoke _ jti expiresAt => (service.revoke jti expiresAt).1
    | _ => service
  service.updateRefreshTokenHash userId none

end Libraries
end AuthService

namespace AccountService
open AuthService

/-- The users table as it is found. -/
def initial (rows : List User) : AccountService where
  auth := { users := rows.foldl (fun users row => users.set row.id row) InsertionMap.empty,
            revokedTokens := [], tasks := InsertionMap.empty }
  requests := InsertionMap.empty

def answering {Value : Type} (answer : Value → AccountAnswer) :
    Except Thrown Value → AccountAnswer
  | .ok value => answer value
  | .error thrown => .threw thrown

def issuedAnswer (issued : JwtPayload × TokenPair) : AccountAnswer := .issued issued.1 issued.2

section Libraries
variable (hashService : HashService) (jwtService : JwtService) (clientId : Option String)

/-- A handler runs once, and only for a request its guard has let through. -/
def step (service : AccountService) (timed : TimedAccount) :
    Option (AccountService × AccountAnswer) :=
  match timed.call with
  | .register dto id salt =>
    let done := service.auth.register hashService dto id salt
    some ({ service with auth := done.1 }, answering .registered done.2)
  | .validateCredentials request email password =>
    let user := service.auth.validateCredentials hashService email password
    let requests := match user with
      | some user => service.requests.set request user
      | none => service.requests
    some ({ service with requests := requests }, .validated user)
  | .login request random =>
    match service.requests.get request with
    | none => none
    | some user =>
      let done := service.auth.login hashService jwtService user random timed.now
      some (⟨done.1, service.requests.delete request⟩, issuedAnswer done.2)
  | .socialLogin dto ticket account random =>
    let done := service.auth.socialLogin hashService jwtService clientId dto ticket account random
      timed.now
    some ({ service with auth := done.1 }, answering issuedAnswer done.2)
  | .refreshTokens userId refreshToken random =>
    let done := service.auth.refreshTokens hashService jwtService userId refreshToken random
      timed.now
    some ({ service with auth := done.1 }, answering issuedAnswer done.2)
  | .logout userId accessToken =>
    some ({ service with auth := service.auth.logout jwtService userId accessToken }, .loggedOut)
  | .changeStatus userId status =>
    some ({ service with auth := service.auth.updateUser userId fun user =>
      { user with status := status } }, .statusChanged)

def machine (rows : List User) : Machine AccountService TimedAccount AccountAnswer :=
  ⟨initial rows, step hashService jwtService clientId⟩

end Libraries
end AccountService

namespace AuthService

/-- What authorization goes by: the role and the status in a user's row. -/
def standing (service : AuthService) (userId : String) : Option (UserRole × UserStatus) :=
  (service.users.get userId).map fun user => (user.role, user.status)

def IsActive (service : AuthService) (userId : String) : Prop :=
  ∃ role, service.standing userId = some (role, .active)

/-- Rows stand under their ids. -/
def Keyed (service : AuthService) : Prop :=
  ∀ id user, service.users.get id = some user → user.id = id

/-- No row has that id or that email address. -/
def Free (service : AuthService) (id email : String) : Prop :=
  service.findUser (fun user => decide (user.id = id ∨ user.email = email)) = none

instance (service : AuthService) (id email : String) : Decidable (service.Free id email) :=
  inferInstanceAs (Decidable (_ = _))

section Rows
variable {service : AuthService}

theorem standing_of {userId : String} {user : User} (found : service.users.get userId = some user) :
    service.standing userId = some (user.role, user.status) := by simp [standing, found]

theorem isActive_of {userId : String} {user : User} (found : service.users.get userId = some user) :
    service.IsActive userId ↔ user.status = .active := by
  rw [IsActive, standing_of found]
  simp

theorem updateUser_get (userId other : String) (change : User → User) :
    (service.updateUser userId change).users.get other =
      if other = userId then (service.users.get userId).map change
      else service.users.get other := by
  unfold updateUser
  cases found : service.users.get userId with
  | none =>
    by_cases same : other = userId
    · rw [same, if_pos rfl, found]
      rfl
    · rw [if_neg same]
  | some user =>
    rw [InsertionMap.get_set]
    rfl

theorem updateRefreshTokenHash_eq (userId : String) (hashed : Option String) :
    service.updateRefreshTokenHash userId hashed =
      service.updateUser userId fun user => { user with refreshTokenHash := hashed } := rfl

/- Writing other columns leaves everybody's standing. -/
theorem updateUser_standing {change : User → User} (userId : String)
    (same : ∀ user, (change user).role = user.role ∧ (change user).status = user.status)
    (other : String) :
    (service.updateUser userId change).standing other = service.standing other := by
  rw [standing, updateUser_get]
  split
  · rename_i here
    rw [here, standing, Option.map_map]
    congr 1
    funext user
    simp [same]
  · rfl

@[simp] theorem updateRefreshTokenHash_standing (userId : String) (hashed : Option String)
    (other : String) :
    (service.updateRefreshTokenHash userId hashed).standing other = service.standing other := by
  rw [updateRefreshTokenHash_eq]
  apply updateUser_standing
  exact fun _ => ⟨rfl, rfl⟩

theorem Keyed.updateUser (keyed : service.Keyed) (userId : String) {change : User → User}
    (same : ∀ user, (change user).id = user.id) : (service.updateUser userId change).Keyed := by
  intro id user found
  rw [updateUser_get] at found
  split at found
  · rename_i here
    obtain ⟨old, held, rfl⟩ := Option.map_eq_some_iff.mp found
    rw [same, here, keyed userId old held]
  · exact keyed id user found

theorem Keyed.updateRefreshTokenHash (keyed : service.Keyed) (userId : String)
    (hashed : Option String) : (service.updateRefreshTokenHash userId hashed).Keyed := by
  rw [updateRefreshTokenHash_eq]
  exact keyed.updateUser userId fun _ => rfl

theorem Keyed.found (keyed : service.Keyed) {wanted : User → Bool} {user : User}
    (found : service.findUser wanted = some user) :
    service.users.get user.id = some user ∧ wanted user = true := by
  refine ⟨?_, List.find?_some found⟩
  obtain ⟨id, held⟩ := (InsertionMap.mem_values _).mp (List.mem_of_find?_eq_some found)
  rwa [keyed id user held]

theorem Free.absent (keyed : service.Keyed) {id email : String} (free : service.Free id email) :
    service.users.get id = none := by
  cases found : service.users.get id with
  | none => rfl
  | some user =>
    have member := (InsertionMap.mem_values _).mpr ⟨id, found⟩
    have clash := List.find?_eq_none.mp free user member
    simp [keyed id user found] at clash

theorem insertUser_cases (service : AuthService) (row : User) :
    (service.Free row.id row.email ∧
      service.insertUser row = .ok { service with users := service.users.set row.id row }) ∨
    (¬ service.Free row.id row.email ∧ ∃ thrown, service.insertUser row = .error thrown) := by
  unfold insertUser Free
  cases service.findUser fun user => decide (user.id = row.id ∨ user.email = row.email) with
  | none => exact Or.inl ⟨rfl, rfl⟩
  | some user => exact Or.inr ⟨nofun, _, rfl⟩

theorem inserted_standing (row : User) (other : String) :
    AuthService.standing { service with users := service.users.set row.id row } other =
      if other = row.id then some (row.role, row.status) else service.standing other := by
  rw [standing, InsertionMap.get_set]
  split <;> rfl

theorem Keyed.inserted (keyed : service.Keyed) (row : User) :
    AuthService.Keyed { service with users := service.users.set row.id row } := by
  exact InsertionMap.get_set_all rfl keyed

end Rows

/-- The standing of a row that was added, and everybody else's as it was. -/
def Added (service after : AuthService) (id : String) (role : UserRole) : Prop :=
  service.users.get id = none ∧ ∀ other, after.standing other =
    if other = id then some (role, .active) else service.standing other

/-- How a social login finds its row. -/
inductive SocialRow (service after : AuthService) (user : User) : Prop where
  | held (found : service.users.get user.id = some user)
      (same : ∀ other, after.standing other = service.standing other)
  | created (ordinary : user.role = .user) (active : user.status = .active)
      (added : Added service after user.id .user)

section Calls
variable {hashService : HashService} {jwtService : JwtService} {clientId : Option String}
  {service : AuthService}

theorem socialUser_cases (keyed : service.Keyed) {provider sub email : String}
    {account : NewAccount} {after : AuthService} {result : Except Thrown User}
    (called : service.socialUser hashService provider sub email account = (after, result)) :
    after.Keyed ∧ match result with
      | .ok user => SocialRow service after user
      | .error _ => after = service := by
  unfold socialUser at called
  split at called
  · rename_i user found
    obtain ⟨rfl, rfl⟩ := Prod.mk.inj called
    exact ⟨keyed, .held (keyed.found found).1 fun _ => rfl⟩
  · split at called
    · rename_i user found
      split at called
      · obtain ⟨rfl, rfl⟩ := Prod.mk.inj called
        exact ⟨keyed, rfl⟩
      · obtain ⟨rfl, rfl⟩ := Prod.mk.inj called
        exact ⟨keyed.updateUser _ fun _ => rfl,
          .held (keyed.found found).1 (updateUser_standing _ fun _ => ⟨rfl, rfl⟩)⟩
    · rcases insertUser_cases service (newUser account.id email
        (hashService.hash account.salt account.password) (some (provider, sub)) .user) with
        ⟨free, inserted⟩ | ⟨_, thrown, refused⟩
      · simp only [inserted] at called
        obtain ⟨rfl, rfl⟩ := Prod.mk.inj called
        exact ⟨keyed.inserted _, .created rfl rfl ⟨free.absent keyed, inserted_standing _⟩⟩
      · simp only [refused] at called
        obtain ⟨rfl, rfl⟩ := Prod.mk.inj called
        exact ⟨keyed, rfl⟩

theorem redeemed_some {userId refreshToken : String} {user : User}
    (found : service.redeemed hashService userId refreshToken = some user) :
    service.users.get userId = some user := (Option.filter_eq_some_iff.mp found).1

theorem validateCredentials_some (keyed : service.Keyed) {email password : String}
    {user : AuthUser} (valid : service.validateCredentials hashService email password = some user) :
    ∃ row, service.users.get user.id = some row ∧ row.status = .active ∧ user = toAuthUser row := by
  unfold validateCredentials at valid
  split at valid
  · cases valid
  · rename_i row found
    split at valid
    · cases valid
    · rename_i active
      split at valid
      · obtain rfl := Option.some.inj valid
        exact ⟨row, (keyed.found found).1, not_not.mp active, rfl⟩
      · cases valid

theorem login_standing (user : AuthUser) (random : Randomness) (now : Nat) (other : String) :
    (service.login hashService jwtService user random now).1.standing other =
      service.standing other := updateRefreshTokenHash_standing _ _ _

theorem Keyed.login (keyed : service.Keyed) (user : AuthUser) (random : Randomness) (now : Nat) :
    (service.login hashService jwtService user random now).1.Keyed :=
  keyed.updateRefreshTokenHash _ _

/- A login with nothing in between goes through the turns of the interleaved machine. -/
theorem login_turns (service : AuthService) (task : Nat) (user : AuthUser) (random : Randomness)
    (now : Nat) :
    let issue := issue jwtService user random none now
    let hashing := service.turn hashService jwtService task random now (.hash issue)
    let done := service.login hashService jwtService user random now
    hashing.1.tasks.get task =
        some (.store issue (hashService.hash random.salt issue.tokens.refreshToken)) ∧
      (hashing.1.turn hashService jwtService task random now
        (.store issue (hashService.hash random.salt issue.tokens.refreshToken))).1.users =
          done.1.users ∧
      finish issue = .loggedIn done.2.2 := by
  refine ⟨InsertionMap.get_set_self _ _ _, ?_, rfl⟩
  simp only [turn, atStage, withoutTask, login, updateRefreshTokenHash, AuthService.issue]
  cases service.users.get user.id <;> rfl

end Calls
end AuthService

namespace AccountService
open AuthService

/-- Everything a call can do to the standing of users and to the requests under way. -/
inductive Move (hashService : HashService) (service : AccountService) :
    AccountCall → AccountService → AccountAnswer → Prop where
  | registered {after : AuthService} (dto : RegisterDto) (id salt : String)
      (free : service.auth.Free id dto.email)
      (added : Added service.auth after id (dto.role.getD .user)) :
      Move hashService service (.register dto id salt) ⟨after, service.requests⟩
        (.registered ⟨id, dto.email, dto.role.getD .user⟩)
  | validated (request : Nat) (email password : String) {row : User}
      (found : service.auth.users.get row.id = some row) (active : row.status = .active) :
      Move hashService service (.validateCredentials request email password)
        ⟨service.auth, service.requests.set request (toAuthUser row)⟩
        (.validated (some (toAuthUser row)))
  | loggedIn {after : AuthService} {request : Nat} {user : AuthUser} (random : Randomness)
      (pending : service.requests.get request = some user)
      (same : ∀ other, after.standing other = service.auth.standing other) (tokens : TokenPair) :
      Move hashService service (.login request random) ⟨after, service.requests.delete request⟩
        (.issued (payloadOf user random) tokens)
  | signedIn {after : AuthService} (dto : SocialLoginDto) (ticket : GoogleTicket)
      (account : NewAccount) (random : Randomness) {user : User} (active : user.status = .active)
      (row : SocialRow service.auth after user) (tokens : TokenPair) :
      Move hashService service (.socialLogin dto ticket account random)
        ⟨after, service.requests⟩ (.issued (payloadOf (toAuthUser user) random) tokens)
  | refreshed {after : AuthService} {userId refreshToken : String} (random : Randomness)
      {user : User} (matched : service.auth.redeemed hashService userId refreshToken = some user)
      (same : ∀ other, after.standing other = service.auth.standing other) (tokens : TokenPair) :
      Move hashService service (.refreshTokens userId refreshToken random)
        ⟨after, service.requests⟩ (.issued (payloadOf (toAuthUser user) random) tokens)
  | statusChanged {after : AuthService} (userId : String) (status : UserStatus)
      (changed : ∀ other, after.standing other = if other = userId then
        (service.auth.standing userId).map fun old => (old.1, status)
        else service.auth.standing other) :
      Move hashService service (.changeStatus userId status) ⟨after, service.requests⟩
        .statusChanged
  | quiet {after : AuthService} {call : AccountCall} {answer : AccountAnswer}
      (same : ∀ other, after.standing other = service.auth.standing other)
      (silent : ∀ payload tokens, answer ≠ .issued payload tokens)
      (unregistered : ∀ dto id salt, call = .register dto id salt →
        ¬ service.auth.Free id dto.email)
      (handled : ∀ request random, call ≠ .login request random)
      (refused : ∀ userId refreshToken random, call = .refreshTokens userId refreshToken random →
        service.auth.redeemed hashService userId refreshToken = none) :
      Move hashService service call ⟨after, service.requests⟩ answer

section Inversion
variable {hashService : HashService} {jwtService : JwtService} {clientId : Option String}
  {service after : AccountService} {answer : AccountAnswer}

theorem register_moves (keyed : service.auth.Keyed) (dto : RegisterDto) (id salt : String) :
    let done := service.auth.register hashService dto id salt
    done.1.Keyed ∧ Move hashService service (.register dto id salt) ⟨done.1, service.requests⟩
      (answering .registered done.2) := by
  have taken (answer : AccountAnswer) (silent : ∀ payload tokens, answer ≠ .issued payload tokens)
      (clash : ¬ service.auth.Free id dto.email) :
      service.auth.Keyed ∧ Move hashService service (.register dto id salt) service answer := by
    refine ⟨keyed, .quiet (fun _ => rfl) silent ?_ (by simp) (by simp)⟩
    rintro _ _ _ ⟨⟩
    exact clash
  simp only [register]
  split
  · rename_i user found
    refine taken _ (by simp [answering]) fun free => ?_
    have known := keyed.found found
    have clash := List.find?_eq_none.mp free user (List.mem_of_find?_eq_some found)
    simp [of_decide_eq_true known.2] at clash
  · rcases insertUser_cases service.auth (newUser id dto.email
      (hashService.hash salt dto.password) none (dto.role.getD .user)) with
      ⟨free, inserted⟩ | ⟨clash, thrown, refused⟩
    · simp only [inserted]
      exact ⟨keyed.inserted _, .registered dto id salt free
        ⟨free.absent keyed, inserted_standing _⟩⟩
    · simp only [refused]
      exact taken _ (by simp [answering]) clash

theorem socialLogin_moves (keyed : service.auth.Keyed) (dto : SocialLoginDto)
    (ticket : GoogleTicket) (account : NewAccount) (random : Randomness) (now : Nat) :
    let done := service.auth.socialLogin hashService jwtService clientId dto ticket account random
      now
    done.1.Keyed ∧ Move hashService service (.socialLogin dto ticket account random)
      ⟨done.1, service.requests⟩ (answering issuedAnswer done.2) := by
  have quiet {after : AuthService} (thrown : Thrown) (kept : after.Keyed)
      (same : ∀ other, after.standing other = service.auth.standing other) :
      after.Keyed ∧ Move hashService service (.socialLogin dto ticket account random)
        ⟨after, service.requests⟩ (.threw thrown) :=
    ⟨kept, .quiet same (by simp) (by simp) (by simp) (by simp)⟩
  simp only [socialLogin]
  split
  · exact quiet _ keyed fun _ => rfl
  · rename_i sub email verified
    cases called : service.auth.socialUser hashService dto.provider sub email account with
    | mk after result =>
      obtain ⟨kept, row⟩ := socialUser_cases keyed called
      cases result with
      | error thrown => exact quiet thrown kept fun _ => by rw [row]
      | ok user =>
        by_cases active : user.status = .active
        · simp only [active, ne_eq, not_true, ↓reduceIte]
          refine ⟨kept.login _ _ _, .signedIn dto ticket account random active ?_ _⟩
          cases row with
          | held found same =>
            exact .held found fun other => (login_standing _ _ _ other).trans (same other)
          | created ordinary active added =>
            exact .created ordinary active ⟨added.1, fun other =>
              (login_standing _ _ _ other).trans (added.2 other)⟩
        · simp only [active, ne_eq, not_false_eq_true, ↓reduceIte]
          cases row with
          | held found same => exact quiet _ kept same
          | created ordinary new added => exact absurd new active

theorem refreshTokens_moves (keyed : service.auth.Keyed) (userId refreshToken : String)
    (random : Randomness) (now : Nat) :
    let done := service.auth.refreshTokens hashService jwtService userId refreshToken random now
    done.1.Keyed ∧ Move hashService service (.refreshTokens userId refreshToken random)
      ⟨done.1, service.requests⟩ (answering issuedAnswer done.2) := by
  simp only [refreshTokens]
  cases matched : service.auth.redeemed hashService userId refreshToken with
  | none =>
    refine ⟨keyed, .quiet (fun _ => rfl) (by simp [answering]) (by simp) (by simp) ?_⟩
    rintro _ _ _ ⟨⟩
    exact matched
  | some user =>
    refine ⟨(keyed.updateRefreshTokenHash _ _).login _ _ _, .refreshed random matched ?_ _⟩
    intro other
    exact (login_standing _ _ _ other).trans (updateRefreshTokenHash_standing _ _ other)

theorem logout_standing (service : AuthService) (userId accessToken other : String) :
    (service.logout jwtService userId accessToken).standing other = service.standing other := by
  rw [logout, updateRefreshTokenHash_standing]
  split
  · simp only [revoke]
    split <;> rfl
  · rfl

theorem logout_keyed {service : AuthService} (keyed : service.Keyed) (userId accessToken : String) :
    (service.logout jwtService userId accessToken).Keyed := by
  refine Keyed.updateRefreshTokenHash ?_ _ _
  split
  · simp only [revoke]
    split <;> exact keyed
  · exact keyed

/- Inversion of a call; later proofs split on its moves and unfold nothing. -/
theorem step_moves (keyed : service.auth.Keyed) {timed : TimedAccount}
    (moved : step hashService jwtService clientId service timed = some (after, answer)) :
    after.auth.Keyed ∧ Move hashService service timed.call after answer := by
  obtain ⟨now, call⟩ := timed
  cases call with
  | register dto id salt =>
    obtain ⟨rfl, rfl⟩ := Prod.mk.inj (Option.some.inj moved)
    exact register_moves keyed dto id salt
  | validateCredentials request email password =>
    obtain ⟨rfl, rfl⟩ := Prod.mk.inj (Option.some.inj moved)
    refine ⟨keyed, ?_⟩
    dsimp only
    split
    · rename_i user valid
      obtain ⟨row, found, active, rfl⟩ := validateCredentials_some keyed valid
      rw [valid]
      exact .validated request email password found active
    · rename_i invalid
      rw [invalid]
      exact .quiet (fun _ => rfl) (by simp) (by simp) (by simp) (by simp)
  | login request random =>
    simp only [step] at moved
    split at moved
    · cases moved
    · rename_i user pending
      obtain ⟨rfl, rfl⟩ := Prod.mk.inj (Option.some.inj moved)
      exact ⟨keyed.login _ _ _, .loggedIn random pending (login_standing _ _ _) _⟩
  | socialLogin dto ticket account random =>
    obtain ⟨rfl, rfl⟩ := Prod.mk.inj (Option.some.inj moved)
    exact socialLogin_moves keyed dto ticket account random now
  | refreshTokens userId refreshToken random =>
    obtain ⟨rfl, rfl⟩ := Prod.mk.inj (Option.some.inj moved)
    exact refreshTokens_moves keyed userId refreshToken random now
  | logout userId accessToken =>
    obtain ⟨rfl, rfl⟩ := Prod.mk.inj (Option.some.inj moved)
    exact ⟨logout_keyed keyed _ _,
      .quiet (logout_standing _ _ _) (by simp) (by simp) (by simp) (by simp)⟩
  | changeStatus userId status =>
    obtain ⟨rfl, rfl⟩ := Prod.mk.inj (Option.some.inj moved)
    refine ⟨keyed.updateUser _ fun _ => rfl, .statusChanged userId status fun other => ?_⟩
    rw [standing, updateUser_get]
    split
    · simp only [standing, Option.map_map]
      rfl
    · rfl

end Inversion
end AccountService
end AstraPort.Auth
