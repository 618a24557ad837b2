import AstraPort.Auth.Guards

/- Who gets through to a handler, read off the history of exchanges: the bearer of a token that
   was issued, has not expired and has not been withdrawn, in a role the handler asks for. -/
namespace AstraPort.Auth

/-- An access token as a login or a refresh hands it out. -/
structure Issuance where
  issuedAt : Nat
  payload : JwtPayload
  accessToken : String

namespace Issuance

def user (issuance : Issuance) : AuthUser :=
  ⟨issuance.payload.sub, issuance.payload.email, issuance.payload.role⟩

/-- The second at which the token expires. -/
def expires (issuance : Issuance) : Nat := issuance.issuedAt / 1000 + AuthService.accessTokenTtl

end Issuance

def issuedBy : TimedGuarded × GuardedAnswer → Option Issuance
  | (⟨now, _⟩, .account (.issued payload tokens)) => some ⟨now, payload, tokens.accessToken⟩
  | _ => none

def issued (past : GuardedHistory) : List Issuance := past.filterMap issuedBy

def arrivalOf (request : Nat) (e : TimedGuarded × GuardedAnswer) : Option Arrival :=
  match e.1.call with
  | .arrive other arrival => if other = request then some arrival else none
  | _ => none

/-- The request that last arrived under a number. -/
def arrivedAs (past : GuardedHistory) (request : Nat) : Option Arrival :=
  past.findSome? (arrivalOf request)

/-- Random values a call draws. -/
def AccountCall.random : AccountCall → Option Randomness
  | .login _ random => some random
  | .socialLogin _ _ _ random => some random
  | .refreshTokens _ _ random => some random
  | _ => none

section Histories
variable (library : TokenLibrary)

/-- The token id a handler puts on the blacklist, unless the row cannot be saved. -/
def withdrawnBy (past : GuardedHistory) (e : TimedGuarded × GuardedAnswer) : Option String :=
  match e.1.call with
  | .handle request failures =>
    if failures.save then none
    else ((arrivedAs past request).bind Arrival.withdraws).bind fun token =>
      (revocable (library.decode token)).map Prod.fst
  | _ => none

def Withdrawn : GuardedHistory → String → Prop
  | [], _ => False
  | e :: past, jti => withdrawnBy library past e = some jti ∨ Withdrawn past jti

/-- The token was issued to the user, has not expired and has not been withdrawn. -/
def Earned (past : GuardedHistory) (token : String) (now : Nat) (user : AuthUser) : Prop :=
  ∃ issuance ∈ issued past, issuance.accessToken = token ∧ issuance.user = user ∧
    now / 1000 < issuance.expires ∧ ¬ Withdrawn library past issuance.payload.jti

/-- Nobody but the service signs tokens: what a request brings is accepted, or names an id and
    a date to blacklist, only where it was issued. -/
structure Genuine (past : GuardedHistory) (arrival : Arrival) : Prop where
  accepted : ∀ token now payload, library.bearer arrival.authorization = some token →
    library.verify token now = .ok payload → ∃ i ∈ issued past, i.accessToken = token
  withdrawn : ∀ token row, arrival.withdraws = some token →
    revocable (library.decode token) = some row → ∃ i ∈ issued past, i.accessToken = token

/-- Clocks advance, random token ids are new, and nobody forges a token. -/
structure Trusted (past : GuardedHistory) (_ : GuardedService) (timed : TimedGuarded) : Prop where
  clock : ∀ e ∈ past, e.1.now ≤ timed.now
  fresh : ∀ call random, timed.call = .account call → call.random = some random →
    random.jti ≠ "" ∧ ∀ i ∈ issued past, i.payload.jti ≠ random.jti
  genuine : ∀ request arrival, timed.call = .arrive request arrival →
    Genuine library past arrival

/-- A guard has let the request through as the user's, who had earned it then. -/
def Checked (past : GuardedHistory) (request : Nat) (arrival : Arrival) (user : AuthUser) : Prop :=
  ∃ since now before token,
    past = since ++ (⟨now, .guard request .jwtAuth⟩, .authenticated user) :: before ∧
      arrivedAs before request = some arrival ∧
      library.bearer arrival.authorization = some token ∧ Earned library before token now user

end Histories

section Past
variable {library : TokenLibrary} {past : GuardedHistory} {e : TimedGuarded × GuardedAnswer}

theorem mem_issued_cons {issuance : Issuance} :
    issuance ∈ issued (e :: past) ↔ issuedBy e = some issuance ∨ issuance ∈ issued past := by
  rw [issued, List.filterMap_cons]
  cases issuedBy e with
  | none => simp [issued]
  | some other => simp [issued, eq_comm]

theorem issued_mono {issuance : Issuance} (known : issuance ∈ issued past) :
    issuance ∈ issued (e :: past) := mem_issued_cons.mpr (.inr known)

theorem issued_suffix {since before : GuardedHistory} {issuance : Issuance}
    (known : issuance ∈ issued before) : issuance ∈ issued (since ++ before) := by
  rw [issued, List.filterMap_append]
  exact List.mem_append_right _ known

theorem arrivedAs_cons {request : Nat} (other : arrivalOf request e = none) :
    arrivedAs (e :: past) request = arrivedAs past request := by
  rw [arrivedAs, List.findSome?_cons, other]
  rfl

theorem Genuine.later {arrival : Arrival} (genuine : Genuine library past arrival) :
    Genuine library (e :: past) arrival where
  accepted token now payload carried accepted := by
    obtain ⟨i, known, same⟩ := genuine.accepted token now payload carried accepted
    exact ⟨i, issued_mono known, same⟩
  withdrawn token row carried decoded := by
    obtain ⟨i, known, same⟩ := genuine.withdrawn token row carried decoded
    exact ⟨i, issued_mono known, same⟩

theorem Checked.later {request : Nat} {arrival : Arrival} {user : AuthUser}
    (checked : Checked library past request arrival user) :
    Checked library (e :: past) request arrival user := by
  obtain ⟨since, now, before, token, rfl, rest⟩ := checked
  exact ⟨e :: since, now, before, token, rfl, rest⟩

end Past

namespace AuthService
section Rows
variable {jwtService : JwtService} {failures : RepositoryFailures} {service : AuthService}

theorem tryRevoke_users (accessToken : String) :
    (service.tryRevoke jwtService failures accessToken).1.users = service.users := by
  unfold tryRevoke saveRevoked revoke
  split
  · split
    · rfl
    · split <;> rename_i row <;> split at row <;> cases row <;> rfl
  · rfl

/- Blacklisting adds the row the token names, unless it is there or cannot be saved. -/
theorem tryRevoke_rows (accessToken : String) :
    (service.tryRevoke jwtService failures accessToken).1.revokedTokens = service.revokedTokens ∧
        (failures.save = false → ∀ row, revocable (jwtService.decode accessToken) = some row →
          service.Blacklisted row.1) ∨
      failures.save = false ∧ ∃ row, revocable (jwtService.decode accessToken) = some row ∧
        (service.tryRevoke jwtService failures accessToken).1.revokedTokens =
          ⟨row.1, row.2 * 1000⟩ :: service.revokedTokens := by
  unfold tryRevoke
  cases decoded : revocable (jwtService.decode accessToken) with
  | none => exact .inl ⟨rfl, by simp⟩
  | some row =>
    simp only [saveRevoked, revoke]
    cases saved : failures.save with
    | true => exact .inl ⟨rfl, by simp⟩
    | false =>
      by_cases known : service.revokedTokens.any fun record => record.jti = row.1
      · refine .inl ⟨by simp [known], ?_⟩
        rintro - other ⟨⟩
        simpa [Blacklisted] using known
      · exact .inr ⟨rfl, row, rfl, by simp [known]⟩

theorem updateUser_rows (userId : String) (change : User → User) :
    (service.updateUser userId change).revokedTokens = service.revokedTokens := by
  unfold updateUser
  split <;> rfl

theorem insertUser_rows {row : User} {after : AuthService}
    (inserted : service.insertUser row = .ok after) :
    after.revokedTokens = service.revokedTokens := by
  unfold insertUser at inserted
  split at inserted
  · cases inserted
  · rw [← Except.ok.inj inserted]

@[simp] theorem updateRefreshTokenHash_rows (userId : String) (hashed : Option String) :
    (service.updateRefreshTokenHash userId hashed).revokedTokens = service.revokedTokens := by
  unfold updateRefreshTokenHash
  split <;> rfl

theorem logoutCall_rows (userId accessToken : String) :
    (service.logoutCall jwtService failures userId accessToken).1.revokedTokens =
      (service.tryRevoke jwtService failures accessToken).1.revokedTokens := by
  simp only [logoutCall]
  split
  · rfl
  · exact updateRefreshTokenHash_rows _ _

theorem revokeTokenCall_eq (token : String) :
    (service.revokeTokenCall jwtService failures token).1 =
      (service.tryRevoke jwtService failures token).1 := by
  unfold revokeTokenCall
  split <;> rename_i tried <;> rw [tried]

section Calls
variable {hashService : HashService} {clientId : Option String}

theorem register_rows (dto : RegisterDto) (id salt : String) :
    (service.register hashService dto id salt).1.revokedTokens = service.revokedTokens := by
  simp only [register]
  split
  · rfl
  · split
    · rfl
    · rename_i inserted
      exact insertUser_rows inserted

theorem socialUser_rows (provider sub email : String) (account : NewAccount) :
    (service.socialUser hashService provider sub email account).1.revokedTokens =
      service.revokedTokens := by
  simp only [socialUser]
  split
  · rfl
  · split
    · split
      · rfl
      · exact updateUser_rows _ _
    · split
      · rfl
      · rename_i inserted
        exact insertUser_rows inserted

theorem socialLogin_rows (dto : SocialLoginDto) (ticket : GoogleTicket) (account : NewAccount)
    (random : Randomness) (now : Nat) :
    (service.socialLogin hashService jwtService clientId dto ticket account random
      now).1.revokedTokens = service.revokedTokens := by
  simp only [socialLogin]
  split
  · rfl
  · rename_i sub email identified
    have found := @socialUser_rows service hashService dto.provider sub email account
    split <;> rename_i called <;> rw [called] at found
    · exact found
    · split
      · exact found
      · exact (updateRefreshTokenHash_rows _ _).trans found

end Calls

theorem isRevoked_iff (jti : String) : service.isRevoked jti = true ↔ service.Blacklisted jti := by
  simp [isRevoked, Blacklisted, List.countP_pos_iff]

theorem standing_users {after : AuthService} (same : after.users = service.users)
    (userId : String) : after.standing userId = service.standing userId := by
  rw [standing, standing, same]

end Rows
end AuthService

namespace AccountService
open AuthService

section Calls
variable {hashService : HashService} {jwtService : JwtService} {clientId : Option String}
  {service after : AccountService} {answer : AccountAnswer}

/- Only handlers write the blacklist. -/
theorem step_rows {timed : TimedAccount}
    (unguarded : ∀ userId accessToken, timed.call ≠ .logout userId accessToken)
    (moved : step hashService jwtService clientId service timed = some (after, answer)) :
    after.auth.revokedTokens = service.auth.revokedTokens := by
  obtain ⟨now, call⟩ := timed
  cases call with
  | register dto id salt =>
    obtain ⟨rfl, rfl⟩ := Prod.mk.inj (Option.some.inj moved)
    exact register_rows dto id salt
  | validateCredentials request email password =>
    obtain ⟨rfl, rfl⟩ := Prod.mk.inj (Option.some.inj moved)
    rfl
  | login request random =>
    simp only [step] at moved
    split at moved
    · cases moved
    · obtain ⟨rfl, rfl⟩ := Prod.mk.inj (Option.some.inj moved)
      exact updateRefreshTokenHash_rows _ _
  | socialLogin dto ticket account random =>
    obtain ⟨rfl, rfl⟩ := Prod.mk.inj (Option.some.inj moved)
    exact socialLogin_rows dto ticket account random now
  | refreshTokens userId refreshToken random =>
    obtain ⟨rfl, rfl⟩ := Prod.mk.inj (Option.some.inj moved)
    simp only [refreshTokens]
    split
    · rfl
    · exact (updateRefreshTokenHash_rows _ _).trans (updateRefreshTokenHash_rows _ _)
  | logout userId accessToken => exact absurd rfl (unguarded userId accessToken)
  | changeStatus userId status =>
    obtain ⟨rfl, rfl⟩ := Prod.mk.inj (Option.some.inj moved)
    exact updateUser_rows _ _

/- A token pair comes from the random values of its call, signed at that moment. -/
theorem step_issued {timed : TimedAccount} {payload : JwtPayload} {tokens : TokenPair}
    (moved : step hashService jwtService clientId service timed =
      some (after, .issued payload tokens)) :
    ∃ random, timed.call.random = some random ∧ payload.jti = random.jti ∧
      tokens.accessToken = jwtService.sign payload accessTokenTtl timed.now := by
  obtain ⟨now, call⟩ := timed
  have signed {result : Except Thrown (JwtPayload × TokenPair)} {random : Randomness}
      (shown : answering issuedAnswer result = .issued payload tokens)
      (login : ∀ issued, result = .ok issued → ∃ (service : AuthService) (user : AuthUser),
        issued = (service.login hashService jwtService user random now).2) :
      payload.jti = random.jti ∧
        tokens.accessToken = jwtService.sign payload accessTokenTtl now := by
    cases result with
    | error thrown => cases shown
    | ok issued =>
      obtain ⟨service, user, rfl⟩ := login issued rfl
      obtain ⟨rfl, rfl⟩ := AccountAnswer.issued.inj shown
      exact ⟨rfl, rfl⟩
  cases call with
  | login request random =>
    simp only [step] at moved
    split at moved
    · cases moved
    · rename_i user pending
      have shown := (Prod.mk.inj (Option.some.inj moved)).2
      exact ⟨random, rfl, @signed (.ok _) _ shown fun issued same =>
        ⟨service.auth, user, (Except.ok.inj same).symm⟩⟩
  | socialLogin dto ticket account random =>
    have shown := (Prod.mk.inj (Option.some.inj moved)).2
    refine ⟨random, rfl, signed shown fun issued given => ?_⟩
    unfold socialLogin at given
    split at given
    · cases given
    · split at given
      · cases given
      · rename_i after user _
        split at given
        · cases given
        · exact ⟨after, toAuthUser user, (Except.ok.inj given).symm⟩
  | refreshTokens userId refreshToken random =>
    have shown := (Prod.mk.inj (Option.some.inj moved)).2
    refine ⟨random, rfl, signed shown fun issued given => ?_⟩
    unfold refreshTokens at given
    split at given
    · cases given
    · exact ⟨_, _, (Except.ok.inj given).symm⟩
  | register dto id salt =>
    have shown := (Prod.mk.inj (Option.some.inj moved)).2
    cases registered : (service.auth.register hashService dto id salt).2 with
    | error thrown => rw [registered] at shown; cases shown
    | ok user => rw [registered] at shown; cases shown
  | validateCredentials request email password => cases (Prod.mk.inj (Option.some.inj moved)).2
  | logout userId accessToken => cases (Prod.mk.inj (Option.some.inj moved)).2
  | changeStatus userId status => cases (Prod.mk.inj (Option.some.inj moved)).2

/- The role a token is issued with is that of its user's row. -/
theorem Move.issued_standing {call : AccountCall} {payload : JwtPayload} {tokens : TokenPair}
    (keyed : service.auth.Keyed) (credible : service.Credible)
    (move : Move hashService service call after (.issued payload tokens)) :
    ∃ status, after.auth.standing payload.sub = some (payload.role, status) := by
  cases move with
  | loggedIn random pending same tokens =>
    obtain ⟨status, held⟩ := credible _ _ pending
    exact ⟨status, (same _).trans held⟩
  | signedIn dto ticket account random active row tokens =>
    cases row with
    | held found same => exact ⟨_, (same _).trans (standing_of found)⟩
    | created ordinary new added =>
      exact ⟨.active, (added.2 _).trans (by simp [payloadOf, toAuthUser, ordinary])⟩
  | refreshed random matched same tokens =>
    have found := redeemed_some matched
    rw [← keyed _ _ found] at found
    exact ⟨_, (same _).trans (standing_of found)⟩
  | quiet same silent unregistered handled refused => exact absurd rfl (silent payload tokens)

end Calls
end AccountService

namespace GuardedService
open AuthService

section Handlers
variable {library : TokenLibrary} {auth : AuthService} {pending : PendingRequest}
  {failures : RepositoryFailures}

theorem run_standing (other : String) :
    (run library auth pending failures).1.standing other = auth.standing other := by
  unfold run
  split
  · split
    · simp only [logoutCall]
      split
      · exact standing_users (tryRevoke_users _) other
      · rw [updateRefreshTokenHash_standing]
        exact standing_users (tryRevoke_users _) other
    · rfl
  · rw [revokeTokenCall_eq]
    exact standing_users (tryRevoke_users _) other
  · rfl

theorem run_keyed (keyed : auth.Keyed) : (run library auth pending failures).1.Keyed := by
  have tried (token : String) :
      (auth.tryRevoke library.toJwtService failures token).1.Keyed := by
    intro id user found
    rw [tryRevoke_users] at found
    exact keyed id user found
  unfold run
  split
  · split
    · simp only [logoutCall]
      split
      · exact tried _
      · exact (tried _).updateRefreshTokenHash _ _
    · exact keyed
  · rw [revokeTokenCall_eq]
    exact tried _
  · exact keyed

/- A handler that withdraws a token does what the blacklist does with it, and no other writes
   there. -/
theorem run_rows (carried : pending.handler = .logout → pending.user.isSome = true) :
    (run library auth pending failures).1.revokedTokens =
      match pending.withdraws with
      | some token => (auth.tryRevoke library.toJwtService failures token).1.revokedTokens
      | none => auth.revokedTokens := by
  unfold run Arrival.withdraws
  cases shown : pending.handler with
  | logout =>
    obtain ⟨user, found⟩ := Option.isSome_iff_exists.mp (carried shown)
    simp only [found]
    exact logoutCall_rows _ _
  | revoke token => simp only [revokeTokenCall_eq]
  | other route => rfl

end Handlers

section Guards
variable {library : TokenLibrary} {auth : AuthService} {user : Option AuthUser}

theorem authenticate_ok {arrival : Arrival} {now : Nat}
    (passed : authenticate library auth arrival now = .ok user) :
    arrival.handler.route.isPublic = true ∧ user = none ∨
      arrival.handler.route.isPublic = false ∧ ∃ token payload,
        library.bearer arrival.authorization = some token ∧
        library.verify token now = .ok payload ∧
        (payload.jti ≠ "" → ¬ auth.Blacklisted payload.jti) ∧
        user = some ⟨payload.sub, payload.email, payload.role⟩ := by
  unfold authenticate at passed
  split at passed
  · rename_i isPublic
    exact .inl ⟨isPublic, (Except.ok.inj passed).symm⟩
  · rename_i guarded
    refine .inr ⟨by simpa using guarded, ?_⟩
    split at passed
    · cases passed
    · rename_i token carried
      split at passed
      · cases passed
      · rename_i payload accepted
        split at passed
        · cases passed
        · rename_i listed
          refine ⟨token, payload, carried, accepted, ?_, (Except.ok.inj passed).symm⟩
          rw [isRevoked_iff] at listed
          exact fun named blacklisted => listed ⟨named, blacklisted⟩

theorem checkRoles_ok {pending : PendingRequest} (passed : checkRoles pending = .ok user) :
    user = none ∧ (pending.handler.route.requiredRoles = [] ∨
      ∃ carried, pending.user = some carried ∧
        carried.role ∈ pending.handler.route.requiredRoles) := by
  simp only [checkRoles] at passed
  split at passed
  · rename_i unrestricted
    exact ⟨(Except.ok.inj passed).symm, .inl unrestricted⟩
  · split at passed
    · cases passed
    · rename_i carried found
      split at passed
      · rename_i allowed
        exact ⟨(Except.ok.inj passed).symm, .inr ⟨carried, found, allowed⟩⟩
      · cases passed

end Guards

/-- Issued tokens are what the service signed, each under an id of its own, and the role of a
    token is that of its user's row. -/
structure Sound (library : TokenLibrary) (past : GuardedHistory) (service : GuardedService) :
    Prop where
  keyed : service.accounts.auth.Keyed
  credible : service.accounts.Credible
  signed : ∀ i ∈ issued past, i.payload.jti ≠ "" ∧
    i.accessToken = library.sign i.payload accessTokenTtl i.issuedAt
  apart : ∀ i ∈ issued past, ∀ j ∈ issued past, i.payload.jti = j.payload.jti → i = j
  standing : ∀ i ∈ issued past,
    ∃ status, service.accounts.auth.standing i.payload.sub = some (i.payload.role, status)

section Steps
variable {hashService : HashService} {library : TokenLibrary} {clientId : Option String}
  {past : GuardedHistory} {service after : GuardedService} {timed : TimedGuarded}
  {answer : GuardedAnswer}

/- Guards, handlers and the purge leave ids, roles and the requests of the login route. -/
theorem quiet_cases (unrelated : ∀ call, timed.call ≠ .account call)
    (moved : step hashService library clientId service timed = some (after, answer)) :
    issuedBy (timed, answer) = none ∧ after.accounts.requests = service.accounts.requests ∧
      (service.accounts.auth.Keyed → after.accounts.auth.Keyed) ∧
      ∀ userId, after.accounts.auth.standing userId = service.accounts.auth.standing userId := by
  obtain ⟨now, call⟩ := timed
  cases call with
  | account call => exact absurd rfl (unrelated call)
  | arrive request arrival =>
    obtain ⟨-, rfl, rfl⟩ := arrive_cases moved
    exact ⟨rfl, rfl, id, fun _ => rfl⟩
  | guard request guard =>
    obtain ⟨pending, guards, -, -, ⟨refusal, -, rfl, rfl⟩ | ⟨user, -, rfl, rfl⟩⟩ := guard_cases moved
    · exact ⟨rfl, rfl, id, fun _ => rfl⟩
    · cases user <;> exact ⟨rfl, rfl, id, fun _ => rfl⟩
  | handle request failures =>
    obtain ⟨pending, -, -, rfl, rfl⟩ := handle_cases moved
    exact ⟨rfl, rfl, run_keyed, fun userId => run_standing userId⟩
  | purgeExpired =>
    obtain ⟨rfl, rfl⟩ := purge_cases moved
    exact ⟨rfl, rfl, id, fun _ => rfl⟩

theorem Sound.next (sound : Sound library past service) (trusted : Trusted library past service timed)
    (moved : step hashService library clientId service timed = some (after, answer)) :
    Sound library ((timed, answer) :: past) after := by
  obtain ⟨now, call⟩ := timed
  by_cases related : ∃ inner, call = .account inner
  · obtain ⟨inner, rfl⟩ := related
    obtain ⟨-, accounts, given, stepped, rfl, rfl⟩ := account_cases moved
    obtain ⟨keyed, move⟩ := AccountService.step_moves sound.keyed stepped
    have kept (i : Issuance) (known : i ∈ issued past) :
        ∃ status, accounts.auth.standing i.payload.sub = some (i.payload.role, status) := by
      obtain ⟨status, held⟩ := sound.standing i known
      exact move.role_kept held
    by_cases issuing : ∃ payload tokens, given = .issued payload tokens
    · obtain ⟨payload, tokens, rfl⟩ := issuing
      obtain ⟨random, drawn, named, signed⟩ := AccountService.step_issued stepped
      obtain ⟨solid, fresh⟩ := trusted.fresh inner random rfl drawn
      have new {i : Issuance} (known : i ∈ issued ((⟨now, .account inner⟩,
          .account (.issued payload tokens)) :: past)) :
          i = ⟨now, payload, tokens.accessToken⟩ ∨ i ∈ issued past := by
        obtain own | old := mem_issued_cons.mp known
        · exact .inl (Option.some.inj own).symm
        · exact .inr old
      refine ⟨keyed, move.credible sound.credible, ?_, ?_, ?_⟩
      · intro i known
        obtain rfl | old := new known
        · exact ⟨named ▸ solid, signed⟩
        · exact sound.signed i old
      · intro i known j known' same
        obtain rfl | old := new known <;> obtain rfl | old' := new known'
        · rfl
        · exact absurd (same.symm.trans named) (fresh j old')
        · exact absurd (same.trans named) (fresh i old)
        · exact sound.apart i old j old' same
      · intro i known
        obtain rfl | old := new known
        · exact move.issued_standing sound.keyed sound.credible
        · exact kept i old
    · have same : issued ((⟨now, .account inner⟩, .account given) :: past) = issued past := by
        rw [issued, List.filterMap_cons]
        cases given with
        | issued payload tokens => exact absurd ⟨payload, tokens, rfl⟩ issuing
        | _ => rfl
      refine ⟨keyed, move.credible sound.credible, ?_, ?_, ?_⟩ <;> rw [same]
      · exact sound.signed
      · exact sound.apart
      · exact kept
  · obtain ⟨silent, requests, keyed, standing⟩ :=
      quiet_cases (fun inner same => related ⟨inner, same⟩) moved
    have same : issued ((⟨now, call⟩, answer) :: past) = issued past := by
      rw [issued, List.filterMap_cons, silent]
      rfl
    refine ⟨keyed sound.keyed, ?_, ?_, ?_, ?_⟩
    · intro request user found
      rw [requests] at found
      obtain ⟨status, held⟩ := sound.credible request user found
      exact ⟨status, (standing _).trans held⟩
    · rw [same]
      exact sound.signed
    · rw [same]
      exact sound.apart
    · intro i known
      rw [same] at known
      obtain ⟨status, held⟩ := sound.standing i known
      exact ⟨status, (standing _).trans held⟩

/- A request under way was so before, or has just arrived, or has just passed a guard. -/
theorem pending_cases
    (moved : step hashService library clientId service timed = some (after, answer))
    {request : Nat} {pending : PendingRequest}
    (found : after.requests.get request = some pending) :
    service.requests.get request = some pending ∧ arrivalOf request (timed, answer) = none ∨
      (∃ arrival, timed.call = .arrive request arrival ∧
        pending = ⟨arrival, none, arrival.handler.route.allGuards⟩) ∨
      ∃ guard before guards user, timed.call = .guard request guard ∧
        service.requests.get request = some before ∧ before.guards = guard :: guards ∧
        canActivate library service.accounts.auth before timed.now guard = .ok user ∧
        answer = (user.map GuardedAnswer.authenticated).getD .passed ∧
        pending = passOn before user guards := by
  obtain ⟨now, call⟩ := timed
  cases call with
  | account call =>
    obtain ⟨-, accounts, given, -, rfl, rfl⟩ := account_cases moved
    exact .inl ⟨found, rfl⟩
  | arrive other arrival =>
    obtain ⟨-, rfl, rfl⟩ := arrive_cases moved
    obtain ⟨rfl, rfl⟩ | ⟨apart, old⟩ := InsertionMap.get_set_cases found
    · exact .inr (.inl ⟨arrival, rfl, rfl⟩)
    · exact .inl ⟨old, if_neg (Ne.symm apart)⟩
  | guard other guard =>
    obtain ⟨before, guards, held, due, ⟨refusal, -, rfl, rfl⟩ | ⟨user, passed, rfl, rfl⟩⟩ :=
      guard_cases moved
    · exact .inl ⟨InsertionMap.get_of_delete found, rfl⟩
    · obtain ⟨rfl, rfl⟩ | ⟨-, old⟩ := InsertionMap.get_set_cases found
      · exact .inr (.inr ⟨guard, before, guards, user, rfl, held, due, passed, rfl, rfl⟩)
      · exact .inl ⟨old, rfl⟩
  | handle other failures =>
    obtain ⟨before, -, -, rfl, rfl⟩ := handle_cases moved
    exact .inl ⟨InsertionMap.get_of_delete found, rfl⟩
  | purgeExpired =>
    obtain ⟨rfl, rfl⟩ := purge_cases moved
    exact .inl ⟨found, rfl⟩

end Steps

/-- A request is as it arrived, and past the JWT guard it carries a user, unless its route is
    public. -/
structure Underway (library : TokenLibrary) (past : GuardedHistory) (request : Nat)
    (pending : PendingRequest) : Prop where
  arrived : arrivedAs past request = some pending.toArrival
  genuine : Genuine library past pending.toArrival
  carried : .jwtAuth ∈ pending.guards ∨ pending.handler.route.isPublic = true ∨
    pending.user.isSome = true

section Requests
variable {hashService : HashService} {library : TokenLibrary} {clientId : Option String}
  {past : GuardedHistory} {service after : GuardedService} {timed : TimedGuarded}
  {answer : GuardedAnswer}

theorem Underway.next {request : Nat} {pending : PendingRequest}
    (known : ∀ before, service.requests.get request = some before →
      Underway library past request before)
    (trusted : Trusted library past service timed)
    (moved : step hashService library clientId service timed = some (after, answer))
    (found : after.requests.get request = some pending) :
    Underway library ((timed, answer) :: past) request pending := by
  obtain ⟨old, other⟩ | ⟨arrival, arriving, rfl⟩ |
    ⟨guard, before, guards, user, guarding, held, due, passed, -, rfl⟩ := pending_cases moved found
  · obtain ⟨arrived, genuine, carried⟩ := known pending old
    exact ⟨(arrivedAs_cons other).trans arrived, genuine.later, carried⟩
  · refine ⟨?_, (trusted.genuine request arrival arriving).later, ?_⟩
    · rw [arrivedAs, List.findSome?_cons, arrivalOf, arriving]
      simp
    · exact .inl List.mem_cons_self
  · obtain ⟨arrived, genuine, carried⟩ := known before held
    have other : arrivalOf request (timed, answer) = none := by rw [arrivalOf, guarding]
    refine ⟨(arrivedAs_cons other).trans arrived, genuine.later, ?_⟩
    cases guard with
    | jwtAuth =>
      obtain ⟨isPublic, rfl⟩ | ⟨-, token, payload, -, -, -, rfl⟩ := authenticate_ok passed
      · exact .inr (.inl isPublic)
      · exact .inr (.inr rfl)
    | roles =>
      obtain ⟨rfl, -⟩ := checkRoles_ok passed
      rw [due] at carried
      simpa [passOn] using carried

/- What an issued token decodes to is its id and the second at which it expires. -/
theorem Sound.revocable (sound : Sound library past service) (documented : library.Documented)
    {i : Issuance} (known : i ∈ issued past) {row : String × Nat}
    (decoded : revocable (library.decode i.accessToken) = some row) :
    row = (i.payload.jti, i.expires) := by
  rw [(sound.signed i known).2, documented.decoded] at decoded
  simp only [Auth.revocable] at decoded
  split at decoded
  · exact (Option.some.inj decoded).symm
  · cases decoded

/- The blacklist stays as it is, gains the row of an issued token that is withdrawn, or is
   purged. -/
theorem blacklist_moves (sound : Sound library past service) (documented : library.Documented)
    (known : ∀ request before, service.requests.get request = some before →
      Underway library past request before)
    (moved : step hashService library clientId service timed = some (after, answer)) :
    (after.accounts.auth.revokedTokens = service.accounts.auth.revokedTokens ∧
        ∀ jti, withdrawnBy library past (timed, answer) = some jti →
          service.accounts.auth.Blacklisted jti) ∨
      (∃ i ∈ issued past, withdrawnBy library past (timed, answer) = some i.payload.jti ∧
        after.accounts.auth.revokedTokens =
          ⟨i.payload.jti, i.expires * 1000⟩ :: service.accounts.auth.revokedTokens) ∨
      withdrawnBy library past (timed, answer) = none ∧
        after.accounts.auth = service.accounts.auth.purgeExpired timed.now := by
  obtain ⟨now, call⟩ := timed
  cases call with
  | account call =>
    obtain ⟨unguarded, accounts, given, stepped, rfl, rfl⟩ := account_cases moved
    exact .inl ⟨AccountService.step_rows unguarded stepped, by simp [withdrawnBy]⟩
  | arrive request arrival =>
    obtain ⟨-, rfl, rfl⟩ := arrive_cases moved
    exact .inl ⟨rfl, by simp [withdrawnBy]⟩
  | guard request guard =>
    obtain ⟨pending, guards, -, -, ⟨refusal, -, rfl, rfl⟩ | ⟨user, -, rfl, rfl⟩⟩ :=
      guard_cases moved
    · exact .inl ⟨rfl, by simp [withdrawnBy]⟩
    · exact .inl ⟨rfl, by simp [withdrawnBy]⟩
  | handle request failures =>
    obtain ⟨pending, held, finished, rfl, rfl⟩ := handle_cases moved
    obtain ⟨arrived, genuine, carried⟩ := known request pending held
    have rows := @run_rows library service.accounts.auth pending failures (by
      intro leaving
      rw [finished, leaving] at carried
      simpa [Handler.route, authRoute, Route.isPublic, Route.getAllAndOverride] using carried)
    simp only [withdrawnBy, arrived, Option.bind_some]
    cases withdraws : pending.withdraws with
    | none =>
      rw [withdraws] at rows
      exact .inl ⟨rows, by simp⟩
    | some token =>
      rw [withdraws] at rows
      obtain ⟨same, listed⟩ | ⟨saved, row, decoded, grown⟩ :=
        @tryRevoke_rows library.toJwtService failures service.accounts.auth token
      · refine .inl ⟨rows.trans same, ?_⟩
        intro jti found
        cases saving : failures.save with
        | true => simp [saving] at found
        | false =>
          simp only [saving, Bool.false_eq_true, if_false, Option.bind_some,
            Option.map_eq_some_iff] at found
          obtain ⟨row, decoded, rfl⟩ := found
          exact listed saving row decoded
      · obtain ⟨i, own, rfl⟩ := genuine.withdrawn token row withdraws decoded
        obtain rfl := sound.revocable documented own decoded
        exact .inr (.inl ⟨i, own, by simp [saved, decoded], rows.trans grown⟩)
  | purgeExpired =>
    obtain ⟨rfl, rfl⟩ := purge_cases moved
    exact .inr (.inr ⟨by simp [withdrawnBy], rfl⟩)

end Requests

/-- The rows of the blacklist are those of withdrawn tokens, dated as they expire, and each is
    there until a purge past that date. -/
structure Tracked (library : TokenLibrary) (past : GuardedHistory) (service : GuardedService) :
    Prop where
  row : ∀ row ∈ service.accounts.auth.revokedTokens, Withdrawn library past row.jti ∧
    ∃ i ∈ issued past, row = ⟨i.payload.jti, i.expires * 1000⟩
  withdrawn : ∀ jti, Withdrawn library past jti → ∃ i ∈ issued past, i.payload.jti = jti ∧
    (service.accounts.auth.Blacklisted jti ∨ ∃ e ∈ past, i.expires * 1000 < e.1.now)

section Blacklist
variable {hashService : HashService} {library : TokenLibrary} {clientId : Option String}
  {past : GuardedHistory} {service after : GuardedService} {timed : TimedGuarded}
  {answer : GuardedAnswer}

theorem Tracked.next (tracked : Tracked library past service) (sound : Sound library past service)
    (documented : library.Documented)
    (known : ∀ request before, service.requests.get request = some before →
      Underway library past request before)
    (moved : step hashService library clientId service timed = some (after, answer)) :
    Tracked library ((timed, answer) :: past) after := by
  have older {jti : String} (kept : service.accounts.auth.Blacklisted jti →
        after.accounts.auth.Blacklisted jti ∨
          ∀ row ∈ service.accounts.auth.revokedTokens, row.jti = jti → row.expiresAt < timed.now)
      (withdrawn : Withdrawn library past jti) :
      ∃ i ∈ issued ((timed, answer) :: past), i.payload.jti = jti ∧
        (after.accounts.auth.Blacklisted jti ∨
          ∃ e ∈ (timed, answer) :: past, i.expires * 1000 < e.1.now) := by
    obtain ⟨i, issue, rfl, listed | ⟨e, member, late⟩⟩ := tracked.withdrawn jti withdrawn
    · refine ⟨i, issued_mono issue, rfl, ?_⟩
      obtain still | purged := kept listed
      · exact .inl still
      · obtain ⟨row, member, same⟩ := listed
        obtain ⟨-, j, issue', rfl⟩ := tracked.row row member
        obtain rfl := sound.apart j issue' i issue same
        exact .inr ⟨_, List.mem_cons_self, purged _ member same⟩
    · exact ⟨i, issued_mono issue, rfl, .inr ⟨e, List.mem_cons_of_mem _ member, late⟩⟩
  have rows (row : RevokedToken) (member : row ∈ service.accounts.auth.revokedTokens) :
      Withdrawn library ((timed, answer) :: past) row.jti ∧
        ∃ i ∈ issued ((timed, answer) :: past), row = ⟨i.payload.jti, i.expires * 1000⟩ := by
    obtain ⟨withdrawn, i, issue, same⟩ := tracked.row row member
    exact ⟨.inr withdrawn, i, issued_mono issue, same⟩
  obtain ⟨same, listed⟩ | ⟨i, issue, withdrawn, grown⟩ | ⟨silent, purged⟩ :=
    blacklist_moves sound documented known moved
  · have kept {jti : String} (blacklisted : service.accounts.auth.Blacklisted jti) :
        after.accounts.auth.Blacklisted jti := by rwa [Blacklisted, same]
    refine ⟨by rwa [same], ?_⟩
    rintro jti (now | before)
    · obtain ⟨row, member, rfl⟩ := listed jti now
      obtain ⟨-, i, issue, own⟩ := tracked.row row member
      exact ⟨i, issued_mono issue, by rw [own], .inl (kept (listed _ now))⟩
    · exact older (fun blacklisted => .inl (kept blacklisted)) before
  · refine ⟨?_, ?_⟩
    · rw [grown]
      intro row member
      obtain rfl | old := List.mem_cons.mp member
      · exact ⟨.inl withdrawn, i, issued_mono issue, rfl⟩
      · exact rows row old
    · rintro jti (now | before)
      · obtain rfl := Option.some.inj (withdrawn.symm.trans now)
        refine ⟨i, issued_mono issue, rfl, .inl ?_⟩
        rw [Blacklisted, grown]
        exact ⟨_, List.mem_cons_self, rfl⟩
      · refine older (fun blacklisted => .inl ?_) before
        obtain ⟨row, member, same⟩ := blacklisted
        rw [Blacklisted, grown]
        exact ⟨row, List.mem_cons_of_mem _ member, same⟩
  · have left : after.accounts.auth.revokedTokens = service.accounts.auth.revokedTokens.filter
        fun record => !decide (record.expiresAt < timed.now) := by rw [purged]; rfl
    refine ⟨?_, ?_⟩
    · rw [left]
      intro row member
      exact rows row (List.mem_filter.mp member).1
    · rintro jti (now | before)
      · rw [silent] at now
        cases now
      · refine older (fun blacklisted => ?_) before
        by_cases remains : after.accounts.auth.Blacklisted jti
        · exact .inl remains
        · refine .inr fun row member same => ?_
          by_contra early
          refine remains ⟨row, ?_, same⟩
          rw [left]
          exact List.mem_filter.mpr ⟨member, by simpa using early⟩

/- The JWT guard puts a user into a request exactly where its token is earned. -/
theorem authenticate_iff (tracked : Tracked library past service)
    (sound : Sound library past service) (documented : library.Documented) {arrival : Arrival}
    (genuine : Genuine library past arrival) {now : Nat} (clock : ∀ e ∈ past, e.1.now ≤ now)
    (guarded : arrival.handler.route.isPublic = false) (user : AuthUser) :
    authenticate library service.accounts.auth arrival now = .ok (some user) ↔
      ∃ token, library.bearer arrival.authorization = some token ∧
        Earned library past token now user := by
  constructor
  · intro passed
    obtain ⟨-, none⟩ | ⟨-, token, payload, carried, accepted, unlisted, own⟩ :=
      authenticate_ok passed
    · cases none
    · obtain ⟨i, issue, rfl⟩ := genuine.accepted token now payload carried accepted
      obtain ⟨named, signed⟩ := sound.signed i issue
      rw [signed, documented.verified] at accepted
      split at accepted
      · rename_i fresh
        obtain rfl := Except.ok.inj accepted
        refine ⟨_, carried, i, issue, rfl, (Option.some.inj own).symm, fresh, ?_⟩
        intro withdrawn
        obtain ⟨j, issue', same, listed | ⟨e, member, late⟩⟩ := tracked.withdrawn _ withdrawn
        · exact unlisted named listed
        · -- purged, so the token had expired by then
          obtain rfl := sound.apart j issue' i issue same
          have before := clock e member
          unfold Issuance.expires at late
          omega
      · cases accepted
  · rintro ⟨token, carried, i, issue, rfl, rfl, fresh, valid⟩
    obtain ⟨named, signed⟩ := sound.signed i issue
    have unlisted : ¬ service.accounts.auth.isRevoked i.payload.jti = true := by
      rw [isRevoked_iff]
      rintro ⟨row, member, same⟩
      exact valid (same ▸ (tracked.row row member).1)
    rw [signed] at carried
    have unexpired : now / 1000 < i.issuedAt / 1000 + accessTokenTtl := fresh
    simp only [authenticate, guarded, carried, documented.verified, if_pos unexpired]
    rw [if_neg (by simp), if_neg fun revoked => unlisted revoked.2]
    rfl

end Blacklist

/-- The user in a request has earned it, nobody is in the request of a public route, and past
    the roles guard the user's role is one the route asks for, if it asks. -/
structure Vetted (library : TokenLibrary) (past : GuardedHistory) (request : Nat)
    (pending : PendingRequest) : Prop where
  checked : ∀ user, pending.user = some user →
    Checked library past request pending.toArrival user
  unnamed : pending.handler.route.isPublic = true → pending.user = none
  allowed : .roles ∈ pending.guards ∨ pending.handler.route.requiredRoles = [] ∨
    ∃ user, pending.user = some user ∧ user.role ∈ pending.handler.route.requiredRoles

/-- What holds of every history and the service at its end. -/
structure Guarded (library : TokenLibrary) (past : GuardedHistory) (service : GuardedService) :
    Prop where
  sound : Sound library past service
  tracked : Tracked library past service
  underway : ∀ request pending, service.requests.get request = some pending →
    Underway library past request pending
  vetted : ∀ request pending, service.requests.get request = some pending →
    Vetted library past request pending

section Runs
variable {hashService : HashService} {library : TokenLibrary} {clientId : Option String}
  {past : GuardedHistory} {service after : GuardedService} {timed : TimedGuarded}
  {answer : GuardedAnswer} {rows : List User}

/- One token has one user. -/
theorem Sound.same_user (sound : Sound library past service) (documented : library.Documented)
    {since before : GuardedHistory} (split : past = since ++ before) {token : String}
    {now now' : Nat} {user user' : AuthUser} (earned : Earned library before token now user)
    (earned' : Earned library past token now' user') : user' = user := by
  obtain ⟨i, issue, rfl, rfl, -⟩ := earned
  obtain ⟨j, issue', same, rfl, -⟩ := earned'
  have own : i ∈ issued past := split ▸ issued_suffix issue
  rw [(sound.signed i own).2, (sound.signed j issue').2] at same
  have decoded := congrArg library.decode same
  rw [documented.decoded, documented.decoded] at decoded
  have ids := (DecodedToken.mk.inj (Option.some.inj decoded)).1
  rw [sound.apart j issue' i own (Option.some.inj ids)]

theorem Vetted.next (guarded : Guarded library past service) (documented : library.Documented)
    (trusted : Trusted library past service timed)
    (moved : step hashService library clientId service timed = some (after, answer))
    {request : Nat} {pending : PendingRequest}
    (found : after.requests.get request = some pending) :
    Vetted library ((timed, answer) :: past) request pending := by
  obtain ⟨old, -⟩ | ⟨arrival, -, rfl⟩ | ⟨guard, before, guards, user, guarding, held, due, passed,
    shown, rfl⟩ := pending_cases moved found
  · obtain ⟨checked, unnamed, allowed⟩ := guarded.vetted request pending old
    exact ⟨fun user carried => (checked user carried).later, unnamed, allowed⟩
  · refine ⟨by simp, fun _ => rfl, .inl ?_⟩
    exact List.mem_cons_of_mem _ List.mem_cons_self
  · obtain ⟨checked, unnamed, allowed⟩ := guarded.vetted request before held
    obtain ⟨arrived, genuine, -⟩ := guarded.underway request before held
    rw [due] at allowed
    cases guard with
    | roles =>
      obtain ⟨rfl, role⟩ := checkRoles_ok passed
      exact ⟨fun user carried => (checked user carried).later, unnamed, .inr role⟩
    | jwtAuth =>
      obtain ⟨isPublic, rfl⟩ | ⟨closed, -, payload, -, -, -, own⟩ := authenticate_ok passed
      · exact ⟨fun user carried => (checked user carried).later, unnamed, by simpa using allowed⟩
      · rw [own] at passed shown ⊢
        obtain ⟨token, bearer, earned⟩ := (authenticate_iff guarded.tracked guarded.sound
          documented genuine trusted.clock closed _).mp passed
        refine ⟨?_, fun isPublic => absurd (closed.symm.trans isPublic) (by simp), ?_⟩
        · intro user carried
          obtain rfl := Option.some.inj carried
          obtain ⟨now, call⟩ := timed
          obtain rfl : call = .guard request .jwtAuth := guarding
          obtain rfl : answer = .authenticated _ := shown
          exact ⟨[], now, past, token, rfl, arrived, bearer, earned⟩
        · simp only [passOn_guards, passOn_toArrival, passOn_some]
          obtain more | unrestricted | ⟨carried, named, role⟩ := allowed
          · exact .inl (by simpa using more)
          · exact .inr (.inl unrestricted)
          · -- a guard that runs again finds the same user
            obtain ⟨since, earlier, past', token', split, -, bearer', earned'⟩ := checked carried named
            obtain rfl := Option.some.inj (bearer.symm.trans bearer')
            rw [List.append_cons] at split
            rw [guarded.sound.same_user documented split earned' earned]
            exact .inr (.inr ⟨carried, rfl, role⟩)

theorem initial_guarded (rows : List User) : Guarded library [] (initial rows) where
  sound := ⟨AccountService.initial_keyed rows, by simp [AccountService.Credible, initial,
    AccountService.initial], by simp [issued], by simp [issued], by simp [issued]⟩
  tracked := ⟨by simp [initial, AccountService.initial], by simp [Withdrawn]⟩
  underway := by simp [initial]
  vetted := by simp [initial]

theorem run_guarded (documented : library.Documented)
    (run : (machine hashService library clientId rows).Run (Trusted library) past service) :
    Guarded library past service := by
  refine run.invariant (Guarded library) (initial_guarded rows) ?_
  intro past service timed after answer _ guarded trusted moved
  exact ⟨guarded.sound.next trusted moved,
    guarded.tracked.next guarded.sound documented guarded.underway moved,
    fun request pending => Underway.next (guarded.underway request) trusted moved,
    fun request pending => Vetted.next guarded documented trusted moved⟩

/-- The JWT guard passes the request of a public route, and puts a user into any other exactly
    where the token in its header was issued to that user less than its lifetime ago and no
    handler has withdrawn it. -/
theorem guard_authenticates_iff (documented : library.Documented)
    (run : (machine hashService library clientId rows).Run (Trusted library) past service)
    {later earlier : GuardedHistory} {now request : Nat}
    (exchange : past = later ++ (⟨now, .guard request .jwtAuth⟩, answer) :: earlier) :
    ∃ arrival, arrivedAs earlier request = some arrival ∧
      (arrival.handler.route.isPublic = true → answer = .passed) ∧
      (arrival.handler.route.isPublic = false → ∀ user, answer = .authenticated user ↔
        ∃ token, library.bearer arrival.authorization = some token ∧
          Earned library earlier token now user) := by
  obtain ⟨before, after, reached, trusted, moved⟩ := run.exchange exchange
  have guarded := run_guarded documented reached
  obtain ⟨pending, guards, held, due, outcome⟩ :=
    @guard_cases hashService library clientId before after answer request now .jwtAuth moved
  obtain ⟨arrived, genuine, -⟩ := guarded.underway request pending held
  refine ⟨pending.toArrival, arrived, ?_, ?_⟩
  · intro isPublic
    have passed : canActivate library before.accounts.auth pending now .jwtAuth = .ok none := by
      rw [canActivate, authenticate, if_pos isPublic]
    obtain ⟨refusal, refused, -⟩ | ⟨user, found, -, rfl⟩ := outcome
    · cases passed.symm.trans refused
    · obtain rfl := Except.ok.inj (passed.symm.trans found)
      rfl
  · intro closed user
    rw [← authenticate_iff guarded.tracked guarded.sound documented genuine trusted.clock closed]
    obtain ⟨refusal, refused, -, rfl⟩ | ⟨found, passed, -, rfl⟩ := outcome
    · rw [canActivate] at refused
      simp [refused]
    · rw [canActivate] at passed
      obtain ⟨isPublic, -⟩ | ⟨-, token, payload, -, -, -, rfl⟩ := authenticate_ok passed
      · cases closed.symm.trans isPublic
      · simp [passed]

/-- Behind the guards: a handler that is not public runs for a user whom a guard has let
    through, who had earned it then, whose role is one of those the route asks for, and whose
    row still has that role. -/
theorem handlers_authorized (documented : library.Documented)
    (run : (machine hashService library clientId rows).Run (Trusted library) past service)
    {later earlier : GuardedHistory} {now request : Nat} {failures : RepositoryFailures}
    (exchange : past = later ++ (⟨now, .handle request failures⟩, answer) :: earlier) :
    ∃ arrival carried result, arrivedAs earlier request = some arrival ∧
      answer = .handled carried result ∧
      (arrival.handler.route.isPublic = true →
        carried = none ∧ arrival.handler.route.requiredRoles = []) ∧
      (arrival.handler.route.isPublic = false → ∃ user, carried = some user ∧
        Checked library earlier request arrival user ∧
        (arrival.handler.route.requiredRoles = [] ∨
          user.role ∈ arrival.handler.route.requiredRoles) ∧
        ∃ status, service.accounts.auth.standing user.id = some (user.role, status)) := by
  obtain ⟨before, after, reached, trusted, moved⟩ := run.exchange exchange
  have guarded := run_guarded documented reached
  obtain ⟨pending, held, finished, -, rfl⟩ :=
    @handle_cases hashService library clientId before after answer request now failures moved
  obtain ⟨arrived, -, carried⟩ := guarded.underway request pending held
  obtain ⟨checked, unnamed, allowed⟩ := guarded.vetted request pending held
  rw [finished] at carried allowed
  refine ⟨pending.toArrival, pending.user, _, arrived, rfl, ?_, ?_⟩
  · intro isPublic
    have absent := unnamed isPublic
    rw [absent] at allowed
    exact ⟨absent, by simpa using allowed⟩
  · intro closed
    have present : pending.user.isSome = true := by simpa [closed] using carried
    obtain ⟨user, own⟩ := Option.isSome_iff_exists.mp present
    have earned := checked user own
    refine ⟨user, own, earned, by simpa [own] using allowed, ?_⟩
    obtain ⟨since, at', past', token, split, -, -, i, issue, -, rfl, -⟩ := earned
    have whole : i ∈ issued past := by
      rw [exchange, List.append_cons, split]
      exact issued_suffix (issued_suffix (issued_mono issue))
    exact (run_guarded documented run).sound.standing i whole

end Runs

/- Tokens that carry their claims in the open, each claim between marks. -/
section PlainTokens

def framed : List Char → List Char
  | [] => ['.']
  | c :: text => '+' :: c :: framed text

def unframed : List Char → Option (List Char × List Char)
  | '.' :: rest => some ([], rest)
  | '+' :: c :: rest => (unframed rest).map fun read => (c :: read.1, read.2)
  | _ => none

theorem unframed_framed (text rest : List Char) :
    unframed (framed text ++ rest) = some (text, rest) := by
  induction text with
  | nil => rfl
  | cons c text ih => simp [framed, unframed, ih]

theorem unframed_last (text : List Char) : unframed (framed text) = some (text, []) := by
  simpa using unframed_framed text []

def roleOf (text : List Char) : Option UserRole :=
  [UserRole.admin, .user, .readonly].find? fun role => role.text.toList = text

theorem roleOf_text (role : UserRole) : roleOf role.text.toList = some role := by
  cases role <;> decide

def claimTexts (payload : JwtPayload) (exp : Nat) : List Char :=
  framed payload.sub.toList ++ (framed payload.email.toList ++ (framed payload.role.text.toList ++
    (framed payload.jti.toList ++ framed (Nat.toDigits 10 exp))))

def readClaims (token : String) : Option (JwtPayload × Nat) := do
  let (sub, rest) ← unframed token.toList
  let (email, rest) ← unframed rest
  let (role, rest) ← unframed rest
  let (jti, rest) ← unframed rest
  let (exp, _) ← unframed rest
  let role ← roleOf role
  pure (⟨String.ofList sub, String.ofList email, role, String.ofList jti⟩,
    Nat.ofDigitChars 10 exp 0)

theorem readClaims_texts (payload : JwtPayload) (exp : Nat) :
    readClaims (String.ofList (claimTexts payload exp)) = some (payload, exp) := by
  simp [readClaims, claimTexts, unframed_framed, unframed_last, roleOf_text]

def bearerScheme : List Char := "Bearer ".toList

def plainTokens : TokenLibrary where
  sign payload expiresIn now := String.ofList (claimTexts payload (now / 1000 + expiresIn))
  decode token := (readClaims token).map fun claims => ⟨some claims.1.jti, some claims.2⟩
  bearer authorization := authorization.bind fun header =>
    if bearerScheme <+: header.toList then some (String.ofList (header.toList.drop 7)) else none
  verify token now :=
    match readClaims token with
    | some (payload, exp) => if now / 1000 < exp then .ok payload else .error "jwt expired"
    | none => .error "jwt malformed"

theorem plainTokens_documented : plainTokens.Documented where
  verified payload expiresIn issuedAt now := by simp [plainTokens, readClaims_texts]
  decoded payload expiresIn issuedAt := by simp [plainTokens, readClaims_texts]

theorem plainTokens_bearer (token : String) :
    plainTokens.bearer (some (String.ofList (bearerScheme ++ token.toList))) = some token := by
  have seven : bearerScheme.length = 7 := by decide
  simp [plainTokens, ← seven]

end PlainTokens

/-- Alice's token, and her request for a route that asks for the role USER. -/
def aliceToken : String :=
  plainTokens.sign ⟨"alice", "alice@example.com", .user, "id-1"⟩ accessTokenTtl 2

def aliceRequest : Arrival where
  authorization := some (String.ofList (bearerScheme ++ aliceToken.toList))
  handler := .other ⟨⟨none, some [.user]⟩, ⟨none, none⟩, []⟩

def aliceLogin : GuardedHistory :=
  [(⟨2, .account (.login 1 ⟨"id-1", "r1", "salt"⟩)⟩,
      .account (.issued ⟨"alice", "alice@example.com", .user, "id-1"⟩ ⟨aliceToken, "r1"⟩)),
   (⟨1, .account (.validateCredentials 1 "alice@example.com" "secret")⟩,
      .account (.validated (some (toAuthUser alice))))]

def aliceGuarded : GuardedHistory :=
  (⟨4, .guard 7 .jwtAuth⟩, .authenticated (toAuthUser alice)) ::
    (⟨3, .arrive 7 aliceRequest⟩, .arrived) :: aliceLogin

theorem aliceRequest_genuine : Genuine plainTokens aliceLogin aliceRequest where
  accepted token now payload carried _ := by
    obtain rfl := Option.some.inj ((plainTokens_bearer aliceToken).symm.trans carried)
    exact ⟨⟨2, _, _⟩, List.mem_cons_self, rfl⟩
  withdrawn token row carried _ := by cases carried

theorem Trusted.call {library : TokenLibrary} {past : GuardedHistory} {service : GuardedService}
    {now : Nat} {call : AccountCall} (clock : ∀ e ∈ past, e.1.now ≤ now)
    (fresh : ∀ random, call.random = some random →
      random.jti ≠ "" ∧ ∀ i ∈ issued past, i.payload.jti ≠ random.jti) :
    Trusted library past service ⟨now, .account call⟩ := by
  refine ⟨clock, ?_, by simp⟩
  intro other random same
  obtain rfl := GuardedCall.account.inj same
  exact fresh random

theorem Trusted.request {library : TokenLibrary} {past : GuardedHistory}
    {service : GuardedService} {timed : TimedGuarded} (clock : ∀ e ∈ past, e.1.now ≤ timed.now)
    (guarded : ∀ call, timed.call ≠ .account call)
    (known : ∀ request arrival, timed.call ≠ .arrive request arrival) :
    Trusted library past service timed :=
  ⟨clock, fun call _ same => absurd same (guarded call),
    fun request arrival same => absurd same (known request arrival)⟩

theorem alice_logs_in : ∃ service,
    (machine saltless plainTokens none [alice]).Run (Trusted plainTokens) aliceLogin service ∧
      service.requests = InsertionMap.empty ∧
      service.accounts.auth.revokedTokens = [] := by
  have validated : (machine saltless plainTokens none [alice]).Run (Trusted plainTokens)
      aliceLogin.tail _ :=
    Machine.Run.start.next (Trusted.call (by simp) (by simp [AccountCall.random])) rfl
  have loggedIn : (machine saltless plainTokens none [alice]).Run (Trusted plainTokens)
      aliceLogin _ :=
    validated.next (Trusted.call (by simp [aliceLogin])
      (by simp [AccountCall.random, aliceLogin, issued, issuedBy])) rfl
  exact ⟨_, loggedIn, rfl, rfl⟩

theorem alice_authenticates {service : AuthService} (unlisted : service.revokedTokens = []) :
    authenticate plainTokens service aliceRequest 4 = .ok (some (toAuthUser alice)) := by
  have accepted := plainTokens_documented.verified ⟨"alice", "alice@example.com", .user, "id-1"⟩
    accessTokenTtl 2 4
  have fresh : service.isRevoked "id-1" = false := by rw [isRevoked, unlisted]; rfl
  unfold authenticate aliceRequest
  rw [if_neg (by decide), plainTokens_bearer]
  simp only [aliceToken, accepted]
  rw [if_pos (by decide)]
  simp [fresh, toAuthUser, alice]

theorem alice_authenticated : ∃ service,
    (machine saltless plainTokens none [alice]).Run (Trusted plainTokens) aliceGuarded service ∧
      service.requests.get 7 = some ⟨aliceRequest, some (toAuthUser alice), [.roles]⟩ := by
  obtain ⟨service, loggedIn, requests, blacklist⟩ := alice_logs_in
  have free : service.requests.get 7 = none := by rw [requests]; rfl
  have trusted : Trusted plainTokens aliceLogin service ⟨3, .arrive 7 aliceRequest⟩ := by
    refine ⟨by simp [aliceLogin], by simp, ?_⟩
    intro request arrival same
    obtain ⟨-, rfl⟩ := GuardedCall.arrive.inj same
    exact aliceRequest_genuine
  have arrived : (machine saltless plainTokens none [alice]).Run (Trusted plainTokens)
      aliceGuarded.tail _ := loggedIn.next trusted
        (@arrives saltless plainTokens none service 7 3 aliceRequest free)
  have passed := @guard_passes saltless plainTokens none
    (service.withRequests (service.requests.set 7 _)) 7 4 .jwtAuth
    ⟨aliceRequest, none, aliceRequest.handler.route.allGuards⟩ [.roles] _
    (InsertionMap.get_set_self service.requests 7 _) rfl (alice_authenticates blacklist)
  have authenticated : (machine saltless plainTokens none [alice]).Run (Trusted plainTokens)
      aliceGuarded _ :=
    arrived.next (Trusted.request (by simp [aliceGuarded, aliceLogin]) (by simp) (by simp)) passed
  exact ⟨_, authenticated, InsertionMap.get_set_self _ _ _⟩

/-- Alice's token is earned when the guard sees it. -/
theorem alice_earned : Earned plainTokens aliceGuarded.tail aliceToken 4 (toAuthUser alice) := by
  obtain ⟨service, run, -⟩ := alice_authenticated
  obtain ⟨arrival, arrived, -, closed⟩ :=
    guard_authenticates_iff plainTokens_documented run (List.nil_append aliceGuarded).symm
  obtain rfl : aliceRequest = arrival := Option.some.inj arrived
  obtain ⟨token, carried, earned⟩ := (closed (by decide) (toAuthUser alice)).mp rfl
  obtain rfl := Option.some.inj ((plainTokens_bearer aliceToken).symm.trans carried)
  exact earned

/-- Her request passes the roles guard, and its handler runs for her. -/
theorem alice_authorized : ∃ service result,
    (machine saltless plainTokens none [alice]).Run (Trusted plainTokens)
      ((⟨6, .handle 7 ⟨false, false⟩⟩, .handled (some (toAuthUser alice)) result) ::
        (⟨5, .guard 7 .roles⟩, .passed) :: aliceGuarded) service ∧
      Checked plainTokens ((⟨5, .guard 7 .roles⟩, .passed) :: aliceGuarded) 7 aliceRequest
        (toAuthUser alice) := by
  obtain ⟨service, run, held⟩ := alice_authenticated
  have passed := @guard_passes saltless plainTokens none service 7 5 .roles _ _ none held rfl rfl
  have allowed : (machine saltless plainTokens none [alice]).Run (Trusted plainTokens)
      ((⟨5, .guard 7 .roles⟩, .passed) :: aliceGuarded) _ :=
    run.next (Trusted.request (by simp [aliceGuarded, aliceLogin]) (by simp) (by simp)) passed
  have finished := @handles saltless plainTokens none
    (service.withRequests (service.requests.set 7 _)) 7 6 ⟨false, false⟩
    (passOn ⟨aliceRequest, some (toAuthUser alice), [.roles]⟩ none [])
    (InsertionMap.get_set_self service.requests 7 _) rfl
  have done : (machine saltless plainTokens none [alice]).Run (Trusted plainTokens)
      ((⟨6, .handle 7 ⟨false, false⟩⟩, _) :: (⟨5, .guard 7 .roles⟩, .passed) :: aliceGuarded) _ :=
    allowed.next (Trusted.request (by simp [aliceGuarded, aliceLogin]) (by simp) (by simp)) finished
  obtain ⟨arrival, carried, result, arrived, shown, -, closed⟩ :=
    handlers_authorized plainTokens_documented done (List.nil_append _).symm
  obtain rfl : aliceRequest = arrival := Option.some.inj arrived
  obtain ⟨user, rfl, checked, -⟩ := closed (by decide)
  obtain ⟨own, -⟩ := GuardedAnswer.handled.inj shown
  exact ⟨_, _, done, Option.some.inj own ▸ checked⟩

end GuardedService
end AstraPort.Auth
