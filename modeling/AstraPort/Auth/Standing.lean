import AstraPort.Auth.Accounts
import AstraPort.Auth.LogoutFinality

/- Who gets tokens, and with which role. A status is looked at when a password is checked
   and in a social login, not when a refresh token is redeemed; a role is whatever the
   registering request named. -/
namespace AstraPort.Auth
namespace AuthService

/-- Roles as authorization sees them: all USER. -/
def AllUsers (service : AuthService) : Prop :=
  ∀ userId role status, service.standing userId = some (role, status) → role = .user

section Rows
variable {service after : AuthService}

theorem isActive_congr {userId : String}
    (same : after.standing userId = service.standing userId) :
    after.IsActive userId ↔ service.IsActive userId := by rw [IsActive, IsActive, same]

theorem SocialRow.isActive {user : User} (row : SocialRow service after user)
    (active : user.status = .active) : after.IsActive user.id := by
  cases row with
  | held found same => exact (isActive_congr (same user.id)).mpr ((isActive_of found).mpr active)
  | created ordinary new added =>
    refine ⟨.user, ?_⟩
    rw [added.2, if_pos rfl]

theorem Added.role_kept {id userId : String} {role old : UserRole} {status : UserStatus}
    (added : Added service after id role)
    (held : service.standing userId = some (old, status)) :
    ∃ status, after.standing userId = some (old, status) := by
  have apart : userId ≠ id := by
    rintro rfl
    simp [standing, added.1] at held
  exact ⟨status, by rw [added.2, if_neg apart, held]⟩

theorem allUsers_iff :
    service.AllUsers ↔ ∀ id user, service.users.get id = some user → user.role = .user := by
  constructor
  · exact fun all id user found => all id _ _ (standing_of found)
  · intro all userId role status held
    obtain ⟨user, found, same⟩ := Option.map_eq_some_iff.mp held
    rw [← (Prod.mk.inj same).1]
    exact all userId user found

theorem allUsers_congr (same : ∀ other, after.standing other = service.standing other) :
    after.AllUsers ↔ service.AllUsers := by simp only [AllUsers, same]

theorem Added.allUsers_iff {id : String} {role : UserRole}
    (added : Added service after id role) : after.AllUsers ↔ service.AllUsers ∧ role = .user := by
  constructor
  · intro all
    refine ⟨fun userId old status held => ?_, all id role .active (by rw [added.2, if_pos rfl])⟩
    obtain ⟨status, later⟩ := Added.role_kept added held
    exact all userId old status later
  · rintro ⟨all, rfl⟩ userId old status held
    rw [added.2] at held
    split at held
    · exact (Prod.mk.inj (Option.some.inj held)).1.symm
    · exact all userId old status held

theorem SocialRow.allUsers_iff {user : User} (row : SocialRow service after user) :
    (after.AllUsers ↔ service.AllUsers) ∧ (service.AllUsers → user.role = .user) := by
  cases row with
  | held found same => exact ⟨allUsers_congr same, fun all => all _ _ _ (standing_of found)⟩
  | created ordinary new added =>
    exact ⟨by simp [Added.allUsers_iff added], fun _ => ordinary⟩

end Rows
end AuthService

namespace AccountService
open AuthService

/-- A token pair is issued to a user whose status is ACTIVE at that moment. -/
def IssuedWhileActive (_ : AccountService) (_ : TimedAccount) (answer : AccountAnswer)
    (after : AccountService) : Prop :=
  ∀ payload tokens, answer = .issued payload tokens → after.auth.IsActive payload.sub

/-- A redeemed refresh token is that of an active user, and a user validated for a login
    is still active when the handler runs. -/
def StillActive (hashService : HashService) (before : AccountService) (timed : TimedAccount)
    (_ : AccountAnswer) (_ : AccountService) : Prop :=
  match timed.call with
  | .refreshTokens userId refreshToken _ =>
    ∀ user, before.auth.redeemed hashService userId refreshToken = some user →
      user.status = .active
  | .login request _ =>
    ∀ user, before.requests.get request = some user → before.auth.IsActive user.id
  | _ => True

/-- A registration under a free id and a free email address names no role but USER. -/
def RegistersUser (before : AccountService) (timed : TimedAccount) (_ : AccountAnswer)
    (_ : AccountService) : Prop :=
  match timed.call with
  | .register dto id _ => before.auth.Free id dto.email → dto.role.getD .user = .user
  | _ => True

/-- Every row, and every access token issued so far, carries the role USER. -/
def UsersOnly (past : List (TimedAccount × AccountAnswer)) (service : AccountService) : Prop :=
  (∀ id user, service.auth.users.get id = some user → user.role = .user) ∧
  ∀ e ∈ past, ∀ payload tokens, e.2 = .issued payload tokens → payload.role = .user

/-- What class-validator asks of a request body; isEmail is its own check, and the type of
    a role admits the values of the enumeration alone. -/
def Admitted (isEmail : String → Bool) :
    Machine.Permit AccountService TimedAccount AccountAnswer := fun _ _ timed =>
  match timed.call with
  | .register dto _ _ => isEmail dto.email = true ∧ 8 ≤ dto.password.length
  | .socialLogin dto _ _ _ => dto.provider = googleProvider ∧ 1 ≤ dto.idToken.length
  | _ => True

instance (isEmail : String → Bool) (past : List (TimedAccount × AccountAnswer))
    (service : AccountService) (timed : TimedAccount) :
    Decidable (Admitted isEmail past service timed) :=
  match timed with
  | ⟨_, .register _ _ _⟩ => inferInstanceAs (Decidable (_ ∧ _))
  | ⟨_, .socialLogin _ _ _ _⟩ => inferInstanceAs (Decidable (_ ∧ _))
  | ⟨_, .validateCredentials _ _ _⟩ => isTrue trivial
  | ⟨_, .login _ _⟩ => isTrue trivial
  | ⟨_, .refreshTokens _ _ _⟩ => isTrue trivial
  | ⟨_, .logout _ _⟩ => isTrue trivial
  | ⟨_, .changeStatus _ _⟩ => isTrue trivial

section Moves
variable {hashService : HashService} {service after : AccountService} {timed : TimedAccount}
  {answer : AccountAnswer}

theorem Move.issuedWhileActive_iff (keyed : service.auth.Keyed)
    (move : Move hashService service timed.call after answer) :
    IssuedWhileActive service timed answer after ↔
      StillActive hashService service timed answer after := by
  obtain ⟨now, call⟩ := timed
  cases move with
  | registered dto id salt free added => exact iff_of_true (by simp [IssuedWhileActive]) trivial
  | validated request email password found active =>
    exact iff_of_true (by simp [IssuedWhileActive]) trivial
  | statusChanged userId status changed =>
    exact iff_of_true (by simp [IssuedWhileActive]) trivial
  | signedIn dto ticket account random active row tokens =>
    refine iff_of_true ?_ trivial
    rintro _ _ ⟨⟩
    exact SocialRow.isActive row active
  | @loggedIn after request user random pending same tokens =>
    have moment : after.IsActive user.id ↔ service.auth.IsActive user.id :=
      isActive_congr (same user.id)
    constructor
    · intro issued other found
      obtain rfl := Option.some.inj (pending.symm.trans found)
      exact moment.mp (issued _ _ rfl)
    · rintro still _ _ ⟨⟩
      exact moment.mpr (still user pending)
  | @refreshed after userId refreshToken random user matched same tokens =>
    have found := redeemed_some matched
    have moment : after.IsActive user.id ↔ user.status = .active := by
      rw [keyed userId user found, isActive_congr (same userId), isActive_of found]
    constructor
    · intro issued other held
      obtain rfl := Option.some.inj (matched.symm.trans held)
      exact moment.mp (issued _ _ rfl)
    · rintro still _ _ ⟨⟩
      exact moment.mpr (still user matched)
  | quiet same silent unregistered handled refused =>
    refine iff_of_true (fun payload tokens told => absurd told (silent payload tokens)) ?_
    cases call with
    | login request random => exact absurd rfl (handled request random)
    | refreshTokens userId refreshToken random =>
      intro user found
      rw [refused userId refreshToken random rfl] at found
      cases found
    | _ => trivial

/-- The user a request carries has the role it was validated with. -/
def Credible (service : AccountService) : Prop :=
  ∀ request user, service.requests.get request = some user →
    ∃ status, service.auth.standing user.id = some (user.role, status)

/- Roles are final: no call rewrites one. -/
theorem Move.role_kept {call : AccountCall} (move : Move hashService service call after answer)
    {userId : String} {role : UserRole} {status : UserStatus}
    (held : service.auth.standing userId = some (role, status)) :
    ∃ status, after.auth.standing userId = some (role, status) := by
  cases move with
  | registered dto id salt free added => exact Added.role_kept added held
  | validated request email password found active => exact ⟨status, held⟩
  | loggedIn random pending same tokens => exact ⟨status, (same userId).trans held⟩
  | refreshed random matched same tokens => exact ⟨status, (same userId).trans held⟩
  | quiet same silent unregistered handled refused => exact ⟨status, (same userId).trans held⟩
  | signedIn dto ticket account random active row tokens =>
    cases row with
    | held found same => exact ⟨status, (same userId).trans held⟩
    | created ordinary new added => exact Added.role_kept added held
  | statusChanged other status changed =>
    simp only [changed]
    split
    · rename_i here
      exact ⟨status, by rw [← here, held]; rfl⟩
    · exact ⟨_, held⟩

theorem Move.credible {call : AccountCall} (move : Move hashService service call after answer)
    (credible : service.Credible) : after.Credible := by
  have kept {request : Nat} {user : AuthUser} (found : service.requests.get request = some user) :
      ∃ status, after.auth.standing user.id = some (user.role, status) := by
    obtain ⟨status, held⟩ := credible request user found
    exact move.role_kept held
  intro request user found
  cases move with
  | @validated other email password row known active =>
    rcases InsertionMap.get_set_cases found with ⟨_, rfl⟩ | ⟨_, before⟩
    · exact ⟨row.status, standing_of known⟩
    · exact kept before
  | loggedIn random pending same tokens => exact kept (InsertionMap.get_of_delete found)
  | _ => exact kept found

/-- The roles a call leaves, and the role it signs into a token, are all USER. -/
theorem Move.allUsers_iff (move : Move hashService service timed.call after answer)
    (credible : service.Credible) :
    (after.auth.AllUsers ∧
        ∀ payload tokens, answer = .issued payload tokens → payload.role = .user) ↔
      service.auth.AllUsers ∧ RegistersUser service timed answer after := by
  obtain ⟨now, call⟩ := timed
  have issues {payload : JwtPayload} {tokens : TokenPair}
      (same : after.auth.AllUsers ↔ service.auth.AllUsers)
      (ordinary : service.auth.AllUsers → payload.role = .user) :
      (after.auth.AllUsers ∧ ∀ other pair,
        AccountAnswer.issued payload tokens = .issued other pair → other.role = .user) ↔
      service.auth.AllUsers ∧ True := by
    rw [same]
    refine and_congr_right fun all => iff_of_true ?_ trivial
    rintro _ _ ⟨⟩
    exact ordinary all
  cases move with
  | registered dto id salt free added =>
    simp [Added.allUsers_iff added, RegistersUser, free]
  | validated request email password found active => simp [RegistersUser]
  | @loggedIn after request user random pending same tokens =>
    refine issues (allUsers_congr same) fun all => ?_
    obtain ⟨status, held⟩ := credible request user pending
    exact all _ _ _ held
  | signedIn dto ticket account random active row tokens =>
    exact issues (SocialRow.allUsers_iff row).1 (SocialRow.allUsers_iff row).2
  | refreshed random matched same tokens =>
    exact issues (allUsers_congr same) fun all => all _ _ _ (standing_of (redeemed_some matched))
  | statusChanged userId status changed =>
    refine and_congr ⟨fun all other role old held => ?_, fun all other role new held => ?_⟩
      (by simp [RegistersUser])
    · have moved : Move hashService _ _ _ _ := .statusChanged userId status changed
      obtain ⟨status, later⟩ := moved.role_kept held
      exact all other role _ later
    · rw [changed] at held
      split at held
      · rename_i here
        obtain ⟨old, before, same⟩ := Option.map_eq_some_iff.mp held
        rw [← (Prod.mk.inj same).1]
        exact all userId _ _ before
      · exact all other role new held
  | quiet same silent unregistered handled refused =>
    refine and_congr (allUsers_congr same)
      (iff_of_true (fun payload tokens told => absurd told (silent payload tokens)) ?_)
    cases call with
    | register dto id salt => exact fun free => absurd free (unregistered dto id salt rfl)
    | _ => trivial

end Moves

section Runs
variable {hashService : HashService} {jwtService : JwtService} {clientId : Option String}
  {rows : List User} {permit : Machine.Permit AccountService TimedAccount AccountAnswer}
  {past : List (TimedAccount × AccountAnswer)} {service : AccountService}

theorem initial_keyed (rows : List User) : (initial rows).auth.Keyed := by
  have loaded : ∀ id user, (initial rows).auth.users.get id = some user → user.id = id := by
    refine InsertionMap.get_loaded_all ?_ rows ?_
    · exact fun row => rfl
    · intro id user found
      cases found
  exact loaded

theorem run_keyed (run : (machine hashService jwtService clientId rows).Run permit past service) :
    service.auth.Keyed :=
  run.invariant (fun _ service => service.auth.Keyed) (initial_keyed rows)
    fun _ keyed _ moved => (step_moves keyed moved).1

/-- Tokens go to active users alone exactly when neither a refresh token nor a validated
    login outlives the active status of its user. -/
theorem tokens_while_active_iff (past : List (TimedAccount × AccountAnswer)) :
    (machine hashService jwtService clientId rows).Each permit IssuedWhileActive past ↔
      (machine hashService jwtService clientId rows).Each permit (StillActive hashService) past :=
  Machine.each_congr fun before _ moved =>
    (step_moves (run_keyed before) moved).2.issuedWhileActive_iff (run_keyed before)

theorem run_credible
    (run : (machine hashService jwtService clientId rows).Run permit past service) :
    service.Credible :=
  run.invariant (fun _ service => service.Credible) (by simp [Credible, machine, initial])
    fun before credible _ moved => (step_moves (run_keyed before) moved).2.credible credible

/-- Nobody ever carries a role but USER exactly when no row did at the start and no
    registration that went through asked for another. -/
theorem users_only_iff (isEmail : String → Bool)
    (run : (machine hashService jwtService clientId rows).Run (Admitted isEmail) past service) :
    UsersOnly past service ↔
      (∀ id user, (initial rows).auth.users.get id = some user → user.role = .user) ∧
      (machine hashService jwtService clientId rows).Each (Admitted isEmail) RegistersUser
        past := by
  refine run.invariant (fun past service => UsersOnly past service ↔ _ ∧
    (machine hashService jwtService clientId rows).Each (Admitted isEmail) RegistersUser past) ?_ ?_
  · simp [UsersOnly, Machine.each_nil, machine]
  · intro past service timed after answer before known ok moved
    have move := (step_moves (run_keyed before) moved).2.allUsers_iff (run_credible before)
    rw [allUsers_iff, allUsers_iff] at move
    rw [before.each_cons ok moved, and_left_comm, ← known, UsersOnly, List.forall_mem_cons,
      ← and_assoc, move, UsersOnly]
    constructor
    · rintro ⟨⟨rows, named⟩, tokens⟩
      exact ⟨named, rows, tokens⟩
    · rintro ⟨named, rows, tokens⟩
      exact ⟨⟨rows, named⟩, tokens⟩

end Runs

/-- Alice logs in and is suspended; her refresh token still buys a new pair. -/
def suspendedHistory : List (TimedAccount × AccountAnswer) :=
  [(⟨4, .refreshTokens "alice" "r1" ⟨"id-r2", "r2", "salt"⟩⟩,
      .issued ⟨"alice", "alice@example.com", .user, "id-r2"⟩ ⟨"id-r2", "r2"⟩),
   (⟨3, .changeStatus "alice" .suspended⟩, .statusChanged),
   (⟨2, .login 1 ⟨"id-r1", "r1", "salt"⟩⟩,
      .issued ⟨"alice", "alice@example.com", .user, "id-r1"⟩ ⟨"id-r1", "r1"⟩),
   (⟨1, .validateCredentials 1 "alice@example.com" "secret"⟩, .validated (some (toAuthUser alice)))]

theorem suspended_user_gets_tokens : ¬ ∀ past service,
    (machine saltless unsigned none [alice]).Run Machine.anything past service →
    (machine saltless unsigned none [alice]).Each Machine.anything IssuedWhileActive past := by
  intro always
  have replay : (Machine.play (machine saltless unsigned none [alice]) Machine.anything
      ⟨[], initial [alice]⟩ (suspendedHistory.reverse.map Prod.fst)).map
        (fun moment => (moment.past, moment.state.auth.standing "alice")) =
      some (suspendedHistory, some (.user, .suspended)) := by decide +kernel
  obtain ⟨⟨past, service⟩, played, shown⟩ := Option.map_eq_some_iff.mp replay
  obtain ⟨rfl, standing⟩ := Prod.mk.inj shown
  have run := Machine.play_run played
  obtain ⟨before, reached, ok, moved⟩ := run.newest
  obtain ⟨role, active⟩ := always _ _ run [] _ _ _ _ _ rfl reached ok moved _ _ rfl
  rw [standing] at active
  cases active

def hasAtSign (email : String) : Bool := email.toList.contains '@'

/-- Eve registers as an administrator, and her access token says so. -/
def eveHistory : List (TimedAccount × AccountAnswer) :=
  [(⟨2, .login 1 ⟨"id-r1", "r1", "salt"⟩⟩,
      .issued ⟨"eve", "eve@example.com", .admin, "id-r1"⟩ ⟨"id-r1", "r1"⟩),
   (⟨1, .validateCredentials 1 "eve@example.com" "password"⟩,
      .validated (some ⟨"eve", "eve@example.com", .admin⟩)),
   (⟨0, .register ⟨"eve@example.com", "password", some .admin⟩ "eve" "salt"⟩,
      .registered ⟨"eve", "eve@example.com", .admin⟩)]

theorem eve_becomes_admin : ¬ ∀ past service,
    (machine saltless unsigned none []).Run (Admitted hasAtSign) past service →
    UsersOnly past service := by
  intro always
  obtain ⟨service, run⟩ := Machine.replayed (machine saltless unsigned none [])
    (Admitted hasAtSign) eveHistory (by decide +kernel)
  have ordinary := (always _ _ run).2 _ List.mem_cons_self _ _ rfl
  cases ordinary

/-- A body that names no role. -/
def ordinaryHistory : List (TimedAccount × AccountAnswer) :=
  [(⟨0, .register ⟨"eve@example.com", "password", none⟩ "eve" "salt"⟩,
      .registered ⟨"eve", "eve@example.com", .user⟩)]

theorem users_only_iff_ordinary : ∃ service,
    (machine saltless unsigned none []).Run (Admitted hasAtSign) ordinaryHistory service ∧
    UsersOnly ordinaryHistory service := by
  obtain ⟨service, run⟩ := Machine.replayed (machine saltless unsigned none [])
    (Admitted hasAtSign) ordinaryHistory (by decide +kernel)
  refine ⟨service, run, (users_only_iff hasAtSign run).mpr ⟨?_, ?_⟩⟩
  · simp [initial]
  · intro later timed answer earlier before after split _ _ _
    cases later with
    | nil =>
      simp only [ordinaryHistory, List.nil_append, List.cons.injEq, Prod.mk.injEq] at split
      rw [← split.1.1]
      exact fun _ => rfl
    | cons e later => simp [ordinaryHistory] at split

end AccountService
end AstraPort.Auth
