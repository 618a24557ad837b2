import AstraPort.Auth.Service

/- Where a refresh token is: hashed in the row of its user, held by a call that has read
   that row and not cleared it yet, or being issued by a login. Tokens come to a place only
   by being drawn, and a step moves the token of one call at most. -/
namespace AstraPort.Auth
namespace AuthStage

/-- The user and the token a login is about to store. -/
def issuing : AuthStage → Option (String × String)
  | .hash issue => some (issue.user.id, issue.tokens.refreshToken)
  | .store issue _ => some (issue.user.id, issue.tokens.refreshToken)
  | _ => none

/-- The token whose redemption a login concludes. -/
def redeems : AuthStage → Option String
  | .hash issue => issue.redeems
  | .store issue _ => issue.redeems
  | _ => none

def presents : AuthStage → Option String
  | .readUser _ refreshToken => some refreshToken
  | .compare _ _ refreshToken => some refreshToken
  | .clear _ refreshToken => some refreshToken
  | stage => stage.redeems

/-- The row a refreshTokens call has found to match its token and not cleared yet. -/
def holding (hashService : HashService) : AuthStage → Option (String × String)
  | .compare user hashed refreshToken =>
    if hashService.compare refreshToken hashed then some (user.id, refreshToken) else none
  | .clear user refreshToken => some (user.id, refreshToken)
  | _ => none

/-- The user of a refreshTokens call from its matching read to its last write. -/
def redeeming (hashService : HashService) : AuthStage → Option String
  | .hash issue => issue.redeems.map fun _ => issue.user.id
  | .store issue _ => issue.redeems.map fun _ => issue.user.id
  | stage => (stage.holding hashService).map Prod.fst

/-- The stages of a refreshTokens call for a user. -/
def RefreshOf (userId : String) : AuthStage → Prop
  | .readUser id _ => id = userId
  | .compare user _ _ => user.id = userId
  | .clear user _ => user.id = userId
  | .hash issue => issue.redeems ≠ none ∧ issue.user.id = userId
  | .store issue _ => issue.redeems ≠ none ∧ issue.user.id = userId
  | _ => False

theorem holding_presents {hashService : HashService} {stage : AuthStage} {place : String × String}
    (holds : stage.holding hashService = some place) : stage.presents = some place.2 := by
  cases stage with
  | compare user hashed refreshToken =>
    simp only [holding] at holds
    split at holds
    · rw [← Option.some.inj holds]
      rfl
    · cases holds
  | clear user refreshToken =>
    rw [← Option.some.inj holds]
    rfl
  | _ => cases holds

theorem redeems_presents {stage : AuthStage} {refreshToken : String}
    (redeems : stage.redeems = some refreshToken) : stage.presents = some refreshToken := by
  cases stage with
  | hash issue => exact redeems
  | store issue hashed => exact redeems
  | _ => cases redeems

theorem redeems_releases {stage : AuthStage} {refreshToken : String}
    (redeems : stage.redeems = some refreshToken) (hashService : HashService) :
    stage.holding hashService = none := by
  cases stage with
  | hash issue => rfl
  | store issue hashed => rfl
  | _ => cases redeems

theorem holding_redeeming {hashService : HashService} {stage : AuthStage} {place : String × String}
    (holds : stage.holding hashService = some place) :
    stage.redeeming hashService = some place.1 := by
  cases stage with
  | compare user hashed refreshToken =>
    show Option.map Prod.fst _ = _
    rw [holds]
    rfl
  | clear user refreshToken =>
    rw [← Option.some.inj holds]
    rfl
  | _ => cases holds

end AuthStage

namespace AuthService

section Places
variable (hashService : HashService) (service : AuthService)

def LiveAt (place : String × String) : Prop :=
  ∃ user hashed, service.users.get place.1 = some user ∧ user.refreshTokenHash = some hashed ∧
    hashService.compare place.2 hashed = true

def Holds (task : Nat) (place : String × String) : Prop :=
  ∃ stage, service.tasks.get task = some stage ∧ stage.holding hashService = some place

def Issues (task : Nat) (place : String × String) : Prop :=
  ∃ stage, service.tasks.get task = some stage ∧ stage.issuing = some place

def Presents (task : Nat) (refreshToken : String) : Prop :=
  ∃ stage, service.tasks.get task = some stage ∧ stage.presents = some refreshToken

def Redeems (task : Nat) (refreshToken : String) : Prop :=
  ∃ stage, service.tasks.get task = some stage ∧ stage.redeems = some refreshToken

def Place (place : String × String) : Prop :=
  service.LiveAt hashService place ∨ (∃ task, service.Holds hashService task place) ∨
    ∃ task, service.Issues task place

/-- Rows stand under their ids, and hashes about to be stored are those of their tokens. -/
structure Sound : Prop where
  keyed : ∀ id user, service.users.get id = some user → user.id = id
  stored : ∀ task issue hashed, service.tasks.get task = some (.store issue hashed) →
    ∃ salt, hashed = hashService.hash salt issue.tokens.refreshToken

end Places

section Rows
variable {hashService : HashService} {service : AuthService}

@[simp] theorem tasks_updateRefreshTokenHash (userId : String) (hashed : Option String) :
    (service.updateRefreshTokenHash userId hashed).tasks = service.tasks := by
  unfold updateRefreshTokenHash
  split <;> rfl

theorem users_updateRefreshTokenHash {userId id : String} {hashed : Option String} {user : User}
    (found : (service.updateRefreshTokenHash userId hashed).users.get id = some user) :
    (id = userId ∧ ∃ old, service.users.get id = some old ∧
      user = { old with refreshTokenHash := hashed }) ∨
    (id ≠ userId ∧ service.users.get id = some user) := by
  unfold updateRefreshTokenHash at found
  split at found
  · rename_i old held
    rcases InsertionMap.get_set_cases found with ⟨same, written⟩ | others
    · exact Or.inl ⟨same, old, same ▸ held, written⟩
    · exact Or.inr others
  · rename_i missing
    refine Or.inr ⟨?_, found⟩
    rintro rfl
    rw [missing] at found
    cases found

theorem liveAt_updateRefreshTokenHash {userId : String} {hashed : Option String}
    {place : String × String}
    (live : (service.updateRefreshTokenHash userId hashed).LiveAt hashService place) :
    (place.1 = userId ∧ ∃ stored, hashed = some stored ∧
      hashService.compare place.2 stored = true) ∨
    (place.1 ≠ userId ∧ service.LiveAt hashService place) := by
  obtain ⟨user, stored, found, present, valid⟩ := live
  rcases users_updateRefreshTokenHash found with ⟨same, old, _, rfl⟩ | ⟨ne, held⟩
  · exact Or.inl ⟨same, stored, present, valid⟩
  · exact Or.inr ⟨ne, user, stored, held, present, valid⟩

theorem liveAt_clearRefreshTokenHash {userId : String} {place : String × String}
    (live : (service.updateRefreshTokenHash userId none).LiveAt hashService place) :
    place.1 ≠ userId ∧ service.LiveAt hashService place := by
  rcases liveAt_updateRefreshTokenHash live with ⟨_, stored, written, _⟩ | kept
  · cases written
  · exact kept

theorem Sound.updateRefreshTokenHash (sound : service.Sound hashService) (userId : String)
    (hashed : Option String) : (service.updateRefreshTokenHash userId hashed).Sound hashService := by
  refine ⟨?_, fun task issue stored running =>
    sound.stored task issue stored (by simpa using running)⟩
  intro id user found
  rcases users_updateRefreshTokenHash found with ⟨_, old, held, rfl⟩ | ⟨_, held⟩
  · exact sound.keyed id old held
  · exact sound.keyed id user held

theorem Sound.atStage (sound : service.Sound hashService) (task : Nat) {stage : AuthStage}
    (stored : ∀ issue hashed, stage = .store issue hashed →
      ∃ salt, hashed = hashService.hash salt issue.tokens.refreshToken) :
    (service.atStage task stage).Sound hashService := by
  refine ⟨sound.keyed, ?_⟩
  intro other issue hashed running
  rcases InsertionMap.get_set_cases running with ⟨_, written⟩ | ⟨_, before⟩
  · exact stored issue hashed written.symm
  · exact sound.stored other issue hashed before

theorem Sound.withoutTask (sound : service.Sound hashService) (task : Nat) :
    (service.withoutTask task).Sound hashService := by
  refine ⟨sound.keyed, ?_⟩
  exact fun other issue hashed running =>
    sound.stored other issue hashed (InsertionMap.get_of_delete running)

end Rows

/-- Tokens a call draws, and tokens it shows. -/
def draws : AuthCall → List String
  | .login _ _ random => [random.token]
  | .proceed _ random => [random.token]
  | _ => []

def shows : AuthCall → List String
  | .refreshTokens _ _ refreshToken => [refreshToken]
  | _ => []

/-- A refreshTokens call takes up the token of a row only while no other call holds it, and
    a logout ends only while no refreshTokens call of its user is past its matching read. -/
def Unshared (hashService : HashService) (service : AuthService) : AuthStage → Prop
  | .readUser userId refreshToken =>
    (∃ user ∈ service.users.get userId, ∃ hashed ∈ user.refreshTokenHash,
      hashService.compare refreshToken hashed = true) →
    ∀ stage ∈ service.tasks.values, ∀ place ∈ stage.holding hashService, place.2 ≠ refreshToken
  | .forget userId => ∀ stage ∈ service.tasks.values, stage.redeeming hashService ≠ some userId
  | _ => True

def NotShared (hashService : HashService) (service : AuthService) : AuthCall → Prop
  | .proceed task _ => ∀ stage ∈ service.tasks.get task, service.Unshared hashService stage
  | _ => True

/-- What a step does to the call it moves on, and to the tokens. -/
structure Change (hashService : HashService) (service : AuthService) (call : AuthCall)
    (after : AuthService) (answer : AuthAnswer) (next : Option AuthStage) : Prop where
  moved : ∀ other, after.tasks.get other =
    if other = call.task then next else service.tasks.get other
  live : ∀ place, after.LiveAt hashService place →
    service.LiveAt hashService place ∨ (service.Issues call.task place ∧ next = none)
  holding : ∀ stage ∈ next, ∀ place, stage.holding hashService = some place →
    (service.LiveAt hashService place ∧
      ∀ task other, service.Holds hashService task other → other.2 ≠ place.2) ∨
    service.Holds hashService call.task place
  issuing : ∀ stage ∈ next, ∀ place, stage.issuing = some place →
    place.2 ∈ draws call ∨ service.Issues call.task place
  presents : ∀ stage ∈ next, ∀ refreshToken, stage.presents = some refreshToken →
    refreshToken ∈ shows call ∨ service.Presents call.task refreshToken
  redeems : ∀ stage ∈ next, ∀ refreshToken, stage.redeems = some refreshToken →
    service.Redeems call.task refreshToken ∨
    ∃ id, service.Holds hashService call.task (id, refreshToken) ∧
      ¬ after.LiveAt hashService (id, refreshToken)
  refreshed : ∀ refreshToken tokens, answer = .refreshed refreshToken tokens →
    next = none ∧ ∃ stage id, service.tasks.get call.task = some stage ∧
      stage.redeems = some refreshToken ∧ stage.issuing = some (id, tokens.refreshToken) ∧
      stage.redeeming hashService = some id
  accepted : ∀ refreshToken, answer = .accepted refreshToken →
    ∃ id, service.Holds hashService call.task (id, refreshToken)

section Changes
variable {hashService : HashService} {jwtService : JwtService} {service after : AuthService}
  {now : Nat} {call : AuthCall} {answer : AuthAnswer}

theorem tasks_atStage (service : AuthService) (task : Nat) (stage : AuthStage) (other : Nat) :
    (service.atStage task stage).tasks.get other =
      if other = task then some stage else service.tasks.get other :=
  InsertionMap.get_set service.tasks task other stage

theorem tasks_withoutTask (service : AuthService) (task other : Nat) :
    (service.withoutTask task).tasks.get other =
      if other = task then none else service.tasks.get other := by
  unfold withoutTask
  split
  · rename_i same
    rw [same, InsertionMap.get_delete_self]
  · rename_i ne
    exact InsertionMap.get_delete_ne _ ne

/- A call that moves on and leaves the rows as they are. -/
theorem Change.goes {stage : AuthStage} (moved : ∀ other, after.tasks.get other =
      if other = call.task then some stage else service.tasks.get other)
    (rows : after.users = service.users)
    (holding : ∀ place, stage.holding hashService = some place →
      (service.LiveAt hashService place ∧
        ∀ task other, service.Holds hashService task other → other.2 ≠ place.2) ∨
      service.Holds hashService call.task place)
    (issuing : ∀ place, stage.issuing = some place →
      place.2 ∈ draws call ∨ service.Issues call.task place)
    (presents : ∀ refreshToken, stage.presents = some refreshToken →
      refreshToken ∈ shows call ∨ service.Presents call.task refreshToken)
    (redeems : ∀ refreshToken, stage.redeems = some refreshToken →
      service.Redeems call.task refreshToken)
    (accepted : ∀ refreshToken, answer = .accepted refreshToken →
      ∃ id, service.Holds hashService call.task (id, refreshToken))
    (unfinished : ∀ refreshToken tokens, answer ≠ .refreshed refreshToken tokens) :
    Change hashService service call after answer (some stage) := by
  have only : ∀ {other}, other ∈ some stage → other = stage := fun same => (Option.some.inj same).symm
  refine ⟨moved, ?_, ?_, ?_, ?_, ?_, ?_, accepted⟩
  · intro place live
    rw [LiveAt, rows] at live
    exact Or.inl live
  · intro other member place holds
    exact holding place (only member ▸ holds)
  · intro other member place issues
    exact issuing place (only member ▸ issues)
  · intro other member refreshToken presented
    exact presents refreshToken (only member ▸ presented)
  · intro other member refreshToken redeemed
    exact Or.inl (redeems refreshToken (only member ▸ redeemed))
  · intro refreshToken tokens told
    exact absurd told (unfinished refreshToken tokens)

/- A call that ends. -/
theorem Change.ends (moved : ∀ other, after.tasks.get other =
      if other = call.task then none else service.tasks.get other)
    (live : ∀ place, after.LiveAt hashService place →
      service.LiveAt hashService place ∨ service.Issues call.task place)
    (refreshed : ∀ refreshToken tokens, answer = .refreshed refreshToken tokens →
      ∃ stage id, service.tasks.get call.task = some stage ∧
        stage.redeems = some refreshToken ∧ stage.issuing = some (id, tokens.refreshToken) ∧
        stage.redeeming hashService = some id)
    (unaccepted : ∀ refreshToken, answer ≠ .accepted refreshToken) :
    Change hashService service call after answer none := by
  refine ⟨moved, fun place now_live => (live place now_live).imp_right fun issued => ⟨issued, rfl⟩,
    by simp, by simp, by simp, by simp,
    fun refreshToken tokens told => ⟨rfl, refreshed _ _ told⟩, ?_⟩
  intro refreshToken told
  exact absurd told (unaccepted refreshToken)

theorem logoutStage_cases (jwtService : JwtService) (userId accessToken : String) :
    (∃ jti expiresAt, logoutStage jwtService userId accessToken = .revoke userId jti expiresAt) ∨
      logoutStage jwtService userId accessToken = .forget userId := by
  unfold logoutStage
  split
  · split
    · exact Or.inl ⟨_, _, rfl⟩
    · exact Or.inr rfl
  · exact Or.inr rfl

theorem Move.change (move : Move hashService jwtService service now call after answer)
    (sound : service.Sound hashService)
    (unshared : service.NotShared hashService call) :
    ∃ next, Change hashService service call after answer next := by
  cases move with
  | loggingIn user random free =>
    refine ⟨_, .goes (tasks_atStage _ _ _) rfl (by simp [AuthStage.holding]) ?_
      (by simp [AuthStage.presents, AuthStage.redeems, issue])
      (by simp [AuthStage.redeems, issue]) (by simp) (by simp)⟩
    intro place issues
    rw [← Option.some.inj issues]
    exact Or.inl List.mem_cons_self
  | refreshing userId refreshToken free =>
    refine ⟨_, .goes (tasks_atStage _ _ _) rfl (by simp [AuthStage.holding])
      (by simp [AuthStage.issuing]) ?_ (by simp [AuthStage.redeems]) (by simp) (by simp)⟩
    intro other presented
    rw [← Option.some.inj presented]
    exact Or.inl List.mem_cons_self
  | loggingOut userId accessToken free =>
    refine ⟨_, .goes (tasks_atStage _ _ _) rfl ?_ ?_ ?_ ?_ (by simp) (by simp)⟩ <;>
    rcases logoutStage_cases jwtService userId accessToken with ⟨jti, expiresAt, shown⟩ | shown <;>
    simp [shown, AuthStage.holding, AuthStage.issuing, AuthStage.presents, AuthStage.redeems]
  | @read task random userId refreshToken user hashed running found present =>
    refine ⟨_, .goes (tasks_atStage _ _ _) rfl ?_ (by simp [AuthStage.issuing]) ?_
      (by simp [AuthStage.redeems]) (by simp) (by simp)⟩
    · intro place holds
      simp only [AuthStage.holding] at holds
      split at holds
      · rename_i valid
        obtain rfl := Option.some.inj holds
        have same := sound.keyed userId user found
        refine Or.inl ⟨⟨user, hashed, same ▸ found, present, valid⟩, ?_⟩
        rintro other place ⟨stage, runs, held⟩
        exact unshared _ running ⟨user, found, hashed, present, valid⟩ stage
          ((InsertionMap.mem_values _).mpr ⟨other, runs⟩) place held
      · cases holds
    · intro other presented
      exact Or.inr ⟨_, running, presented⟩
  | @accepted task random user hashed refreshToken running valid =>
    have holds : service.Holds hashService task (user.id, refreshToken) :=
      ⟨_, running, by simp [AuthStage.holding, valid]⟩
    refine ⟨_, .goes (tasks_atStage _ _ _) rfl ?_ (by simp [AuthStage.issuing]) ?_
      (by simp [AuthStage.redeems]) ?_ (by simp)⟩
    · intro place held
      rw [← Option.some.inj held]
      exact Or.inr holds
    · intro other presented
      exact Or.inr ⟨_, running, presented⟩
    · intro other told
      rw [← AuthAnswer.accepted.inj told]
      exact ⟨user.id, holds⟩
  | @cleared task random user refreshToken running =>
    have only : ∀ {stage}, stage ∈ some (AuthStage.hash
        (issue jwtService (toAuthUser user) random (some refreshToken) now)) → stage = _ :=
      fun same => (Option.some.inj same).symm
    refine ⟨some (.hash (issue jwtService (toAuthUser user) random (some refreshToken) now)),
      ⟨?_, ?_, ?_, ?_, ?_, ?_, by simp, by simp⟩⟩
    · intro other
      rw [tasks_atStage, tasks_updateRefreshTokenHash]
      rfl
    · intro place live
      exact Or.inl (liveAt_clearRefreshTokenHash live).2
    · intro stage member place holds
      rw [only member] at holds
      cases holds
    · intro stage member place issues
      rw [only member] at issues
      rw [← Option.some.inj issues]
      exact Or.inl List.mem_cons_self
    · intro stage member other presented
      rw [only member] at presented
      exact Or.inr ⟨_, running, presented⟩
    · intro stage member other redeemed
      rw [only member] at redeemed
      obtain rfl := Option.some.inj redeemed
      refine Or.inr ⟨user.id, ⟨_, running, rfl⟩, ?_⟩
      intro live
      exact (liveAt_clearRefreshTokenHash live).1 rfl
  | @hashed task random issue running =>
    refine ⟨_, .goes (tasks_atStage _ _ _) rfl (by simp [AuthStage.holding]) ?_ ?_ ?_ (by simp)
      (by simp)⟩
    · intro place issues
      exact Or.inr ⟨_, running, issues⟩
    · intro refreshToken presented
      exact Or.inr ⟨_, running, presented⟩
    · intro refreshToken redeemed
      exact ⟨_, running, redeemed⟩
  | @stored task random issue hashed running =>
    refine ⟨none, .ends ?_ ?_ ?_ ?_⟩
    · intro other
      rw [tasks_withoutTask, tasks_updateRefreshTokenHash]
      rfl
    · intro place live
      rcases liveAt_updateRefreshTokenHash live with
        ⟨same, stored, written, valid⟩ | ⟨_, before⟩
      · obtain rfl := Option.some.inj written
        obtain ⟨salt, rfl⟩ := sound.stored task issue hashed running
        have token := (hashService.ideal salt place.2 _).mp valid
        refine Or.inr ⟨_, running, ?_⟩
        rw [AuthStage.issuing, ← same, ← token]
      · exact Or.inl before
    · intro refreshToken tokens told
      unfold finish at told
      split at told
      · cases told
      · rename_i redeemed present
        obtain ⟨rfl, rfl⟩ := AuthAnswer.refreshed.inj told
        exact ⟨_, issue.user.id, running, present, rfl, by simp [AuthStage.redeeming, present]⟩
    · intro refreshToken told
      unfold finish at told
      split at told <;> cases told
  | @revoking call userId jti expiresAt running revokedTokens written =>
    exact ⟨_, .goes (tasks_atStage _ _ _) rfl (by simp [AuthStage.holding])
      (by simp [AuthStage.issuing]) (by simp [AuthStage.presents, AuthStage.redeems])
      (by simp [AuthStage.redeems]) (by simp) (by simp)⟩
  | @forgot task random userId running =>
    refine ⟨none, .ends ?_ ?_ (by simp) (by simp)⟩
    · intro other
      rw [tasks_withoutTask, tasks_updateRefreshTokenHash]
      rfl
    · intro place live
      exact Or.inl (liveAt_clearRefreshTokenHash live).2
  | ended running thrown =>
    refine ⟨none, .ends ?_ (fun _ live => Or.inl live) (by simp) (by simp)⟩
    intro other
    rw [tasks_withoutTask]

theorem Move.sound (move : Move hashService jwtService service now call after answer)
    (sound : service.Sound hashService) : after.Sound hashService := by
  cases move with
  | loggingIn user random free => exact sound.atStage _ nofun
  | refreshing userId refreshToken free => exact sound.atStage _ nofun
  | loggingOut userId accessToken free =>
    rcases logoutStage_cases jwtService userId accessToken with ⟨jti, expiresAt, revokes⟩ | forgets
    · rw [revokes]
      exact sound.atStage _ nofun
    · rw [forgets]
      exact sound.atStage _ nofun
  | read running found present => exact sound.atStage _ nofun
  | accepted running valid => exact sound.atStage _ nofun
  | cleared running => exact (sound.updateRefreshTokenHash _ _).atStage _ nofun
  | hashed running =>
    apply sound.atStage _
    rintro issue hashed ⟨⟩
    exact ⟨_, rfl⟩
  | stored running => exact (sound.updateRefreshTokenHash _ _).withoutTask _
  | revoking running revokedTokens written =>
    have same_rows : ({ service with revokedTokens := revokedTokens } : AuthService).Sound
        hashService := ⟨sound.keyed, sound.stored⟩
    exact same_rows.atStage _ nofun
  | forgot running => exact (sound.updateRefreshTokenHash _ _).withoutTask _
  | ended running thrown => exact sound.withoutTask _

theorem Change.gone (change : Change hashService service call after answer none) :
    after.tasks.get call.task = none := (change.moved call.task).trans (if_pos rfl)

variable {next : Option AuthStage}

/- A stage after the step is the next one of the call that moved, or was there before. -/
theorem Change.stage (change : Change hashService service call after answer next) {task : Nat}
    {stage : AuthStage} (running : after.tasks.get task = some stage) :
    (task = call.task ∧ stage ∈ next) ∨
      (task ≠ call.task ∧ service.tasks.get task = some stage) := by
  rw [change.moved] at running
  split at running
  · rename_i same
    exact Or.inl ⟨same, running⟩
  · rename_i ne
    exact Or.inr ⟨ne, running⟩

theorem Change.holds (change : Change hashService service call after answer next) {task : Nat}
    {place : String × String} (holds : after.Holds hashService task place) :
    (task = call.task ∧ service.LiveAt hashService place ∧
      ∀ task other, service.Holds hashService task other → other.2 ≠ place.2) ∨
    service.Holds hashService task place := by
  obtain ⟨stage, running, holding⟩ := holds
  rcases change.stage running with ⟨rfl, member⟩ | ⟨_, before⟩
  · exact (change.holding stage member place holding).imp_left fun taken => ⟨rfl, taken⟩
  · exact Or.inr ⟨stage, before, holding⟩

theorem Change.issues (change : Change hashService service call after answer next) {task : Nat}
    {place : String × String} (issues : after.Issues task place) :
    (task = call.task ∧ place.2 ∈ draws call) ∨ service.Issues task place := by
  obtain ⟨stage, running, issuing⟩ := issues
  rcases change.stage running with ⟨rfl, member⟩ | ⟨_, before⟩
  · exact (change.issuing stage member place issuing).imp_left fun drawn => ⟨rfl, drawn⟩
  · exact Or.inr ⟨stage, before, issuing⟩

theorem Change.shown (change : Change hashService service call after answer next) {task : Nat}
    {refreshToken : String} (presents : after.Presents task refreshToken) :
    refreshToken ∈ shows call ∨ service.Presents task refreshToken := by
  obtain ⟨stage, running, presented⟩ := presents
  rcases change.stage running with ⟨rfl, member⟩ | ⟨_, before⟩
  · exact change.presents stage member refreshToken presented
  · exact Or.inr ⟨stage, before, presented⟩

theorem Change.redeemed (change : Change hashService service call after answer next) {task : Nat}
    {refreshToken : String} (redeems : after.Redeems task refreshToken) :
    service.Redeems task refreshToken ∨ (task = call.task ∧
      ∃ id, service.Holds hashService task (id, refreshToken) ∧
        ¬ after.LiveAt hashService (id, refreshToken)) := by
  obtain ⟨stage, running, redeemed⟩ := redeems
  rcases change.stage running with ⟨rfl, member⟩ | ⟨_, before⟩
  · exact (change.redeems stage member refreshToken redeemed).imp_right fun held => ⟨rfl, held⟩
  · exact Or.inl ⟨stage, before, redeemed⟩

/- Tokens come to a place only by being drawn. -/
theorem Change.place (change : Change hashService service call after answer next)
    {place : String × String} (placed : after.Place hashService place) :
    service.Place hashService place ∨ (place.2 ∈ draws call ∧ after.Issues call.task place) := by
  rcases placed with live | ⟨task, holds⟩ | ⟨task, issues⟩
  · rcases change.live place live with before | ⟨issued, _⟩
    · exact Or.inl (Or.inl before)
    · exact Or.inl (Or.inr (Or.inr ⟨_, issued⟩))
  · rcases change.holds holds with ⟨_, live, _⟩ | before
    · exact Or.inl (Or.inl live)
    · exact Or.inl (Or.inr (Or.inl ⟨task, before⟩))
  · rcases change.issues issues with ⟨rfl, drawn⟩ | before
    · exact Or.inr ⟨drawn, issues⟩
    · exact Or.inl (Or.inr (Or.inr ⟨task, before⟩))

end Changes
end AuthService
end AstraPort.Auth
