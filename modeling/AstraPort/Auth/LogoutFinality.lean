import AstraPort.Auth.RefreshTokens

/- What is left of a redemption when a logout of its user has ended: calls that are bound
   to fail, and tokens that are nowhere any more. -/
namespace AstraPort.Auth

/-- A refreshTokens call of the user that cannot be accepted any more. -/
def AuthStage.Doomed (hashService : HashService) (service : AuthService) (userId : String) :
    AuthStage → Prop
  | .readUser id refreshToken =>
    id = userId ∧ ¬ service.Place hashService (userId, refreshToken)
  | .compare _ hashed refreshToken => hashService.compare refreshToken hashed = false
  | _ => False

theorem AuthStage.RefreshOf.redeeming {hashService : HashService} {stage : AuthStage}
    {userId id : String} (refresh : stage.RefreshOf userId)
    (redeeming : stage.redeeming hashService = some id) : id = userId := by
  cases stage with
  | readUser other refreshToken => cases redeeming
  | compare user hashed refreshToken =>
    obtain ⟨place, holds, rfl⟩ := Option.map_eq_some_iff.mp redeeming
    simp only [holding] at holds
    split at holds
    · rw [← Option.some.inj holds]
      exact refresh
    · cases holds
  | clear user refreshToken =>
    rw [← Option.some.inj redeeming]
    exact refresh
  | hash issue =>
    obtain ⟨token, _, rfl⟩ := Option.map_eq_some_iff.mp redeeming
    exact refresh.2
  | store issue hashed =>
    obtain ⟨token, _, rfl⟩ := Option.map_eq_some_iff.mp redeeming
    exact refresh.2
  | revoke other jti expiresAt => cases refresh
  | forget other => cases refresh

/- Past its matching read a redemption holds the token or is about to conclude. -/
theorem AuthStage.RefreshOf.doomed {hashService : HashService} {service : AuthService}
    {stage : AuthStage} {userId : String} (refresh : stage.RefreshOf userId)
    (harmless : stage.redeeming hashService ≠ some userId)
    (placeless : ∀ token, stage.presents = some token →
      ¬ service.Place hashService (userId, token)) :
    stage.Doomed hashService service userId := by
  cases stage with
  | readUser id refreshToken => exact ⟨refresh, placeless refreshToken rfl⟩
  | compare user hashed refreshToken =>
    by_contra valid
    have valid := Bool.eq_true_of_not_eq_false valid
    exact harmless (by simp [AuthStage.redeeming, AuthStage.holding, valid,
      show user.id = userId from refresh])
  | clear user refreshToken => exact absurd (congrArg some refresh) harmless
  | hash issue =>
    obtain ⟨token, redeems⟩ := Option.ne_none_iff_exists'.mp refresh.1
    exact absurd (by simp [AuthStage.redeeming, redeems, refresh.2]) harmless
  | store issue hashed =>
    obtain ⟨token, redeems⟩ := Option.ne_none_iff_exists'.mp refresh.1
    exact absurd (by simp [AuthStage.redeeming, redeems, refresh.2]) harmless
  | revoke other jti expiresAt => exact refresh.elim
  | forget other => exact refresh.elim

namespace AuthService

/-- The call of this name is a redemption begun for the user. -/
def Begun (userId : String) (past : List (TimedAuth × AuthAnswer)) (task : Nat) : Prop :=
  ∃ e ∈ past, ∃ refreshToken, e.1.call = .refreshTokens task userId refreshToken

/-- A redemption of the user, among those begun, has given out the token. -/
def Obtained (userId : String) (begun past : List (TimedAuth × AuthAnswer)) (token : String) :
    Prop :=
  ∃ e ∈ past, Begun userId begun e.1.call.task ∧
    ∃ redeemed tokens, e.2 = .refreshed redeemed tokens ∧ tokens.refreshToken = token

theorem Begun.mono {userId : String} {earlier past : List (TimedAuth × AuthAnswer)} {task : Nat}
    (within : ∀ e ∈ earlier, e ∈ past) (begun : Begun userId earlier task) :
    Begun userId past task := by
  obtain ⟨e, member, called⟩ := begun
  exact ⟨e, within e member, called⟩

theorem Obtained.mono {userId token : String} {earlier past : List (TimedAuth × AuthAnswer)}
    (within : ∀ e ∈ earlier, e ∈ past) (obtained : Obtained userId earlier earlier token) :
    Obtained userId past past token := by
  obtain ⟨e, member, begun, told⟩ := obtained
  exact ⟨e, within e member, begun.mono within, told⟩

/-- Calls keep their names and their users, and a token given out stays with its user. -/
structure Traced (hashService : HashService) (past : List (TimedAuth × AuthAnswer))
    (service : AuthService) : Prop where
  named : ∀ task stage, service.tasks.get task = some stage → task ∈ usedNames past
  exchanged : ∀ e ∈ past, e.1.call.task ∈ usedNames past
  begun : ∀ userId task stage, Begun userId past task → service.tasks.get task = some stage →
    stage.RefreshOf userId
  obtained_used : ∀ userId token, Obtained userId past past token → token ∈ usedTokens past
  obtained_stored : ∀ userId token, Obtained userId past past token →
    ∀ task place, service.Issues task place → place.2 ≠ token
  obtained_kept : ∀ userId token, Obtained userId past past token →
    ∀ place, service.Place hashService place → place.2 = token → place.1 = userId

section Steps
variable {hashService : HashService} {jwtService : JwtService} {service after : AuthService}
  {timed : TimedAuth} {answer : AuthAnswer} {next : Option AuthStage}
  {past : List (TimedAuth × AuthAnswer)}

theorem Begun.later {userId : String} {task : Nat} {e : TimedAuth × AuthAnswer}
    (begun : Begun userId (e :: past) task) :
    (∃ refreshToken, e.1.call = .refreshTokens task userId refreshToken) ∨
      Begun userId past task := by
  obtain ⟨old, member, called⟩ := begun
  rcases List.mem_cons.mp member with rfl | earlier
  · exact Or.inl called
  · exact Or.inr ⟨old, earlier, called⟩

theorem Begun.named {userId : String} {task : Nat} (begun : Begun userId past task) :
    task ∈ usedNames past := by
  obtain ⟨e, member, refreshToken, called⟩ := begun
  refine List.mem_flatMap.mpr ⟨e, member, ?_⟩
  rw [called]
  exact List.mem_cons_self

theorem named_later {task : Nat} (used : task ∈ usedNames past) (e : TimedAuth × AuthAnswer) :
    task ∈ usedNames (e :: past) := by
  rw [usedNames, List.flatMap_cons]
  exact List.mem_append_right _ used

theorem named_now {task : Nat} (named : task ∈ names timed.call) :
    task ∈ usedNames ((timed, answer) :: past) := by
  rw [usedNames, List.flatMap_cons]
  exact List.mem_append_left _ named

/- A step begins a call or moves on one that is under way. -/
theorem Move.known {now : Nat} {call : AuthCall}
    (move : Move hashService jwtService service now call after answer) :
    call.task ∈ names call ∨ ∃ old, service.tasks.get call.task = some old := by
  cases move with
  | loggingIn user random free => exact Or.inl List.mem_cons_self
  | refreshing userId refreshToken free => exact Or.inl List.mem_cons_self
  | loggingOut userId accessToken free => exact Or.inl List.mem_cons_self
  | read running found present => exact Or.inr ⟨_, running⟩
  | accepted running valid => exact Or.inr ⟨_, running⟩
  | cleared running => exact Or.inr ⟨_, running⟩
  | hashed running => exact Or.inr ⟨_, running⟩
  | stored running => exact Or.inr ⟨_, running⟩
  | revoking running revokedTokens written => exact Or.inr ⟨_, running⟩
  | forgot running => exact Or.inr ⟨_, running⟩
  | ended running thrown => exact Or.inr ⟨_, running⟩

theorem Move.begins {now task : Nat} {userId refreshToken : String}
    (move : Move hashService jwtService service now (.refreshTokens task userId refreshToken) after
      answer) {stage : AuthStage} (running : after.tasks.get task = some stage) :
    stage = .readUser userId refreshToken ∨ ∃ old, service.tasks.get task = some old := by
  cases move with
  | refreshing userId refreshToken free =>
    rw [tasks_atStage, if_pos rfl] at running
    exact Or.inl (Option.some.inj running).symm
  | revoking before revokedTokens written => exact Or.inr ⟨_, before⟩
  | ended before thrown => exact Or.inr ⟨_, before⟩

/- A call that stays under way stays a redemption of its user. -/
theorem Move.continues {now : Nat} {call : AuthCall}
    (move : Move hashService jwtService service now call after answer)
    (sound : service.Sound hashService) {stage : AuthStage}
    (running : after.tasks.get call.task = some stage) :
    call.task ∈ names call ∨ ∃ old, service.tasks.get call.task = some old ∧
      ∀ userId, old.RefreshOf userId → stage.RefreshOf userId := by
  have here : ∀ {service : AuthService} {task : Nat} {other : AuthStage},
      (service.atStage task other).tasks.get task = some stage → other = stage := by
    intro service task other running
    rw [tasks_atStage, if_pos rfl] at running
    exact Option.some.inj running
  have gone : ∀ {service : AuthService} {task : Nat},
      (service.withoutTask task).tasks.get task ≠ some stage := by
    intro service task running
    rw [tasks_withoutTask, if_pos rfl] at running
    cases running
  cases move with
  | loggingIn user random free => exact Or.inl List.mem_cons_self
  | refreshing userId refreshToken free => exact Or.inl List.mem_cons_self
  | loggingOut userId accessToken free => exact Or.inl List.mem_cons_self
  | @read task random id refreshToken user hashed before found present =>
    obtain rfl := here running
    exact Or.inr ⟨_, before, fun userId refresh => (sound.keyed id user found).trans refresh⟩
  | accepted before valid =>
    obtain rfl := here running
    exact Or.inr ⟨_, before, fun userId refresh => refresh⟩
  | cleared before =>
    obtain rfl := here running
    exact Or.inr ⟨_, before, fun userId refresh => ⟨nofun, refresh⟩⟩
  | hashed before =>
    obtain rfl := here running
    exact Or.inr ⟨_, before, fun userId refresh => refresh⟩
  | stored before => exact absurd running gone
  | revoking before revokedTokens written =>
    exact Or.inr ⟨_, before, fun userId refresh => refresh.elim⟩
  | forgot before => exact absurd running gone
  | ended before thrown => exact absurd running gone

/- A token that was used before comes to no place again. -/
theorem Change.undrawn (change : Change hashService service timed.call after answer next)
    (drawn : ∀ token ∈ draws timed.call, token ∉ usedTokens past) {place : String × String}
    (used : place.2 ∈ usedTokens past) (placed : after.Place hashService place) :
    service.Place hashService place :=
  (change.place placed).resolve_right fun draw => drawn _ draw.1 used

/- A token is obtained at the last write of the call that issues it. -/
theorem Traced.obtained (traced : Traced hashService past service)
    (change : Change hashService service timed.call after answer next)
    (unused : ∀ task ∈ names timed.call, task ∉ usedNames past) {userId token : String}
    (obtained : Obtained userId ((timed, answer) :: past) ((timed, answer) :: past) token) :
    Obtained userId past past token ∨
      (next = none ∧ service.Issues timed.call.task (userId, token)) := by
  obtain ⟨e, member, begun, redeemed, tokens, told, rfl⟩ := obtained
  rcases List.mem_cons.mp member with rfl | earlier
  · obtain ⟨ended, stage, id, running, redeems, issuing, redeeming⟩ :=
      change.refreshed redeemed tokens told
    rcases begun.later with ⟨refreshToken, called⟩ | before
    · have fresh := unused timed.call.task (by
        rw [called]
        exact List.mem_cons_self)
      exact absurd (traced.named _ stage running) fresh
    · obtain rfl := (traced.begun userId _ stage before running).redeeming redeeming
      exact Or.inr ⟨ended, stage, running, issuing⟩
  · refine Or.inl ⟨e, earlier, ?_, redeemed, tokens, told, rfl⟩
    rcases begun.later with ⟨refreshToken, called⟩ | before
    · have fresh := unused e.1.call.task (by
        rw [show timed.call = _ from called]
        exact List.mem_cons_self)
      exact absurd (traced.exchanged e earlier) fresh
    · exact before

theorem Move.traced (move : Move hashService jwtService service timed.now timed.call after answer)
    (change : Change hashService service timed.call after answer next)
    (unused : ∀ task ∈ names timed.call, task ∉ usedNames past)
    (drawn : ∀ token ∈ draws timed.call, token ∉ usedTokens past)
    (single : SingleUse hashService past service) (traced : Traced hashService past service) :
    Traced hashService ((timed, answer) :: past) after := by
  have known : timed.call.task ∈ usedNames ((timed, answer) :: past) := by
    rcases move.known with named | ⟨old, running⟩
    · exact named_now named
    · exact named_later (traced.named _ old running) _
  refine ⟨?_, ?_, ?_, ?_, ?_, ?_⟩
  · intro task stage running
    rcases change.stage running with ⟨rfl, _⟩ | ⟨_, before⟩
    · exact known
    · exact named_later (traced.named task stage before) _
  · intro e member
    rcases List.mem_cons.mp member with rfl | earlier
    · exact known
    · exact named_later (traced.exchanged e earlier) _
  · intro userId task stage begun running
    rcases begun.later with ⟨refreshToken, called⟩ | begun_before
    · obtain ⟨now, call⟩ := timed
      obtain rfl : call = _ := called
      rcases move.begins running with rfl | ⟨old, before⟩
      · rfl
      · exact absurd (traced.named task old before) (unused task List.mem_cons_self)
    · rcases change.stage running with ⟨rfl, _⟩ | ⟨_, before⟩
      · rcases move.continues single.sound running with named | ⟨old, before, keeps⟩
        · exact absurd begun_before.named (unused _ named)
        · exact keeps userId (traced.begun userId _ old begun_before before)
      · exact traced.begun userId task stage begun_before before
  · intro userId token obtained
    rcases traced.obtained change unused obtained with before | ⟨_, issues⟩
    · exact used_later (traced.obtained_used userId token before) _
    · exact used_later (single.place_used _ (Or.inr (Or.inr ⟨_, issues⟩))) _
  · intro userId token obtained task place issues
    rcases traced.obtained change unused obtained with before | ⟨rfl, issued⟩ <;>
    rcases change.issues issues with ⟨_, draw⟩ | issues_before
    · rintro rfl
      exact drawn _ draw (traced.obtained_used userId _ before)
    · exact traced.obtained_stored userId token before task place issues_before
    · rintro rfl
      exact drawn _ draw (single.place_used (userId, _) (Or.inr (Or.inr ⟨_, issued⟩)))
    · intro same
      obtain rfl := single.issued_once _ _ place (userId, token) issues_before issued same
      obtain ⟨stage, running, _⟩ := issues
      rw [change.gone] at running
      cases running
  · intro userId token obtained place placed same
    rcases traced.obtained change unused obtained with before | ⟨_, issued⟩
    · have used := traced.obtained_used userId token before
      exact traced.obtained_kept userId token before place
        (change.undrawn drawn (same ▸ used) placed) same
    · have issued_place : service.Place hashService (userId, token) := Or.inr (Or.inr ⟨_, issued⟩)
      have used := single.place_used _ issued_place
      have placed_before := change.undrawn drawn (same ▸ used) placed
      rw [single.place_apart place (userId, token) placed_before issued_place same]

end Steps

/-- What a logout of the user leaves behind, and what does not happen later. -/
structure LoggedOut (hashService : HashService) (userId : String)
    (earlier later : List (TimedAuth × AuthAnswer)) (service : AuthService) : Prop where
  doomed : ∀ task stage, Begun userId earlier task → service.tasks.get task = some stage →
    stage.Doomed hashService service userId
  gone : ∀ token, Obtained userId earlier earlier token →
    ∀ place, service.Place hashService place → place.2 ≠ token
  unfinished : ∀ e ∈ later, ∀ redeemed tokens, e.2 = .refreshed redeemed tokens →
    ¬ Begun userId earlier e.1.call.task
  unaccepted : ∀ e ∈ later, ∀ token, e.2 = .accepted token → ¬ Obtained userId earlier earlier token

section Logout
variable {hashService : HashService} {jwtService : JwtService} {service after : AuthService}
  {timed : TimedAuth} {answer : AuthAnswer} {next : Option AuthStage} {userId : String}
  {past earlier later : List (TimedAuth × AuthAnswer)}

theorem Move.loggedOut {now : Nat} {call : AuthCall}
    (move : Move hashService jwtService service now call after answer)
    (told : answer = .loggedOut userId) : ∃ task random, call = .proceed task random ∧
      service.tasks.get task = some (.forget userId) ∧
      after = (service.updateRefreshTokenHash userId none).withoutTask task := by
  cases move with
  | @forgot task random other running =>
    obtain rfl := AuthAnswer.loggedOut.inj told
    exact ⟨task, random, rfl, running, rfl⟩
  | stored running =>
    unfold finish at told
    split at told <;> cases told
  | _ => cases told

/- With no redemption past its matching read, a logout leaves only tokens being issued. -/
theorem place_forgot {task : Nat} {token : String}
    (apart : ∀ stage ∈ service.tasks.values, stage.redeeming hashService ≠ some userId)
    (placed : ((service.updateRefreshTokenHash userId none).withoutTask task).Place hashService
      (userId, token)) : ∃ other, service.Issues other (userId, token) := by
  have before : ∀ {other : Nat} {stage : AuthStage},
      ((service.updateRefreshTokenHash userId none).withoutTask task).tasks.get other = some stage →
      service.tasks.get other = some stage := by
    intro other stage running
    rw [tasks_withoutTask, tasks_updateRefreshTokenHash] at running
    split at running
    · cases running
    · exact running
  rcases placed with live | ⟨other, stage, running, holding⟩ | ⟨other, stage, running, issuing⟩
  · exact absurd rfl (liveAt_clearRefreshTokenHash live).1
  · exact absurd (AuthStage.holding_redeeming holding)
      (apart stage ((InsertionMap.mem_values _).mpr ⟨other, before running⟩))
  · exact ⟨other, stage, before running, issuing⟩

theorem Move.loggedOut_leaves
    (move : Move hashService jwtService service timed.now timed.call after (.loggedOut userId))
    (change : Change hashService service timed.call after (.loggedOut userId) next)
    (drawn : ∀ token ∈ draws timed.call, token ∉ usedTokens past)
    (unshared : service.NotShared hashService timed.call)
    (single : SingleUse hashService past service) (traced : Traced hashService past service) :
    LoggedOut hashService userId past [] after := by
  obtain ⟨task, random, called, running, rfl⟩ := move.loggedOut rfl
  rw [called] at unshared
  have apart := unshared _ running
  refine ⟨?_, ?_, by simp, by simp⟩
  · intro other stage begun running'
    rw [tasks_withoutTask, tasks_updateRefreshTokenHash] at running'
    split at running'
    · cases running'
    · refine (traced.begun userId other stage begun running').doomed
        (apart stage ((InsertionMap.mem_values _).mpr ⟨other, running'⟩)) ?_
      intro token presented placed
      obtain ⟨issuer, issues⟩ := place_forgot apart placed
      exact (single.unborn issuer _ issues).2 other token ⟨stage, running', presented⟩ rfl
  · intro token obtained place placed same
    obtain rfl : place = (userId, token) := by
      have used := traced.obtained_used userId token obtained
      have placed_before := change.undrawn drawn (same ▸ used) placed
      exact Prod.ext (traced.obtained_kept userId token obtained place placed_before same) same
    obtain ⟨issuer, issues⟩ := place_forgot apart placed
    exact traced.obtained_stored userId token obtained issuer _ issues rfl

/- A doomed call that stays under way has its comparison still to fail. -/
theorem Move.doomed {now : Nat} {call : AuthCall}
    (move : Move hashService jwtService service now call after answer) {old stage : AuthStage}
    (before : service.tasks.get call.task = some old)
    (doomed : old.Doomed hashService service userId)
    (running : after.tasks.get call.task = some stage) :
    stage.Doomed hashService after userId := by
  have stands : ∀ {task : Nat} {other : AuthStage}, service.tasks.get task = some other →
      task = call.task → other.Doomed hashService service userId := by
    rintro task other found rfl
    rw [before] at found
    exact Option.some.inj found ▸ doomed
  cases move with
  | loggingIn user random free => exact absurd (free.symm.trans before) nofun
  | refreshing id refreshToken free => exact absurd (free.symm.trans before) nofun
  | loggingOut id accessToken free => exact absurd (free.symm.trans before) nofun
  | @read task random id refreshToken user hashed found row present =>
    obtain ⟨rfl, placeless⟩ := stands found rfl
    have shown := tasks_atStage service task (.compare user hashed refreshToken) task
    rw [if_pos rfl] at shown
    obtain rfl := Option.some.inj (shown.symm.trans running)
    by_contra valid
    exact placeless (Or.inl ⟨user, hashed, row, present, Bool.eq_true_of_not_eq_false valid⟩)
  | accepted found valid =>
    have invalid := stands found rfl
    rw [AuthStage.Doomed, valid] at invalid
    cases invalid
  | cleared found => exact (stands found rfl).elim
  | hashed found => exact (stands found rfl).elim
  | stored found => exact (stands found rfl).elim
  | revoking found revokedTokens written => exact (stands found rfl).elim
  | forgot found => exact (stands found rfl).elim
  | @ended call other found thrown =>
    have shown := tasks_withoutTask service call.task call.task
    rw [if_pos rfl, running] at shown
    cases shown

theorem Move.loggedOut_stays
    (move : Move hashService jwtService service timed.now timed.call after answer)
    (change : Change hashService service timed.call after answer next)
    (unused : ∀ task ∈ names timed.call, task ∉ usedNames past)
    (drawn : ∀ token ∈ draws timed.call, token ∉ usedTokens past)
    (single : SingleUse hashService past service) (traced : Traced hashService past service)
    (within : ∀ e ∈ earlier, e ∈ past)
    (out : LoggedOut hashService userId earlier later service) :
    LoggedOut hashService userId earlier ((timed, answer) :: later) after := by
  refine ⟨?_, ?_, ?_, ?_⟩
  · intro task stage begun running
    rcases change.stage running with ⟨rfl, _⟩ | ⟨_, before⟩
    · rcases move.known with named | ⟨old, before⟩
      · exact absurd (begun.mono within).named (unused _ named)
      · exact move.doomed before (out.doomed _ old begun before) running
    · have doomed := out.doomed task stage begun before
      cases stage with
      | readUser id refreshToken =>
        have used := single.presented_used task refreshToken ⟨_, before, rfl⟩
        exact ⟨doomed.1, fun placed => doomed.2 (change.undrawn drawn used placed)⟩
      | compare user hashed refreshToken => exact doomed
      | _ => exact doomed.elim
  · intro token obtained place placed same
    have used := traced.obtained_used userId token (obtained.mono within)
    exact out.gone token obtained place (change.undrawn drawn (same ▸ used) placed) same
  · intro e member redeemed tokens told begun
    rcases List.mem_cons.mp member with rfl | before
    · obtain ⟨_, stage, id, running, redeems, _⟩ := change.refreshed redeemed tokens told
      have doomed := out.doomed _ stage begun running
      cases stage with
      | readUser id refreshToken => cases redeems
      | compare user hashed refreshToken => cases redeems
      | _ => exact doomed.elim
    · exact out.unfinished e before redeemed tokens told begun
  · intro e member token told obtained
    rcases List.mem_cons.mp member with rfl | before
    · obtain ⟨id, holds⟩ := change.accepted token told
      exact out.gone token obtained _ (Or.inr (Or.inl ⟨_, holds⟩)) rfl
    · exact out.unaccepted e before token told obtained

end Logout

/-- Every token is redeemed by one call at most. -/
def SingleUseTokens (hashService : HashService)
    (permit : Machine.Permit AuthService TimedAuth AuthAnswer) : Prop :=
  ∀ jwtService rows past service,
    (machine hashService jwtService rows).Run permit past service →
    ∀ token, (past.filter (refreshes token)).length ≤ 1

/-- A token obtained from a redemption begun before a logout of its user ended is not
    accepted after that logout. -/
def LogoutFinal (hashService : HashService)
    (permit : Machine.Permit AuthService TimedAuth AuthAnswer) : Prop :=
  ∀ jwtService rows past service,
    (machine hashService jwtService rows).Run permit past service →
    ∀ later earlier timed userId, past = later ++ (timed, .loggedOut userId) :: earlier →
    ∀ token, Obtained userId earlier past token → ∀ e ∈ later, e.2 ≠ .accepted token

section Runs
variable {hashService : HashService} {jwtService : JwtService} {rows : List User}
  {past : List (TimedAuth × AuthAnswer)} {service : AuthService}

theorem traced_run
    (run : (machine hashService jwtService rows).Run (Rotated hashService) past service) :
    Traced hashService past service := by
  refine run.invariant (Traced hashService) ?_ ?_
  · refine ⟨?_, by simp, ?_, ?_, ?_, ?_⟩
    · intro task stage running
      cases running
    · intro userId task stage begun running
      cases running
    · rintro userId token ⟨e, member, _⟩
      cases member
    · rintro userId token ⟨e, member, _⟩
      cases member
    · rintro userId token ⟨e, member, _⟩
      cases member
  · intro past service timed after answer before traced permitted moved
    have single := singleUse_run before
    have move := step_moves moved
    obtain ⟨next, change⟩ := move.change single.sound permitted.2
    exact move.traced change permitted.1.1 permitted.1.2.1 single traced

theorem loggedOut_run
    (run : (machine hashService jwtService rows).Run (Rotated hashService) past service)
    {later earlier : List (TimedAuth × AuthAnswer)} {timed : TimedAuth} {userId : String}
    (split : past = later ++ (timed, .loggedOut userId) :: earlier) :
    LoggedOut hashService userId earlier later service := by
  refine run.after split (LoggedOut hashService userId earlier) ?_ ?_
  · intro before after run permitted moved
    have single := singleUse_run run
    have move := step_moves moved
    obtain ⟨next, change⟩ := move.change single.sound permitted.2
    exact move.loggedOut_leaves change permitted.1.2.1 permitted.2 single (traced_run run)
  · intro later service timed' after answer run out permitted moved
    have single := singleUse_run run
    have move := step_moves moved
    obtain ⟨next, change⟩ := move.change single.sound permitted.2
    refine move.loggedOut_stays change permitted.1.1 permitted.1.2.1 single (traced_run run) ?_ out
    intro e member
    exact List.mem_append_right _ (List.mem_cons_of_mem _ member)

end Runs

/-- An ideal hash and readable access tokens, for fixed runs. -/
def saltless : HashService where
  hash _ plain := "$2b$12$" ++ plain
  compare plain hashed := hashed = "$2b$12$" ++ plain
  ideal _ plain other := by
    rw [decide_eq_true_eq, String.append_right_inj]
    exact eq_comm

def unsigned : JwtService where
  sign payload _ _ := payload.jti
  decode token := some ⟨some token, some 900⟩

def alice : User where
  id := "alice"
  email := "alice@example.com"
  passwordHash := "$2b$12$secret"
  socialProvider := none
  socialProviderId := none
  role := .user
  status := .active
  refreshTokenHash := none
  apiKeyHash := none
  apiKeyPrefix := none

def turnAt (now task : Nat) (token : String) : TimedAuth :=
  ⟨now, .proceed task ⟨"id-" ++ token, token, "salt"⟩⟩

/-- Alice logs in, newest exchange first. -/
def loginHistory : List (TimedAuth × AuthAnswer) :=
  [(turnAt 2 1 "a2", .loggedIn ⟨"id-r1", "r1"⟩), (turnAt 1 1 "a1", .hashed),
   (⟨0, .login 1 (toAuthUser alice) ⟨"id-r1", "r1", "salt"⟩⟩, .started)]

/-- She redeems her token, logs out, and fails to redeem the new one. -/
def rotatedHistory : List (TimedAuth × AuthAnswer) :=
  [(turnAt 13 4 "d1", invalidRefreshToken), (⟨12, .refreshTokens 4 "alice" "r2"⟩, .started),
   (turnAt 11 3 "c2", .loggedOut "alice"), (turnAt 10 3 "c1", .revoked true),
   (⟨9, .logout 3 "alice" "id-r2"⟩, .started), (turnAt 8 2 "b4", .refreshed "r1" ⟨"id-r2", "r2"⟩),
   (turnAt 7 2 "b3", .hashed), (turnAt 6 2 "r2", .cleared), (turnAt 5 2 "b2", .accepted "r1"),
   (turnAt 4 2 "b1", .read), (⟨3, .refreshTokens 2 "alice" "r1"⟩, .started)] ++ loginHistory

/-- Two calls with one token, each between the other's steps. -/
def overlappingRefreshes : List (TimedAuth × AuthAnswer) :=
  [(turnAt 12 3 "c4", .refreshed "r1" ⟨"id-r3", "r3"⟩),
   (turnAt 11 2 "b4", .refreshed "r1" ⟨"id-r2", "r2"⟩), (turnAt 10 3 "c3", .hashed),
   (turnAt 9 2 "b3", .hashed), (turnAt 8 3 "r3", .cleared), (turnAt 7 2 "r2", .cleared),
   (turnAt 6 3 "c2", .accepted "r1"), (turnAt 6 2 "b2", .accepted "r1"), (turnAt 5 3 "c1", .read),
   (turnAt 4 2 "b1", .read), (⟨3, .refreshTokens 3 "alice" "r1"⟩, .started),
   (⟨3, .refreshTokens 2 "alice" "r1"⟩, .started)] ++ loginHistory

/-- A logout between the clear and the last write of a redemption. -/
def overtakenLogout : List (TimedAuth × AuthAnswer) :=
  [(turnAt 14 4 "d2", .accepted "r2"), (turnAt 13 4 "d1", .read),
   (⟨12, .refreshTokens 4 "alice" "r2"⟩, .started),
   (turnAt 11 2 "b4", .refreshed "r1" ⟨"id-r2", "r2"⟩),
   (turnAt 10 3 "c2", .loggedOut "alice"), (turnAt 9 3 "c1", .revoked true),
   (⟨8, .logout 3 "alice" "id-r1"⟩, .started), (turnAt 7 2 "b3", .hashed),
   (turnAt 6 2 "r2", .cleared), (turnAt 5 2 "b2", .accepted "r1"), (turnAt 4 2 "b1", .read),
   (⟨3, .refreshTokens 2 "alice" "r1"⟩, .started)] ++ loginHistory

end AuthService
end AstraPort.Auth
