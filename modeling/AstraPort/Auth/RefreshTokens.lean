import AstraPort.Auth.Rotation

/- Refresh tokens are redeemed once, and a logout is final for the tokens of redemptions
   begun before it, as long as no two calls hold one token at a time and no redemption is
   past its matching read when a logout of its user ends. Either overlap breaks it. -/
namespace AstraPort.Auth.AuthService

def usedTokens (past : List (TimedAuth × AuthAnswer)) : List String :=
  past.flatMap fun e => draws e.1.call ++ shows e.1.call

/-- A call under way has a name of its own. -/
def names : AuthCall → List Nat
  | .login task _ _ => [task]
  | .refreshTokens task _ _ => [task]
  | .logout task _ _ => [task]
  | _ => []

def usedNames (past : List (TimedAuth × AuthAnswer)) : List Nat :=
  past.flatMap fun e => names e.1.call

/-- Names are new, random tokens were never drawn or shown, and nobody shows a token that
    has been drawn but not given out yet. -/
def Fresh : Machine.Permit AuthService TimedAuth AuthAnswer := fun past service timed =>
  (∀ task ∈ names timed.call, task ∉ usedNames past) ∧
  (∀ token ∈ draws timed.call, token ∉ usedTokens past) ∧
  ∀ token ∈ shows timed.call, ∀ stage ∈ service.tasks.values, ∀ place ∈ stage.issuing,
    place.2 ≠ token

instance (past : List (TimedAuth × AuthAnswer)) (service : AuthService) (timed : TimedAuth) :
    Decidable (Fresh past service timed) := inferInstanceAs (Decidable (_ ∧ _ ∧ _))

/-- No two calls share a token, and no logout overlaps the end of a redemption. -/
def Rotated (hashService : HashService) : Machine.Permit AuthService TimedAuth AuthAnswer :=
  fun past service timed => Fresh past service timed ∧ service.NotShared hashService timed.call

instance (hashService : HashService) (service : AuthService) :
    DecidablePred (service.Unshared hashService)
  | .readUser _ _ => inferInstanceAs (Decidable (_ → _))
  | .forget _ => inferInstanceAs (Decidable (∀ _ ∈ _, _))
  | .compare _ _ _ | .clear _ _ | .hash _ | .store _ _ | .revoke _ _ _ => isTrue trivial

instance (hashService : HashService) (service : AuthService) :
    DecidablePred (service.NotShared hashService)
  | .proceed _ _ => inferInstanceAs (Decidable (∀ _ ∈ _, _))
  | .login _ _ _ | .refreshTokens _ _ _ | .logout _ _ _ | .reject _ _ => isTrue trivial

instance (hashService : HashService) (past : List (TimedAuth × AuthAnswer)) (service : AuthService)
    (timed : TimedAuth) : Decidable (Rotated hashService past service timed) :=
  inferInstanceAs (Decidable (_ ∧ _))

/-- The refreshTokens call that redeems the token returns. -/
def refreshes (refreshToken : String) (e : TimedAuth × AuthAnswer) : Bool :=
  match e.2 with
  | .refreshed redeemed _ => redeemed = refreshToken
  | _ => false

theorem refreshes_iff {refreshToken : String} {e : TimedAuth × AuthAnswer} :
    refreshes refreshToken e = true ↔ ∃ tokens, e.2 = .refreshed refreshToken tokens := by
  unfold refreshes
  split
  · rename_i redeemed tokens told
    constructor
    · intro same
      obtain rfl := of_decide_eq_true same
      exact ⟨tokens, told⟩
    · rintro ⟨others, told'⟩
      exact decide_eq_true (AuthAnswer.refreshed.inj (told.symm.trans told')).1
  · rename_i other
    constructor
    · nofun
    · rintro ⟨tokens, told⟩
      exact absurd told (other _ _)

/-- A redemption of the token is past the point of no return. -/
def Spent (past : List (TimedAuth × AuthAnswer)) (service : AuthService) (refreshToken : String) :
    Prop :=
  (∃ task, service.Redeems task refreshToken) ∨ ∃ e ∈ past, refreshes refreshToken e = true

structure SingleUse (hashService : HashService) (past : List (TimedAuth × AuthAnswer))
    (service : AuthService) : Prop where
  sound : service.Sound hashService
  place_used : ∀ place, service.Place hashService place → place.2 ∈ usedTokens past
  presented_used : ∀ task token, service.Presents task token → token ∈ usedTokens past
  place_apart : ∀ place other, service.Place hashService place → service.Place hashService other →
    place.2 = other.2 → place = other
  issued_once : ∀ task task' place other, service.Issues task place →
    service.Issues task' other → place.2 = other.2 → task = task'
  unborn : ∀ task place, service.Issues task place →
    (∀ other, service.LiveAt hashService other → other.2 ≠ place.2) ∧
      ∀ task' token, service.Presents task' token → token ≠ place.2
  held_once : ∀ task task' place other, service.Holds hashService task place →
    service.Holds hashService task' other → place.2 = other.2 → task = task'
  spent : ∀ token, Spent past service token → ∀ place, service.Place hashService place →
    place.2 ≠ token
  redeemed_once : ∀ task task' token, service.Redeems task token → service.Redeems task' token →
    task = task'
  redeemed_unfinished : ∀ task token, service.Redeems task token →
    ∀ e ∈ past, refreshes token e = false
  refreshed_used : ∀ e ∈ past, ∀ token, refreshes token e = true → token ∈ usedTokens past
  once : ∀ token, (past.filter (refreshes token)).length ≤ 1

section Steps
variable {hashService : HashService} {service after : AuthService} {timed : TimedAuth}
  {answer : AuthAnswer} {next : Option AuthStage} {past : List (TimedAuth × AuthAnswer)}

theorem used_later {token : String} (used : token ∈ usedTokens past)
    (e : TimedAuth × AuthAnswer) : token ∈ usedTokens (e :: past) := by
  rw [usedTokens, List.flatMap_cons]
  exact List.mem_append_right _ used

theorem used_drawn {token : String} (drawn : token ∈ draws timed.call) :
    token ∈ usedTokens ((timed, answer) :: past) := by
  rw [usedTokens, List.flatMap_cons]
  exact List.mem_append_left _ (List.mem_append_left _ drawn)

theorem used_shown {token : String} (shown : token ∈ shows timed.call) :
    token ∈ usedTokens ((timed, answer) :: past) := by
  rw [usedTokens, List.flatMap_cons]
  exact List.mem_append_left _ (List.mem_append_right _ shown)

theorem draws_or_shows {call : AuthCall} {drawn shown : String} (draw : drawn ∈ draws call) :
    shown ∉ shows call := by
  cases call with
  | refreshTokens task userId refreshToken => cases draw
  | _ => simp [shows]

theorem issues_unique {task : Nat} {place other : String × String}
    (issues : service.Issues task place) (issues' : service.Issues task other) : place = other := by
  obtain ⟨stage, running, issuing⟩ := issues
  obtain ⟨stage', running', issuing'⟩ := issues'
  obtain rfl := Option.some.inj (running.symm.trans running')
  exact Option.some.inj (issuing.symm.trans issuing')

theorem holds_presents {task : Nat} {place : String × String}
    (holds : service.Holds hashService task place) : service.Presents task place.2 := by
  obtain ⟨stage, running, holding⟩ := holds
  exact ⟨stage, running, AuthStage.holding_presents holding⟩

theorem SingleUse.spent_used (single : SingleUse hashService past service) {token : String}
    (spent : Spent past service token) : token ∈ usedTokens past := by
  rcases spent with ⟨task, stage, running, redeems⟩ | ⟨e, member, refreshed⟩
  · exact single.presented_used task token ⟨stage, running, AuthStage.redeems_presents redeems⟩
  · exact single.refreshed_used e member token refreshed

theorem Change.refreshes (change : Change hashService service timed.call after answer next)
    {token : String} (refreshed : refreshes token (timed, answer) = true) :
    next = none ∧ service.Redeems timed.call.task token := by
  obtain ⟨tokens, told⟩ := refreshes_iff.mp refreshed
  obtain ⟨ended, stage, id, running, redeems, _⟩ := change.refreshed token tokens told
  exact ⟨ended, stage, running, redeems⟩

/- The call that clears its row has spent the token it holds. -/
theorem SingleUse.clears (single : SingleUse hashService past service)
    (change : Change hashService service timed.call after answer next)
    (drawn : ∀ token ∈ draws timed.call, token ∉ usedTokens past) {id token : String}
    (redeems : after.Redeems timed.call.task token)
    (holds : service.Holds hashService timed.call.task (id, token))
    (cleared : ¬ after.LiveAt hashService (id, token)) (place : String × String)
    (placed : after.Place hashService place) : place.2 ≠ token := by
  rintro rfl
  have presents := holds_presents holds
  rcases placed with live | ⟨task, held⟩ | ⟨task, issues⟩
  · rcases change.live place live with before | ⟨issued, _⟩
    · have same := single.place_apart place (id, place.2) (Or.inl before)
        (Or.inr (Or.inl ⟨_, holds⟩)) rfl
      exact cleared (same ▸ live)
    · exact (single.unborn _ place issued).2 _ _ presents rfl
  · rcases change.holds held with ⟨_, _, untaken⟩ | before
    · exact untaken _ _ holds rfl
    · obtain rfl := single.held_once task _ place (id, place.2) before holds rfl
      obtain ⟨stage, running, redeemed⟩ := redeems
      obtain ⟨stage', running', holding⟩ := held
      obtain rfl := Option.some.inj (running.symm.trans running')
      rw [AuthStage.redeems_releases redeemed hashService] at holding
      cases holding
  · rcases change.issues issues with ⟨_, draw⟩ | before
    · exact drawn _ draw (single.presented_used _ _ presents)
    · exact (single.unborn task place before).2 _ _ presents rfl

theorem SingleUse.spent_later (single : SingleUse hashService past service)
    (change : Change hashService service timed.call after answer next)
    (drawn : ∀ token ∈ draws timed.call, token ∉ usedTokens past) {token : String}
    (spent : Spent ((timed, answer) :: past) after token) (place : String × String)
    (placed : after.Place hashService place) : place.2 ≠ token := by
  have before : Spent past service token ∨ (∃ id, after.Redeems timed.call.task token ∧
      service.Holds hashService timed.call.task (id, token) ∧
        ¬ after.LiveAt hashService (id, token)) := by
    rcases spent with ⟨task, redeems⟩ | ⟨e, member, refreshed⟩
    · rcases change.redeemed redeems with earlier | ⟨rfl, id, holds, cleared⟩
      · exact Or.inl (Or.inl ⟨task, earlier⟩)
      · exact Or.inr ⟨id, redeems, holds, cleared⟩
    · rcases List.mem_cons.mp member with rfl | earlier
      · exact Or.inl (Or.inl ⟨_, (change.refreshes refreshed).2⟩)
      · exact Or.inl (Or.inr ⟨e, earlier, refreshed⟩)
  rcases before with earlier | ⟨id, redeems, holds, cleared⟩
  · rcases change.place placed with there | ⟨draw, _⟩
    · exact single.spent token earlier place there
    · rintro rfl
      exact drawn _ draw (single.spent_used earlier)
  · exact single.clears change drawn redeems holds cleared place placed

theorem SingleUse.unborn_later (single : SingleUse hashService past service)
    (change : Change hashService service timed.call after answer next)
    (drawn : ∀ token ∈ draws timed.call, token ∉ usedTokens past)
    (secret : ∀ token ∈ shows timed.call, ∀ task place, service.Issues task place →
      place.2 ≠ token) {task : Nat} {place : String × String} (issues : after.Issues task place) :
    (∀ other, after.LiveAt hashService other → other.2 ≠ place.2) ∧
      ∀ task' token, after.Presents task' token → token ≠ place.2 := by
  rcases change.issues issues with ⟨_, draw⟩ | before
  · have fresh := drawn _ draw
    constructor
    · intro other live same
      rcases change.live other live with earlier | ⟨issued, _⟩
      · exact fresh (same ▸ single.place_used other (Or.inl earlier))
      · exact fresh (same ▸ single.place_used other (Or.inr (Or.inr ⟨_, issued⟩)))
    · intro task' token presents same
      rcases change.shown presents with shown | earlier
      · exact draws_or_shows draw shown
      · exact fresh (same ▸ single.presented_used task' token earlier)
  · constructor
    · intro other live same
      rcases change.live other live with earlier | ⟨issued, rfl⟩
      · exact (single.unborn task place before).1 other earlier same
      · obtain rfl := single.issued_once _ task other place issued before same
        obtain ⟨stage, running, _⟩ := issues
        rw [change.gone] at running
        cases running
    · intro task' token presents same
      rcases change.shown presents with shown | earlier
      · exact secret token shown task place before same.symm
      · exact (single.unborn task place before).2 task' token earlier same

theorem Move.singleUse {jwtService : JwtService}
    (move : Move hashService jwtService service timed.now timed.call after answer)
    (change : Change hashService service timed.call after answer next)
    (drawn : ∀ token ∈ draws timed.call, token ∉ usedTokens past)
    (secret : ∀ token ∈ shows timed.call, ∀ task place, service.Issues task place →
      place.2 ≠ token) (single : SingleUse hashService past service) :
    SingleUse hashService ((timed, answer) :: past) after := by
  have ended : ∀ {task token}, next = none → after.Redeems task token → task ≠ timed.call.task := by
    rintro task token rfl ⟨stage, running, _⟩ rfl
    rw [change.gone] at running
    cases running
  refine ⟨move.sound single.sound, ?_, ?_, ?_, ?_, ?_, ?_, ?_, ?_, ?_, ?_, ?_⟩
  · intro place placed
    rcases change.place placed with before | ⟨draw, _⟩
    · exact used_later (single.place_used place before) _
    · exact used_drawn draw
  · intro task token presents
    rcases change.shown presents with shown | before
    · exact used_shown shown
    · exact used_later (single.presented_used task token before) _
  · intro place other placed placed' same
    rcases change.place placed with before | ⟨draw, issues⟩ <;>
    rcases change.place placed' with before' | ⟨draw', issues'⟩
    · exact single.place_apart place other before before' same
    · exact absurd (same ▸ single.place_used place before) (drawn _ draw')
    · exact absurd (same ▸ single.place_used other before') (drawn _ draw)
    · exact issues_unique issues issues'
  · intro task task' place other issues issues' same
    rcases change.issues issues with ⟨here, draw⟩ | before <;>
    rcases change.issues issues' with ⟨here', draw'⟩ | before'
    · exact here.trans here'.symm
    · exact absurd (same ▸ single.place_used other (Or.inr (Or.inr ⟨_, before'⟩))) (drawn _ draw)
    · exact absurd (same ▸ single.place_used place (Or.inr (Or.inr ⟨_, before⟩))) (drawn _ draw')
    · exact single.issued_once task task' place other before before' same
  · intro task place issues
    exact single.unborn_later change drawn secret issues
  · intro task task' place other holds holds' same
    rcases change.holds holds with ⟨here, _, untaken⟩ | before <;>
    rcases change.holds holds' with ⟨here', _, untaken'⟩ | before'
    · exact here.trans here'.symm
    · exact absurd same.symm (untaken _ _ before')
    · exact absurd same (untaken' _ _ before)
    · exact single.held_once task task' place other before before' same
  · intro token spent
    exact single.spent_later change drawn spent
  · intro task task' token redeems redeems'
    rcases change.redeemed redeems with before | ⟨here, id, holds, _⟩ <;>
    rcases change.redeemed redeems' with before' | ⟨here', id', holds', _⟩
    · exact single.redeemed_once task task' token before before'
    · exact absurd rfl (single.spent token (Or.inl ⟨task, before⟩) _ (Or.inr (Or.inl ⟨_, holds'⟩)))
    · exact absurd rfl (single.spent token (Or.inl ⟨task', before'⟩) _ (Or.inr (Or.inl ⟨_, holds⟩)))
    · exact here.trans here'.symm
  · intro task token redeems e member
    by_contra refreshed
    have refreshed := Bool.eq_true_of_not_eq_false refreshed
    rcases List.mem_cons.mp member with rfl | earlier
    · obtain ⟨last, redeemed⟩ := change.refreshes refreshed
      rcases change.redeemed redeems with before | ⟨here, _⟩
      · exact ended last redeems (single.redeemed_once _ _ token before redeemed)
      · exact ended last redeems here
    · rcases change.redeemed redeems with before | ⟨_, id, holds, _⟩
      · rw [single.redeemed_unfinished task token before e earlier] at refreshed
        cases refreshed
      · exact single.spent token (Or.inr ⟨e, earlier, refreshed⟩) _ (Or.inr (Or.inl ⟨_, holds⟩)) rfl
  · intro e member token refreshed
    rcases List.mem_cons.mp member with rfl | earlier
    · exact used_later (single.spent_used (Or.inl ⟨_, (change.refreshes refreshed).2⟩)) _
    · exact used_later (single.refreshed_used e earlier token refreshed) _
  · intro token
    by_cases refreshed : refreshes token (timed, answer) = true
    · have none_before : past.filter (refreshes token) = [] := by
        rw [List.filter_eq_nil_iff]
        intro e member
        simp [single.redeemed_unfinished _ token (change.refreshes refreshed).2 e member]
      rw [List.filter_cons_of_pos refreshed, none_before]
      exact Nat.le_refl 1
    · rw [List.filter_cons_of_neg refreshed]
      exact single.once token

end Steps

section Runs
variable {hashService : HashService} {jwtService : JwtService} {rows : List User}
  {past : List (TimedAuth × AuthAnswer)} {service : AuthService}

theorem secret_of_fresh {timed : TimedAuth} (fresh : Fresh past service timed) :
    ∀ token ∈ shows timed.call, ∀ task place, service.Issues task place → place.2 ≠ token := by
  rintro token shown task place ⟨stage, running, issuing⟩
  exact fresh.2.2 token shown stage ((InsertionMap.mem_values _).mpr ⟨task, running⟩) place issuing

theorem initial_rows {id : String} {user : User} (found : (initial rows).users.get id = some user) :
    user.id = id ∧ user.refreshTokenHash = none := by
  have loaded : ∀ id user, (initial rows).users.get id = some user →
      user.id = id ∧ user.refreshTokenHash = none := by
    refine InsertionMap.get_loaded_all (fun row => ⟨rfl, rfl⟩) rows ?_
    intro id user found
    cases found
  exact loaded id user found

theorem singleUse_start : SingleUse hashService [] (initial rows) := by
  have nowhere : ∀ place, ¬ (initial rows).Place hashService place := by
    rintro place (⟨user, hashed, found, present, _⟩ | ⟨task, stage, running, _⟩ |
      ⟨task, stage, running, _⟩)
    · rw [(initial_rows found).2] at present
      cases present
    · cases running
    · cases running
  have idle : ∀ {task stage}, (initial rows).tasks.get task ≠ some stage := by
    intro task stage running
    cases running
  refine ⟨⟨fun id user found => (initial_rows found).1, fun _ _ _ running => absurd running idle⟩,
    fun place placed => absurd placed (nowhere place), ?_,
    fun place _ placed => absurd placed (nowhere place), ?_, ?_, ?_,
    fun _ _ place placed => absurd placed (nowhere place), ?_, by simp, by simp, by simp⟩
  · rintro task token ⟨stage, running, _⟩
    exact absurd running idle
  · rintro task task' place other ⟨stage, running, _⟩
    exact absurd running idle
  · rintro task place ⟨stage, running, _⟩
    exact absurd running idle
  · rintro task task' place other ⟨stage, running, _⟩
    exact absurd running idle
  · rintro task task' token ⟨stage, running, _⟩
    exact absurd running idle

theorem singleUse_run
    (run : (machine hashService jwtService rows).Run (Rotated hashService) past service) :
    SingleUse hashService past service := by
  apply run.invariant (SingleUse hashService) singleUse_start
  intro past service timed after answer _ single permitted moved
  have move := step_moves moved
  obtain ⟨next, change⟩ := move.change single.sound permitted.2
  exact move.singleUse change permitted.1.2.1 (secret_of_fresh permitted.1) single

end Runs
end AstraPort.Auth.AuthService
