import AstraPort.Staking.EmergencyUnstake

/- The once-per-seven-days rule over whole runs. It holds as long as no other record of
   the staker is saved between a call's look at the repository and its own save, and local
   time was not put forward in the week before; each of the two alone breaks it. -/
namespace AstraPort.Staking

/-- The call has looked at the repository and not saved yet. -/
def UnstakeStage.Looked : UnstakeStage → Prop
  | .getStakingPosition => True
  | .save _ => True
  | _ => False

namespace EmergencyUnstakeService
open InsertionMap (get_of_delete get_set_cases)

def week : Int := penaltyConfig.rateLimitDays * millisPerDay

/-- The look at the repository that lets a call pass the rate limit. -/
def passesLimit (task : Nat) (e : TimedUnstake × UnstakeAnswer) : Bool :=
  e.1.call.task = task && e.2 = .allowed

def savedRecord : TimedUnstake × UnstakeAnswer → Option EmergencyUnstake
  | (_, .saved record) => some record
  | _ => none

/-- Records saved since the call in progress under a task looked at the repository. -/
def savedSinceLook (task : Nat) (past : List (TimedUnstake × UnstakeAnswer)) :
    List EmergencyUnstake :=
  (past.takeWhile fun e => !passesLimit task e).filterMap savedRecord

def ClockOnly : Machine.Permit EmergencyUnstakeService TimedUnstake UnstakeAnswer :=
  Machine.ClockAdvances TimedUnstake.now

instance (past : List (TimedUnstake × UnstakeAnswer)) (service : EmergencyUnstakeService)
    (timed : TimedUnstake) : Decidable (ClockOnly past service timed) :=
  inferInstanceAs (Decidable (∀ e ∈ past, e.1.now ≤ timed.now))

/-- A call saves only while the repository shows what it has looked at. -/
def NotOvertaken (past : List (TimedUnstake × UnstakeAnswer)) (task : Nat) :
    UnstakeTask → Prop
  | ⟨dto, .save _⟩ => ∀ record ∈ savedSinceLook task past, record.stakerId ≠ dto.stakerId
  | _ => True

instance (past : List (TimedUnstake × UnstakeAnswer)) (task : Nat) (running : UnstakeTask) :
    Decidable (NotOvertaken past task running) :=
  match running with
  | ⟨_, .save _⟩ => inferInstanceAs (Decidable (∀ _ ∈ _, _))
  | ⟨_, .findOne _⟩ => isTrue trivial
  | ⟨_, .getStakingPosition⟩ => isTrue trivial
  | ⟨_, .saved _⟩ => isTrue trivial

/-- Seven local days back from an instant lie a full week, whatever the zone did. -/
def FullWeek (zone : Zone) (now : Int) : Prop := zone.toUtc (zone.toLocal now - week) + week ≤ now

instance (zone : Zone) (now : Int) : Decidable (FullWeek zone now) :=
  inferInstanceAs (Decidable (_ ≤ _))

/-- Seven local days are a full week, and nobody overtakes a save. -/
def Undisturbed (zone : Zone) : Machine.Permit EmergencyUnstakeService TimedUnstake UnstakeAnswer :=
  fun past service timed => ClockOnly past service timed ∧
    match timed.call with
    | .initiateEmergencyUnstake _ _ => FullWeek zone timed.now
    | .proceed task _ => ∀ running ∈ service.tasks.get task, NotOvertaken past task running
    | .reject _ _ => True

instance (zone : Zone) (past : List (TimedUnstake × UnstakeAnswer))
    (service : EmergencyUnstakeService) (timed : TimedUnstake) :
    Decidable (Undisturbed zone past service timed) :=
  match timed with
  | ⟨_, .initiateEmergencyUnstake _ _⟩ => inferInstanceAs (Decidable (_ ∧ FullWeek _ _))
  | ⟨_, .proceed _ _⟩ => inferInstanceAs (Decidable (_ ∧ ∀ _ ∈ _, _))
  | ⟨_, .reject _ _⟩ => inferInstanceAs (Decidable (_ ∧ True))

/-- What a run has shown: a call that has looked at the repository knows every record of
    its staker but those saved since, and records of one staker lie a week apart. -/
structure Limited (past : List (TimedUnstake × UnstakeAnswer)) (service : EmergencyUnstakeService) :
    Prop where
  drafted : ∀ task dto draft, service.tasks.get task = some ⟨dto, .save draft⟩ →
    draft.stakerId = dto.stakerId
  asked : ∀ task dto since, service.tasks.get task = some ⟨dto, .findOne since⟩ →
    ∃ e ∈ past, since + week ≤ e.1.now
  looked : ∀ task dto stage, service.tasks.get task = some ⟨dto, stage⟩ → stage.Looked →
    ∀ record ∈ service.repository, record.stakerId = dto.stakerId →
      record ∈ savedSinceLook task past ∨ ∃ e ∈ past, record.createdAt + week ≤ e.1.now
  spaced : service.repository.Pairwise fun later earlier =>
    later.stakerId = earlier.stakerId → earlier.createdAt + week ≤ later.createdAt

section Steps
variable {zone : Zone} {service after : EmergencyUnstakeService} {timed : TimedUnstake}
  {answer : UnstakeAnswer} {past : List (TimedUnstake × UnstakeAnswer)}

theorem savedSinceLook_later {task : Nat} {e : TimedUnstake × UnstakeAnswer}
    (passed : passesLimit task e = false) {record : EmergencyUnstake}
    (saved : savedRecord e = some record ∨ record ∈ savedSinceLook task past) :
    record ∈ savedSinceLook task (e :: past) := by
  rw [savedSinceLook, List.takeWhile_cons_of_pos (by simp [passed]), List.filterMap_cons]
  rcases saved with now | before
  · rw [now]
    exact List.mem_cons_self
  · split
    · exact before
    · exact List.mem_cons_of_mem _ before

/- A step that lets no call pass the limit and saves nothing keeps what the calls know. -/
theorem Limited.kept (limited : Limited past service) (same : after.repository = service.repository)
    (unlooked : answer ≠ .allowed)
    (tasks : ∀ task running, after.tasks.get task = some running →
      service.tasks.get task = some running ∨
        (∀ since, running.stage = .findOne since → since + week ≤ timed.now) ∧
        (∀ draft, running.stage = .save draft → draft.stakerId = running.dto.stakerId) ∧
        (running.stage.Looked → ∃ stage, UnstakeStage.Looked stage ∧
          service.tasks.get task = some ⟨running.dto, stage⟩)) :
    Limited ((timed, answer) :: past) after := by
  have unpassed : ∀ task, passesLimit task (timed, answer) = false := by
    simp [passesLimit, unlooked]
  refine ⟨?_, ?_, ?_, same ▸ limited.spaced⟩
  · intro task dto draft found
    rcases tasks task _ found with before | ⟨_, drafted, _⟩
    · exact limited.drafted task dto draft before
    · exact drafted draft rfl
  · intro task dto since found
    rcases tasks task _ found with before | ⟨asked, _, _⟩
    · obtain ⟨e, member, late⟩ := limited.asked task dto since before
      exact ⟨e, List.mem_cons_of_mem _ member, late⟩
    · exact ⟨_, List.mem_cons_self, asked since rfl⟩
  · intro task dto stage found looked record member owner
    have before : ∃ stage, UnstakeStage.Looked stage ∧ service.tasks.get task = some ⟨dto, stage⟩ := by
      rcases tasks task _ found with before | ⟨_, _, continued⟩
      · exact ⟨stage, looked, before⟩
      · exact continued looked
    obtain ⟨earlier, looked, running⟩ := before
    rcases limited.looked task dto earlier running looked record (same ▸ member) owner with
      since | ⟨e, seen, late⟩
    · exact Or.inl (savedSinceLook_later (unpassed task) (Or.inr since))
    · exact Or.inr ⟨e, List.mem_cons_of_mem _ seen, late⟩

theorem Limited.allowed (limited : Limited past service) {task : Nat}
    {dto : InitiateEmergencyUnstakeDto} {since : Int}
    (running : service.tasks.get task = some ⟨dto, .findOne since⟩)
    (clear : ∀ record ∈ service.repository, record.stakerId = dto.stakerId →
      record.createdAt ≤ since) (called : timed.call.task = task) :
    Limited ((timed, .allowed) :: past) (service.atStage task dto .getStakingPosition) := by
  have unpassed : ∀ other, other ≠ task → passesLimit other (timed, .allowed) = false := by
    intro other ne
    simp [passesLimit, called, ne.symm]
  refine ⟨?_, ?_, ?_, limited.spaced⟩
  · intro other dto' draft found
    rcases get_set_cases found with ⟨_, same⟩ | ⟨_, before⟩
    · cases same
    · exact limited.drafted other dto' draft before
  · intro other dto' since' found
    rcases get_set_cases found with ⟨_, same⟩ | ⟨_, before⟩
    · cases same
    · obtain ⟨e, member, late⟩ := limited.asked other dto' since' before
      exact ⟨e, List.mem_cons_of_mem _ member, late⟩
  · intro other dto' stage found looked record member owner
    rcases get_set_cases found with ⟨_, same⟩ | ⟨ne, before⟩
    · obtain ⟨rfl, rfl⟩ := UnstakeTask.mk.inj same
      obtain ⟨e, seen, late⟩ := limited.asked task dto' since running
      have old := clear record member owner
      exact Or.inr ⟨e, List.mem_cons_of_mem _ seen, by omega⟩
    · rcases limited.looked other dto' stage before looked record member owner with
        saved | ⟨e, seen, late⟩
      · exact Or.inl (savedSinceLook_later (unpassed other ne) (Or.inr saved))
      · exact Or.inr ⟨e, List.mem_cons_of_mem _ seen, late⟩

theorem Limited.saved (limited : Limited past service) {task : Nat}
    {dto : InitiateEmergencyUnstakeDto} {draft : UnstakeDraft} {record : EmergencyUnstake}
    (running : service.tasks.get task = some ⟨dto, .save draft⟩)
    (owner : record.stakerId = draft.stakerId) (dated : record.createdAt = timed.now)
    (clock : ∀ e ∈ past, e.1.now ≤ timed.now)
    (first : ∀ earlier ∈ savedSinceLook task past, earlier.stakerId ≠ dto.stakerId) :
    Limited ((timed, .saved record) :: past)
      ({ service with repository := record :: service.repository }.atStage task dto
        (.saved record)) := by
  have mine : record.stakerId = dto.stakerId := owner.trans (limited.drafted task dto draft running)
  refine ⟨?_, ?_, ?_, ?_⟩
  · intro other dto' draft' found
    rcases get_set_cases found with ⟨_, same⟩ | ⟨_, before⟩
    · cases same
    · exact limited.drafted other dto' draft' before
  · intro other dto' since found
    rcases get_set_cases found with ⟨_, same⟩ | ⟨_, before⟩
    · cases same
    · obtain ⟨e, member, late⟩ := limited.asked other dto' since before
      exact ⟨e, List.mem_cons_of_mem _ member, late⟩
  · intro other dto' stage found looked old member owner'
    have unpassed : passesLimit other (timed, .saved record) = false := by simp [passesLimit]
    rcases get_set_cases found with ⟨_, same⟩ | ⟨_, before⟩
    · obtain ⟨rfl, rfl⟩ := UnstakeTask.mk.inj same
      cases looked
    · rcases List.mem_cons.mp member with rfl | stored
      · exact Or.inl (savedSinceLook_later unpassed (Or.inl rfl))
      · rcases limited.looked other dto' stage before looked old stored owner' with
          saved | ⟨e, seen, late⟩
        · exact Or.inl (savedSinceLook_later unpassed (Or.inr saved))
        · exact Or.inr ⟨e, List.mem_cons_of_mem _ seen, late⟩
  · refine List.pairwise_cons.mpr ⟨?_, limited.spaced⟩
    intro earlier stored same
    have owner' := same.symm.trans mine
    rcases limited.looked task dto _ running trivial earlier stored owner' with
      saved | ⟨e, seen, late⟩
    · exact absurd owner' (first earlier saved)
    · have reading := clock e seen
      rw [dated]
      omega

theorem Move.limited (move : Move zone service timed.now timed.call after answer)
    (undisturbed : Undisturbed zone past service timed) (limited : Limited past service) :
    Limited ((timed, answer) :: past) after := by
  obtain ⟨now, call⟩ := timed
  cases move with
  | started dto free =>
    refine limited.kept rfl (by simp) ?_
    intro other running found
    rcases get_set_cases found with ⟨rfl, rfl⟩ | ⟨_, before⟩
    · refine Or.inr ⟨?_, by simp, fun looked => looked.elim⟩
      rintro since same
      obtain rfl := UnstakeStage.findOne.inj same
      exact undisturbed.2
    · exact Or.inl before
  | allowed running clear => exact limited.allowed running clear rfl
  | @approved task recordId dto draft running reviewed =>
    refine limited.kept rfl (by simp) ?_
    intro other resumed found
    rcases get_set_cases found with ⟨rfl, rfl⟩ | ⟨_, before⟩
    · refine Or.inr ⟨by simp, ?_, fun _ => ⟨.getStakingPosition, trivial, running⟩⟩
      rintro draft' same
      obtain rfl := UnstakeStage.save.inj same
      exact (reviewPosition_ok reviewed).1
    · exact Or.inl before
  | saved running written =>
    refine limited.saved running ?_ ?_ undisturbed.1 (undisturbed.2 _ running)
    · rw [written]
    · rw [written]
  | withdrew running found covered =>
    exact limited.kept rfl (by simp) fun other resumed found => Or.inl (get_of_delete found)
  | uncovered running short thrown =>
    exact limited.kept rfl (by simp) fun other resumed found => Or.inl (get_of_delete found)
  | refused running unsaved thrown =>
    exact limited.kept rfl (by simp) fun other resumed found => Or.inl (get_of_delete found)

end Steps

/-- Any two records of one staker are created at least a week apart. -/
def LimitKept (zone : Zone)
    (permit : Machine.Permit EmergencyUnstakeService TimedUnstake UnstakeAnswer) : Prop :=
  ∀ positions past service, (machine zone positions).Run permit past service →
    service.repository.Pairwise fun one other =>
      one.stakerId = other.stakerId → week ≤ |one.createdAt - other.createdAt|

theorem limited_run {zone : Zone} {positions : InsertionMap String StakingPosition}
    {past : List (TimedUnstake × UnstakeAnswer)} {service : EmergencyUnstakeService}
    (run : (machine zone positions).Run (Undisturbed zone) past service) : Limited past service := by
  refine run.invariant Limited ?_ ?_
  · constructor <;> simp [machine, initial]
  · intro past service timed after answer _ limited permitted moved
    exact (step_moves moved).limited permitted limited

/-- While nobody overtakes a save and seven local days are seven days, the records of a
staker lie at least seven days apart. -/
theorem undisturbed_unstakes_keep_limit (zone : Zone) : LimitKept zone (Undisturbed zone) := by
  intro positions past service run
  refine (limited_run run).spaced.imp ?_
  intro later earlier spaced same
  have apart := spaced same
  exact le_trans (by omega) (le_abs_self _)

def aliceHolds : InsertionMap String StakingPosition :=
  InsertionMap.empty.set "p1" ⟨"p1", "alice", 100, 0⟩

def hours (count : Int) : Int := count * (60 * 60 * 1000)

/-- A call of alice from its start to its withdrawal, each await answered at once. -/
def unstakeAt (now : Int) (task : Nat) (recordId : String) : List TimedUnstake :=
  [⟨now, .initiateEmergencyUnstake task ⟨"alice", "p1", 10⟩⟩, ⟨now, .proceed task ""⟩,
   ⟨now, .proceed task ""⟩, ⟨now, .proceed task recordId⟩, ⟨now, .proceed task ""⟩]

theorem undisturbed_unstakes_keep_limit_a_week_later :
    let M := machine Zone.utc aliceHolds
    ∃ moment, M.play (Undisturbed Zone.utc) ⟨[], M.init⟩
        (unstakeAt 0 1 "u1" ++ unstakeAt (hours 168) 2 "u2") = some moment ∧
      moment.state.repository.length = 2 ∧
      moment.state.repository.Pairwise fun one other =>
        one.stakerId = other.stakerId → week ≤ |one.createdAt - other.createdAt| := by
  intro M
  have two : (M.play (Undisturbed Zone.utc) ⟨[], M.init⟩
      (unstakeAt 0 1 "u1" ++ unstakeAt (hours 168) 2 "u2")).map
        (fun moment => moment.state.repository.length) = some 2 := by decide +kernel
  obtain ⟨moment, played, saved⟩ := Option.map_eq_some_iff.mp two
  exact ⟨moment, played, saved, undisturbed_unstakes_keep_limit Zone.utc aliceHolds moment.past
    moment.state (Machine.play_run played)⟩

/-- Two calls of alice look at the empty repository before either saves. -/
def overlappingUnstakes : List TimedUnstake :=
  [⟨0, .initiateEmergencyUnstake 1 ⟨"alice", "p1", 10⟩⟩, ⟨0, .proceed 1 ""⟩,
   ⟨1, .initiateEmergencyUnstake 2 ⟨"alice", "p1", 10⟩⟩, ⟨1, .proceed 2 ""⟩,
   ⟨2, .proceed 1 ""⟩, ⟨3, .proceed 1 "u1"⟩, ⟨4, .proceed 2 ""⟩, ⟨5, .proceed 2 "u2"⟩]

/-- Local time is an hour ahead from an instant on. -/
def springForward (change : Int) : Zone where
  toLocal now := if now < change then now else now + hours 1
  toUtc time := if time < change + hours 1 then time else time - hours 1

theorem limit_broken {zone : Zone} {calls : List TimedUnstake} {later earlier : Int}
    (saved : ((machine zone aliceHolds).play ClockOnly ⟨[], (machine zone aliceHolds).init⟩ calls).map
      (fun moment => moment.state.repository.map fun record => (record.stakerId, record.createdAt)) =
        some [("alice", later), ("alice", earlier)])
    (near : |later - earlier| < week) : ¬ LimitKept zone ClockOnly := by
  intro kept
  obtain ⟨moment, played, records⟩ := Option.map_eq_some_iff.mp saved
  have spaced := kept _ _ _ (Machine.play_run played)
  have pairs : (moment.state.repository.map fun record =>
      (record.stakerId, record.createdAt)).Pairwise
        fun one other => one.1 = other.1 → week ≤ |one.2 - other.2| := List.pairwise_map.mpr spaced
  rw [records] at pairs
  have apart := (List.pairwise_cons.mp pairs).1 _ (List.mem_singleton.mpr rfl) rfl
  exact absurd apart near.not_ge

/- Overlapping calls break the limit without any change of clocks, and a spring without an
   hour breaks it for calls one after another. -/
theorem unstakes_break_limit :
    ¬ LimitKept Zone.utc ClockOnly ∧ ¬ LimitKept (springForward (hours 240)) ClockOnly := by
  constructor
  · have saved : ((machine Zone.utc aliceHolds).play ClockOnly
        ⟨[], (machine Zone.utc aliceHolds).init⟩ overlappingUnstakes).map (fun moment =>
          moment.state.repository.map fun record => (record.stakerId, record.createdAt)) =
        some [("alice", 5), ("alice", 3)] := by decide +kernel
    exact limit_broken saved (by decide)
  · have saved : ((machine (springForward (hours 240)) aliceHolds).play ClockOnly
        ⟨[], (machine (springForward (hours 240)) aliceHolds).init⟩
        (unstakeAt (hours 216) 1 "u1" ++ unstakeAt (hours 383) 2 "u2")).map (fun moment =>
          moment.state.repository.map fun record => (record.stakerId, record.createdAt)) =
        some [("alice", hours 383), ("alice", hours 216)] := by decide +kernel
    exact limit_broken saved (by decide)

end EmergencyUnstakeService
end AstraPort.Staking
