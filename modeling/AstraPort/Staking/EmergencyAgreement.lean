import Mathlib.Tactic.Linarith
import AstraPort.Staking.EmergencyLimits

/- Records of emergency unstakes against the positions they were taken from. The two stores
   agree whenever no call is in progress, as long as every withdrawal finds its position
   still covering the amount that was recorded for it. -/
namespace AstraPort.Staking

/-- The call has been approved: its position was found and belongs to its staker. -/
def UnstakeStage.Approved : UnstakeStage → Prop
  | .save _ => True
  | .saved _ => True
  | _ => False

namespace EmergencyUnstakeService
open InsertionMap (get_of_delete get_set_cases)

/-- What a staker's records sum up to, and what the staker holds in positions. -/
def unstaked (staker : String) (repository : List EmergencyUnstake) : Rat :=
  (repository.map fun record => if record.stakerId = staker then record.amount else 0).sum

def heldBy (staker : String) (positions : InsertionMap String StakingPosition) : Rat :=
  positions.total fun _ position => if position.stakerId = staker then position.amount else 0

/-- Recorded already, not yet withdrawn. -/
def pendingOf (staker : String) : UnstakeTask → Rat
  | ⟨dto, .saved _⟩ => if dto.stakerId = staker then dto.amount else 0
  | _ => 0

def inTransit (staker : String) (tasks : InsertionMap Nat UnstakeTask) : Rat :=
  tasks.total fun _ running => pendingOf staker running

def Covers (service : EmergencyUnstakeService) : UnstakeTask → Prop
  | ⟨dto, .saved _⟩ => ∀ position ∈ service.contracts.stakingPositions.get dto.stakingPositionId,
      dto.amount ≤ position.amount
  | _ => True

instance (service : EmergencyUnstakeService) (running : UnstakeTask) :
    Decidable (service.Covers running) :=
  match running with
  | ⟨_, .saved _⟩ => inferInstanceAs (Decidable (∀ _ ∈ _, _ ≤ _))
  | ⟨_, .findOne _⟩ => isTrue trivial
  | ⟨_, .getStakingPosition⟩ => isTrue trivial
  | ⟨_, .save _⟩ => isTrue trivial

/-- A withdrawal finds its position covering the amount. -/
def Covered : Machine.Permit EmergencyUnstakeService TimedUnstake UnstakeAnswer :=
  fun _ service timed =>
    match timed.call with
    | .proceed task _ => ∀ running ∈ service.tasks.get task, service.Covers running
    | _ => True

instance (past : List (TimedUnstake × UnstakeAnswer)) (service : EmergencyUnstakeService)
    (timed : TimedUnstake) : Decidable (Covered past service timed) :=
  match timed with
  | ⟨_, .proceed _ _⟩ => inferInstanceAs (Decidable (∀ _ ∈ _, _))
  | ⟨_, .initiateEmergencyUnstake _ _⟩ => isTrue trivial
  | ⟨_, .reject _ _⟩ => isTrue trivial

/-- The two stores differ by what is in transit. -/
structure Agreed (positions : InsertionMap String StakingPosition)
    (service : EmergencyUnstakeService) : Prop where
  drafted : ∀ task dto draft, service.tasks.get task = some ⟨dto, .save draft⟩ →
    draft.stakerId = dto.stakerId ∧ draft.amount = dto.amount
  owned : ∀ task dto stage, service.tasks.get task = some ⟨dto, stage⟩ → stage.Approved →
    ∃ position, service.contracts.stakingPositions.get dto.stakingPositionId = some position ∧
      position.stakerId = dto.stakerId
  balanced : ∀ staker, unstaked staker service.repository +
      heldBy staker service.contracts.stakingPositions =
    heldBy staker positions + inTransit staker service.tasks

section Steps
variable {zone : Zone} {service after : EmergencyUnstakeService} {now : Int} {call : UnstakeCall}
  {answer : UnstakeAnswer} {positions : InsertionMap String StakingPosition}

theorem unstaked_cons (staker : String) (record : EmergencyUnstake)
    (repository : List EmergencyUnstake) : unstaked staker (record :: repository) =
      (if record.stakerId = staker then record.amount else 0) + unstaked staker repository := by
  simp [unstaked]

/- What is in transit when a call moves on, and when it ends. -/
theorem inTransit_atStage {task : Nat} {dto : InitiateEmergencyUnstakeDto}
    {stage : UnstakeStage} (next : UnstakeStage)
    (running : service.tasks.get task = some ⟨dto, stage⟩) (staker : String) :
    inTransit staker (service.atStage task dto next).tasks + pendingOf staker ⟨dto, stage⟩ =
      inTransit staker service.tasks + pendingOf staker ⟨dto, next⟩ :=
  InsertionMap.total_set_present service.tasks (fun _ running => pendingOf staker running) _ running

theorem inTransit_withoutTask {task : Nat} {running : UnstakeTask}
    (found : service.tasks.get task = some running) (staker : String) :
    inTransit staker (service.withoutTask task).tasks + pendingOf staker running =
      inTransit staker service.tasks :=
  InsertionMap.total_delete service.tasks (fun _ running => pendingOf staker running) found

theorem heldBy_withdrawn {held : InsertionMap String StakingPosition} {id : String}
    {position : StakingPosition} (found : held.get id = some position) (amount : Rat)
    (staker : String) :
    heldBy staker (held.set id { position with amount := position.amount - amount }) =
      heldBy staker held - if position.stakerId = staker then amount else 0 := by
  have reduced := InsertionMap.total_set_present held
    (fun _ position => if position.stakerId = staker then position.amount else 0)
    { position with amount := position.amount - amount } found
  by_cases owner : position.stakerId = staker
  · simp only [owner, ↓reduceIte] at reduced ⊢
    exact eq_sub_of_add_eq (by simp only [heldBy]; linarith)
  · simp only [owner, ↓reduceIte, add_zero, sub_zero] at reduced ⊢
    exact reduced

theorem Agreed.withoutTask (agreed : Agreed positions service) {task : Nat}
    {dto : InitiateEmergencyUnstakeDto} {stage : UnstakeStage}
    (running : service.tasks.get task = some ⟨dto, stage⟩)
    (unsaved : ∀ record, stage ≠ .saved record) : Agreed positions (service.withoutTask task) := by
  refine ⟨fun other dto draft found => agreed.drafted other dto draft (get_of_delete found),
    fun other dto stage found => agreed.owned other dto stage (get_of_delete found), ?_⟩
  intro staker
  have ended := inTransit_withoutTask running staker
  have nothing : pendingOf staker ⟨dto, stage⟩ = 0 := by
    cases stage with
    | saved record => exact absurd rfl (unsaved record)
    | _ => rfl
  have balanced := agreed.balanced staker
  show unstaked staker service.repository + heldBy staker service.contracts.stakingPositions = _
  linarith

/- A call that moves on before its save. -/
theorem Agreed.atStage (agreed : Agreed positions service) {task : Nat}
    {dto : InitiateEmergencyUnstakeDto} {next : UnstakeStage}
    (drafted : ∀ draft, next = .save draft → draft.stakerId = dto.stakerId ∧
      draft.amount = dto.amount)
    (owned : next.Approved → ∃ position,
      service.contracts.stakingPositions.get dto.stakingPositionId = some position ∧
        position.stakerId = dto.stakerId)
    (still : ∀ staker, inTransit staker (service.atStage task dto next).tasks =
      inTransit staker service.tasks) : Agreed positions (service.atStage task dto next) := by
  refine ⟨?_, ?_, fun staker => (agreed.balanced staker).trans (by rw [still staker])⟩
  · intro other dto' draft found
    rcases get_set_cases found with ⟨_, same⟩ | ⟨_, before⟩
    · obtain ⟨rfl, rfl⟩ := UnstakeTask.mk.inj same
      exact drafted draft rfl
    · exact agreed.drafted other dto' draft before
  · intro other dto' stage found approved
    rcases get_set_cases found with ⟨_, same⟩ | ⟨_, before⟩
    · obtain ⟨rfl, rfl⟩ := UnstakeTask.mk.inj same
      exact owned approved
    · exact agreed.owned other dto' stage before approved

theorem Agreed.saved (agreed : Agreed positions service) {task : Nat}
    {dto : InitiateEmergencyUnstakeDto} {draft : UnstakeDraft} {record : EmergencyUnstake}
    (running : service.tasks.get task = some ⟨dto, .save draft⟩)
    (owner : record.stakerId = draft.stakerId) (amount : record.amount = draft.amount) :
    Agreed positions ({ service with repository := record :: service.repository }.atStage task dto
      (.saved record)) := by
  obtain ⟨mine, whole⟩ := agreed.drafted task dto draft running
  refine ⟨?_, ?_, ?_⟩
  · intro other dto' draft' found
    rcases get_set_cases found with ⟨_, same⟩ | ⟨_, before⟩
    · cases same
    · exact agreed.drafted other dto' draft' before
  · intro other dto' stage found approved
    rcases get_set_cases found with ⟨_, same⟩ | ⟨_, before⟩
    · obtain ⟨rfl, rfl⟩ := UnstakeTask.mk.inj same
      exact agreed.owned task dto' _ running trivial
    · exact agreed.owned other dto' stage before approved
  · intro staker
    have moved : inTransit staker (service.tasks.set task ⟨dto, .saved record⟩) + 0 =
        inTransit staker service.tasks + if dto.stakerId = staker then dto.amount else 0 :=
      inTransit_atStage (.saved record) running staker
    have balanced := agreed.balanced staker
    show unstaked staker (record :: service.repository) +
      heldBy staker service.contracts.stakingPositions =
        heldBy staker positions + inTransit staker (service.tasks.set task ⟨dto, .saved record⟩)
    rw [unstaked_cons, owner, amount, mine, whole]
    linarith

theorem Agreed.withdrew (agreed : Agreed positions service) {task : Nat}
    {dto : InitiateEmergencyUnstakeDto} {record : EmergencyUnstake} {position : StakingPosition}
    (running : service.tasks.get task = some ⟨dto, .saved record⟩)
    (found : service.contracts.stakingPositions.get dto.stakingPositionId = some position) :
    Agreed positions ({ service with contracts :=
      ⟨service.contracts.stakingPositions.set dto.stakingPositionId
        { position with amount := position.amount - dto.amount }⟩ }.withoutTask task) := by
  obtain ⟨_, present, owner⟩ := agreed.owned task dto _ running trivial
  obtain rfl := Option.some.inj (found.symm.trans present)
  refine ⟨fun other dto' draft' found' => agreed.drafted other dto' draft' (get_of_delete found'),
    ?_, ?_⟩
  · intro other dto' stage found' approved
    obtain ⟨held, present', owner'⟩ := agreed.owned other dto' stage (get_of_delete found') approved
    show ∃ left, (service.contracts.stakingPositions.set dto.stakingPositionId
      { position with amount := position.amount - dto.amount }).get dto'.stakingPositionId =
        some left ∧ left.stakerId = dto'.stakerId
    rw [InsertionMap.get_set]
    split
    · rename_i same
      rw [same] at present'
      obtain rfl := Option.some.inj (present.symm.trans present')
      exact ⟨_, rfl, owner'⟩
    · exact ⟨held, present', owner'⟩
  · intro staker
    have ended : inTransit staker (service.tasks.delete task) +
        (if dto.stakerId = staker then dto.amount else 0) = inTransit staker service.tasks :=
      inTransit_withoutTask running staker
    have balanced := agreed.balanced staker
    show unstaked staker service.repository +
      heldBy staker (service.contracts.stakingPositions.set dto.stakingPositionId
        { position with amount := position.amount - dto.amount }) =
        heldBy staker positions + inTransit staker (service.tasks.delete task)
    rw [heldBy_withdrawn found, owner]
    linarith

theorem Move.agreed (move : Move zone service now call after answer)
    (covered : Covered [] service ⟨now, call⟩) (agreed : Agreed positions service) :
    Agreed positions after := by
  cases move with
  | @started task dto free =>
    refine agreed.atStage (by simp) (fun approved => approved.elim) fun staker => ?_
    have fresh := InsertionMap.total_set_fresh service.tasks
      (fun _ running => pendingOf staker running) ⟨dto, .findOne (sevenDaysAgo zone now)⟩ free
    exact fresh.trans (add_zero _)
  | allowed running clear =>
    refine agreed.atStage (by simp) (fun approved => approved.elim) fun staker => ?_
    exact add_right_cancel (inTransit_atStage .getStakingPosition running staker)
  | @approved task recordId dto draft running reviewed =>
    obtain ⟨owner, amount, position, found, mine⟩ := reviewPosition_ok reviewed
    refine agreed.atStage ?_ (fun _ => ⟨position, found, mine⟩) fun staker => ?_
    · rintro draft' same
      obtain rfl := UnstakeStage.save.inj same
      exact ⟨owner, amount⟩
    · exact add_right_cancel (inTransit_atStage (.save draft) running staker)
  | saved running written => exact agreed.saved running (by rw [written]) (by rw [written])
  | withdrew running found covers => exact agreed.withdrew running found
  | uncovered running short thrown =>
    obtain ⟨position, found, _⟩ := agreed.owned _ _ _ running trivial
    exact absurd (covered _ running position found) (short position found).not_ge
  | refused running unsaved thrown => exact agreed.withoutTask running unsaved

end Steps

/-- The exchanges of the call in progress under a task, newest first. -/
def begins (task : Nat) (e : TimedUnstake × UnstakeAnswer) : Bool :=
  e.1.call.task = task && e.2 = .started

def ownSteps (task : Nat) (past : List (TimedUnstake × UnstakeAnswer)) :
    List (TimedUnstake × UnstakeAnswer) :=
  (past.takeWhile fun e => !begins task e).filter fun e => e.1.call.task = task

/-- The answer neither stores a record nor withdraws. -/
def Harmless (answer : UnstakeAnswer) : Prop :=
  (∀ record, answer ≠ .saved record) ∧ ∀ response, answer ≠ .finished response

/-- A call that has not saved yet has stored and withdrawn nothing. -/
def Unwritten (past : List (TimedUnstake × UnstakeAnswer)) (service : EmergencyUnstakeService) :
    Prop :=
  ∀ task dto stage, service.tasks.get task = some ⟨dto, stage⟩ → (∀ record, stage ≠ .saved record) →
    ∀ e ∈ ownSteps task past, Harmless e.2

section Throws
variable {zone : Zone} {service after : EmergencyUnstakeService} {timed : TimedUnstake}
  {answer : UnstakeAnswer} {past : List (TimedUnstake × UnstakeAnswer)}

theorem Move.frame {now : Int} {call : UnstakeCall} (move : Move zone service now call after answer)
    (harmless : Harmless answer) :
    after.repository = service.repository ∧ after.contracts = service.contracts := by
  cases move with
  | saved running written => exact absurd rfl (harmless.1 _)
  | withdrew running found covers => exact absurd rfl (harmless.2 _)
  | _ => exact ⟨rfl, rfl⟩

theorem ownSteps_cons {task : Nat} {e own : TimedUnstake × UnstakeAnswer}
    (member : own ∈ ownSteps task (e :: past)) :
    (own = e ∧ e.1.call.task = task ∧ begins task e = false) ∨ own ∈ ownSteps task past := by
  rw [ownSteps, List.takeWhile_cons] at member
  split at member
  · rename_i continues
    rw [List.mem_filter] at member
    rcases List.mem_cons.mp member.1 with rfl | earlier
    · exact Or.inl ⟨rfl, by simpa using member.2, by simpa using continues⟩
    · exact Or.inr (List.mem_filter.mpr ⟨earlier, member.2⟩)
  · simp at member

/- A step of one call leaves the others' exchanges as they were. -/
theorem Unwritten.later (unwritten : Unwritten past service)
    (tasks : ∀ task dto stage, after.tasks.get task = some ⟨dto, stage⟩ →
      (∀ record, stage ≠ .saved record) →
      (timed.call.task ≠ task ∧ service.tasks.get task = some ⟨dto, stage⟩) ∨
      (timed.call.task = task ∧ answer = .started) ∨
      (Harmless answer ∧ ∃ earlier, service.tasks.get task = some ⟨dto, earlier⟩ ∧
        ∀ record, earlier ≠ .saved record)) :
    Unwritten ((timed, answer) :: past) after := by
  intro task dto stage found unsaved own member
  rcases ownSteps_cons member with ⟨rfl, mine, going⟩ | earlier
  · rcases tasks task dto stage found unsaved with ⟨other, _⟩ | ⟨_, started⟩ | ⟨harmless, _⟩
    · exact absurd mine other
    · simp [begins, mine, started] at going
    · exact harmless
  · rcases tasks task dto stage found unsaved with
      ⟨_, before⟩ | ⟨mine, started⟩ | ⟨_, stage', before, early⟩
    · exact unwritten task dto stage before unsaved own earlier
    · have cut : ownSteps task ((timed, answer) :: past) = [] := by
        rw [ownSteps, List.takeWhile_cons_of_neg (by simp [begins, mine, started])]
        rfl
      rw [cut] at member
      cases member
    · exact unwritten task dto stage' before early own earlier

theorem Move.unwritten (move : Move zone service timed.now timed.call after answer)
    (unwritten : Unwritten past service) : Unwritten ((timed, answer) :: past) after := by
  obtain ⟨now, call⟩ := timed
  have ended : ∀ {task other : Nat} {dto : InitiateEmergencyUnstakeDto} {stage : UnstakeStage},
      (service.withoutTask task).tasks.get other = some ⟨dto, stage⟩ →
      task ≠ other ∧ service.tasks.get other = some ⟨dto, stage⟩ := by
    intro task other dto stage found
    refine ⟨?_, get_of_delete found⟩
    rintro rfl
    simp [withoutTask] at found
  cases move with
  | started dto free =>
    refine unwritten.later fun task dto' stage found unsaved => ?_
    rcases get_set_cases found with ⟨same, _⟩ | ⟨ne, before⟩
    · exact Or.inr (Or.inl ⟨same.symm, rfl⟩)
    · exact Or.inl ⟨Ne.symm ne, before⟩
  | allowed running clear =>
    refine unwritten.later fun task dto' stage found unsaved => ?_
    rcases get_set_cases found with ⟨rfl, same⟩ | ⟨ne, before⟩
    · obtain ⟨rfl, rfl⟩ := UnstakeTask.mk.inj same
      exact Or.inr (Or.inr ⟨by simp [Harmless], _, running, by simp⟩)
    · exact Or.inl ⟨Ne.symm ne, before⟩
  | approved running reviewed =>
    refine unwritten.later fun task dto' stage found unsaved => ?_
    rcases get_set_cases found with ⟨rfl, same⟩ | ⟨ne, before⟩
    · obtain ⟨rfl, rfl⟩ := UnstakeTask.mk.inj same
      exact Or.inr (Or.inr ⟨by simp [Harmless], _, running, by simp⟩)
    · exact Or.inl ⟨Ne.symm ne, before⟩
  | saved running written =>
    refine unwritten.later fun task dto' stage found unsaved => ?_
    rcases get_set_cases found with ⟨rfl, same⟩ | ⟨ne, before⟩
    · obtain ⟨rfl, rfl⟩ := UnstakeTask.mk.inj same
      exact absurd rfl (unsaved _)
    · exact Or.inl ⟨Ne.symm ne, before⟩
  | withdrew running present covers =>
    exact unwritten.later fun task dto' stage found unsaved => Or.inl (ended found)
  | uncovered running short thrown =>
    exact unwritten.later fun task dto' stage found unsaved => Or.inl (ended found)
  | refused running early thrown =>
    exact unwritten.later fun task dto' stage found unsaved => Or.inl (ended found)

end Throws

/-- The step left the records and the positions as they were. -/
def LeavesAsIs (zone : Zone) (e : TimedUnstake × UnstakeAnswer) : Prop :=
  ∀ before after, step zone before e.1 = some (after, e.2) →
    after.repository = before.repository ∧ after.contracts = before.contracts

/-- With no call in progress, a staker's records sum up to what the positions lost. -/
def RecordsAgree (zone : Zone)
    (permit : Machine.Permit EmergencyUnstakeService TimedUnstake UnstakeAnswer) : Prop :=
  ∀ positions past service, (machine zone positions).Run permit past service →
    service.tasks.entries = [] → ∀ staker, unstaked staker service.repository =
      heldBy staker positions - heldBy staker service.contracts.stakingPositions

/-- No step of a call that ends in an exception changed either store. -/
def ThrowsLeaveNothing (zone : Zone)
    (permit : Machine.Permit EmergencyUnstakeService TimedUnstake UnstakeAnswer) : Prop :=
  ∀ positions past service, (machine zone positions).Run permit past service →
    ∀ later earlier timed thrown, past = later ++ (timed, .threw thrown) :: earlier →
      ∀ e ∈ (timed, .threw thrown) :: ownSteps timed.call.task earlier, LeavesAsIs zone e

theorem agreed_run {zone : Zone} {positions : InsertionMap String StakingPosition}
    {past : List (TimedUnstake × UnstakeAnswer)} {service : EmergencyUnstakeService}
    (run : (machine zone positions).Run Covered past service) :
    Agreed positions service ∧ Unwritten past service := by
  refine run.invariant (fun past service => Agreed positions service ∧ Unwritten past service) ?_ ?_
  · refine ⟨⟨by simp [machine, initial], by simp [machine, initial], ?_⟩, ?_⟩
    · intro staker
      simp [machine, initial, unstaked, inTransit, InsertionMap.total, InsertionMap.empty]
    · intro task dto stage found
      cases found
  · rintro past service timed after answer _ ⟨agreed, unwritten⟩ permitted moved
    exact ⟨(step_moves moved).agreed permitted agreed, (step_moves moved).unwritten unwritten⟩

/-- Two stakers withdraw one after the other, a third call asks for too much. -/
def coveredUnstakes : List TimedUnstake :=
  unstakeAt 0 1 "u1" ++ [⟨5, .initiateEmergencyUnstake 2 ⟨"bob", "p2", 70⟩⟩, ⟨5, .proceed 2 ""⟩,
    ⟨5, .proceed 2 ""⟩]

def bothHold : InsertionMap String StakingPosition := aliceHolds.set "p2" ⟨"p2", "bob", 50, 0⟩

/-- Two calls of alice on one position, each within its balance, both beyond it together. -/
def overdrawingUnstakes : List TimedUnstake :=
  [⟨0, .initiateEmergencyUnstake 1 ⟨"alice", "p1", 60⟩⟩, ⟨0, .proceed 1 ""⟩,
   ⟨1, .initiateEmergencyUnstake 2 ⟨"alice", "p1", 60⟩⟩, ⟨1, .proceed 2 ""⟩,
   ⟨2, .proceed 1 ""⟩, ⟨3, .proceed 2 ""⟩, ⟨4, .proceed 1 "u1"⟩, ⟨5, .proceed 2 "u2"⟩,
   ⟨6, .proceed 1 ""⟩, ⟨7, .proceed 2 ""⟩]

/-- From this state the exchange changes how many records there are. -/
def recordsChange (before : EmergencyUnstakeService) (e : TimedUnstake × UnstakeAnswer) : Bool :=
  (step Zone.utc before e.1).any fun moved =>
    moved.2 = e.2 && moved.1.repository.length ≠ before.repository.length

theorem recordsChange_touches {before : EmergencyUnstakeService}
    {e : TimedUnstake × UnstakeAnswer} (changes : recordsChange before e = true) :
    ¬ LeavesAsIs Zone.utc e := by
  intro untouched
  obtain ⟨⟨after, answer⟩, moved, differs⟩ := Option.any_eq_true _ _ |>.mp changes
  simp only [Bool.and_eq_true, decide_eq_true_eq] at differs
  obtain ⟨rfl, longer⟩ := differs
  exact longer (by rw [(untouched before after moved).1])

end EmergencyUnstakeService
end AstraPort.Staking
