import Mathlib.Tactic.Linarith
import AstraPort.Staking.EmergencyAgreement

/- Emergency withdrawals against the balances they are taken from. The look at the balance that
   approves a call is stale by the time money moves; the one made together with the subtraction
   is not, and it alone keeps every position covered. -/
namespace AstraPort.Staking.EmergencyUnstakeService
open InsertionMap (get_of_delete get_set_cases)

def startedWith (task : Nat) : TimedUnstake × UnstakeAnswer → Option InitiateEmergencyUnstakeDto
  | (⟨_, .initiateEmergencyUnstake other dto⟩, .started) => if other = task then some dto else none
  | _ => none

/-- The request that the latest call under a task was started with. -/
def requestOf (task : Nat) (past : List (TimedUnstake × UnstakeAnswer)) :
    Option InitiateEmergencyUnstakeDto := past.findSome? (startedWith task)

/-- The requests of the calls that are past their withdrawal, newest first. The response is made
    in the same turn, so these are the calls that return success. -/
def succeeded : List (TimedUnstake × UnstakeAnswer) → List InitiateEmergencyUnstakeDto
  | [] => []
  | (timed, .finished _) :: past => (requestOf timed.call.task past).toList ++ succeeded past
  | _ :: past => succeeded past

def withdrawnFrom (stakingPositionId : String) (past : List (TimedUnstake × UnstakeAnswer)) : Rat :=
  ((succeeded past).map fun dto =>
    if dto.stakingPositionId = stakingPositionId then dto.amount else 0).sum

/-- The owner of a position among the given ones. -/
def OwnedBy (positions : InsertionMap String StakingPosition) (dto : InitiateEmergencyUnstakeDto) :
    Prop :=
  ∃ position, positions.get dto.stakingPositionId = some position ∧
    position.stakerId = dto.stakerId

/-- Balances are the initial ones less what the calls that succeeded asked for, all of them
    calls of the owner. -/
structure Balanced (positions : InsertionMap String StakingPosition)
    (past : List (TimedUnstake × UnstakeAnswer)) (service : EmergencyUnstakeService) : Prop where
  requested : ∀ task running, service.tasks.get task = some running →
    requestOf task past = some running.dto
  approved : ∀ task dto stage, service.tasks.get task = some ⟨dto, stage⟩ → stage.Approved →
    OwnedBy positions dto
  balances : ∀ id, service.contracts.stakingPositions.get id = (positions.get id).map fun position =>
    { position with amount := position.amount - withdrawnFrom id past }
  covered : ∀ id position, positions.get id = some position → 0 ≤ position.amount →
    withdrawnFrom id past ≤ position.amount
  owned : ∀ dto ∈ succeeded past, OwnedBy positions dto

/-- A position changes only in a turn of a call of its owner. -/
def OwnerActs (before : EmergencyUnstakeService) (timed : TimedUnstake) (_ : UnstakeAnswer)
    (after : EmergencyUnstakeService) : Prop :=
  ∀ id position, before.contracts.stakingPositions.get id = some position →
    after.contracts.stakingPositions.get id ≠ some position →
    ∃ running, before.tasks.get timed.call.task = some running ∧
      running.dto.stakingPositionId = id ∧ running.dto.stakerId = position.stakerId

section Steps
variable {zone : Zone} {service after : EmergencyUnstakeService} {now : Int} {call : UnstakeCall}
  {answer : UnstakeAnswer} {positions : InsertionMap String StakingPosition}
  {past : List (TimedUnstake × UnstakeAnswer)}

theorem requestOf_later {timed : TimedUnstake} (task : Nat) (unstarted : answer ≠ .started) :
    requestOf task ((timed, answer) :: past) = requestOf task past := by
  obtain ⟨now, call⟩ := timed
  have nothing : startedWith task (⟨now, call⟩, answer) = none := by
    cases call with
    | initiateEmergencyUnstake other dto =>
      cases answer with
      | started => exact absurd rfl unstarted
      | _ => rfl
    | proceed other recordId => rfl
    | reject other message => rfl
  rw [requestOf, List.findSome?_cons, nothing]
  rfl

theorem succeeded_later {timed : TimedUnstake} (unfinished : ∀ response, answer ≠ .finished response) :
    succeeded ((timed, answer) :: past) = succeeded past := by
  cases answer with
  | finished response => exact absurd rfl (unfinished response)
  | _ => rfl

theorem withdrawnFrom_later {timed : TimedUnstake}
    (unfinished : ∀ response, answer ≠ .finished response) (id : String) :
    withdrawnFrom id ((timed, answer) :: past) = withdrawnFrom id past := by
  rw [withdrawnFrom, succeeded_later unfinished]
  rfl

theorem succeeded_finished {task : Nat} {dto : InitiateEmergencyUnstakeDto}
    (requested : requestOf task past = some dto) (recordId : String) (response : UnstakeResponse) :
    succeeded ((⟨now, .proceed task recordId⟩, .finished response) :: past) =
      dto :: succeeded past := by
  rw [succeeded, UnstakeCall.task, requested]
  rfl

/- A turn that neither starts a call nor withdraws. -/
theorem Balanced.kept (balanced : Balanced positions past service) {timed : TimedUnstake}
    (unstarted : answer ≠ .started) (unfinished : ∀ response, answer ≠ .finished response)
    (same : after.contracts = service.contracts)
    (tasks : ∀ task running, after.tasks.get task = some running →
      (∃ earlier, service.tasks.get task = some ⟨running.dto, earlier⟩ ∧
        (running.stage.Approved → earlier.Approved)) ∨
      (requestOf task past = some running.dto ∧ OwnedBy positions running.dto)) :
    Balanced positions ((timed, answer) :: past) after := by
  constructor
  · intro task running found
    rw [requestOf_later task unstarted]
    rcases tasks task running found with ⟨earlier, before, _⟩ | ⟨requested, _⟩
    · exact balanced.requested task ⟨running.dto, earlier⟩ before
    · exact requested
  · intro task dto stage found approved
    rcases tasks task _ found with ⟨earlier, before, still⟩ | ⟨_, owned⟩
    · exact balanced.approved task dto earlier before (still approved)
    · exact owned
  · intro id
    rw [same, withdrawnFrom_later unfinished]
    exact balanced.balances id
  · intro id position held nonneg
    rw [withdrawnFrom_later unfinished]
    exact balanced.covered id position held nonneg
  · rw [succeeded_later unfinished]
    exact balanced.owned

theorem Balanced.started (balanced : Balanced positions past service) {task : Nat}
    (dto : InitiateEmergencyUnstakeDto) (since : Int) :
    Balanced positions ((⟨now, .initiateEmergencyUnstake task dto⟩, .started) :: past)
      (service.atStage task dto (.findOne since)) := by
  constructor
  · intro other running found
    rw [requestOf, List.findSome?_cons, startedWith]
    rcases get_set_cases found with ⟨rfl, rfl⟩ | ⟨ne, before⟩
    · rw [if_pos rfl]
    · rw [if_neg (Ne.symm ne)]
      exact balanced.requested other running before
  · intro other dto' stage found approved
    rcases get_set_cases found with ⟨_, same⟩ | ⟨_, before⟩
    · obtain ⟨rfl, rfl⟩ := UnstakeTask.mk.inj same
      exact approved.elim
    · exact balanced.approved other dto' stage before approved
  · exact balanced.balances
  · exact balanced.covered
  · exact balanced.owned

theorem withdrawnFrom_finished {task : Nat} {dto : InitiateEmergencyUnstakeDto}
    (requested : requestOf task past = some dto) (recordId : String) (response : UnstakeResponse)
    (id : String) :
    withdrawnFrom id ((⟨now, .proceed task recordId⟩, .finished response) :: past) =
      (if dto.stakingPositionId = id then dto.amount else 0) + withdrawnFrom id past := by
  rw [withdrawnFrom, succeeded_finished requested, List.map_cons, List.sum_cons]
  rfl

theorem Balanced.withdrew (balanced : Balanced positions past service) {task : Nat}
    {recordId : String} {dto : InitiateEmergencyUnstakeDto} {record : EmergencyUnstake}
    {position : StakingPosition} (running : service.tasks.get task = some ⟨dto, .saved record⟩)
    (found : service.contracts.stakingPositions.get dto.stakingPositionId = some position)
    (covers : dto.amount ≤ position.amount) (response : UnstakeResponse) :
    Balanced positions ((⟨now, .proceed task recordId⟩, .finished response) :: past)
      ({ service with contracts := ⟨service.contracts.stakingPositions.set dto.stakingPositionId
        { position with amount := position.amount - dto.amount }⟩ }.withoutTask task) := by
  have requested : requestOf task past = some dto := balanced.requested task _ running
  have mine := balanced.approved task dto _ running trivial
  have initial := balanced.balances dto.stakingPositionId
  rw [found, eq_comm, Option.map_eq_some_iff] at initial
  obtain ⟨first, held, rfl⟩ := initial
  constructor
  · intro other stage ongoing
    rw [requestOf_later other (by simp)]
    exact balanced.requested other stage (get_of_delete ongoing)
  · intro other dto' stage ongoing approved
    exact balanced.approved other dto' stage (get_of_delete ongoing) approved
  · intro id
    rw [withdrawnFrom_finished requested]
    show (service.contracts.stakingPositions.set dto.stakingPositionId _).get id = _
    rw [InsertionMap.get_set]
    by_cases same : id = dto.stakingPositionId
    · subst id
      rw [if_pos rfl, if_pos rfl, held, Option.map_some, Option.some.injEq]
      congr 1
      ring
    · rw [if_neg same, if_neg (Ne.symm same), zero_add]
      exact balanced.balances id
  · intro id other present nonneg
    rw [withdrawnFrom_finished requested]
    by_cases same : dto.stakingPositionId = id
    · subst id
      obtain rfl := Option.some.inj (held.symm.trans present)
      rw [if_pos rfl]
      simp only at covers
      linarith
    · rw [if_neg same, zero_add]
      exact balanced.covered id other present nonneg
  · rw [succeeded_finished requested]
    intro dto' member
    rcases List.mem_cons.mp member with rfl | before
    · exact mine
    · exact balanced.owned dto' before

theorem Move.balanced (move : Move zone service now call after answer)
    (balanced : Balanced positions past service) :
    Balanced positions ((⟨now, call⟩, answer) :: past) after := by
  have ended {task : Nat} (other : Nat) (running : UnstakeTask)
      (found : (service.withoutTask task).tasks.get other = some running) :
      ∃ earlier, service.tasks.get other = some ⟨running.dto, earlier⟩ ∧
        (running.stage.Approved → earlier.Approved) :=
    ⟨running.stage, get_of_delete found, id⟩
  cases move with
  | started dto free => exact balanced.started dto _
  | allowed running clear =>
    refine balanced.kept (by simp) (by simp) rfl fun other stage found => Or.inl ?_
    rcases get_set_cases found with ⟨rfl, rfl⟩ | ⟨_, before⟩
    · exact ⟨_, running, fun approved => approved.elim⟩
    · exact ⟨stage.stage, before, id⟩
  | @approved task recordId dto draft running reviewed =>
    refine balanced.kept (by simp) (by simp) rfl fun other stage found => ?_
    rcases get_set_cases found with ⟨rfl, rfl⟩ | ⟨_, before⟩
    · obtain ⟨_, _, position, present, owner⟩ := reviewPosition_ok reviewed
      have initial := balanced.balances dto.stakingPositionId
      rw [present, eq_comm, Option.map_eq_some_iff] at initial
      obtain ⟨first, held, rfl⟩ := initial
      have requested : requestOf other past = some dto := balanced.requested other _ running
      exact Or.inr ⟨requested, first, held, owner⟩
    · exact Or.inl ⟨stage.stage, before, id⟩
  | saved running written =>
    refine balanced.kept (by simp) (by simp) rfl fun other stage found => Or.inl ?_
    rcases get_set_cases found with ⟨rfl, rfl⟩ | ⟨_, before⟩
    · exact ⟨_, running, fun _ => trivial⟩
    · exact ⟨stage.stage, before, id⟩
  | withdrew running found covers => exact balanced.withdrew running found covers _
  | uncovered running short thrown =>
    exact balanced.kept (by simp) (by simp) rfl fun other stage found =>
      Or.inl (ended other stage found)
  | refused running unsaved thrown =>
    exact balanced.kept (by simp) (by simp) rfl fun other stage found =>
      Or.inl (ended other stage found)

theorem balanced_always
    (run : (machine zone positions).Run Machine.anything past service) :
    Balanced positions past service := by
  refine run.invariant (Balanced positions) ?_ ?_
  · constructor
    · intro task running found
      cases found
    · intro task dto stage found
      cases found
    · intro id
      have nothing : withdrawnFrom id [] = 0 := rfl
      simp only [nothing, sub_zero]
      exact Option.map_id'.symm
    · intro id position _ nonneg
      exact nonneg
    · intro dto member
      cases member
  · intro past service timed after answer _ balanced _ moved
    exact (step_moves moved).balanced balanced

theorem Move.ownerActs (move : Move zone service now call after answer)
    (balanced : Balanced positions past service) :
    OwnerActs service ⟨now, call⟩ answer after := by
  intro id position held changed
  cases move with
  | @withdrew task recordId dto record withdrawn running found covers =>
    by_cases same : id = dto.stakingPositionId
    · subst id
      obtain ⟨first, initial, owner⟩ := balanced.approved task dto _ running trivial
      have present := balanced.balances dto.stakingPositionId
      rw [held, initial, Option.map_some, Option.some.injEq] at present
      refine ⟨_, running, rfl, ?_⟩
      rw [present]
      exact owner.symm
    · exact absurd ((InsertionMap.get_set_ne _ _ same).trans held) changed
  | _ => exact absurd held changed

end Steps

end AstraPort.Staking.EmergencyUnstakeService
