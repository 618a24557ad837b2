import Mathlib.Data.List.Sort
import AstraPort.Foundation.Host
import AstraPort.Foundation.InsertionMap
import AstraPort.Foundation.Machine

/- EmergencyUnstakeService over its repository and ContractsService, as a machine. A call
   of initiateEmergencyUnstake moves from await to await, so calls interleave at each of
   them. Amounts and rates are exact rationals; instants are epoch milliseconds. -/
namespace AstraPort.Staking

structure StakingPosition where
  id : String
  stakerId : String
  amount : Rat
  unlockDate : Int
  deriving DecidableEq

structure ContractsService where
  stakingPositions : InsertionMap String StakingPosition

namespace ContractsService

def getStakingPosition (contracts : ContractsService) (stakingPositionId : String) :
    Option StakingPosition := contracts.stakingPositions.get stakingPositionId

/-- The penalty is only logged. -/
def processEmergencyWithdrawal (contracts : ContractsService) (stakingPositionId : String)
    (amount _penaltyAmount : Rat) : ContractsService × Except Thrown Bool :=
  match contracts.stakingPositions.get stakingPositionId with
  | none => (contracts, .error (.notFound "Staking position not found"))
  | some position =>
    if position.amount < amount then
      (contracts, .error (.error "Insufficient balance for withdrawal"))
    else
      let withdrawn := { position with amount := position.amount - amount }
      ({ contracts with stakingPositions :=
          contracts.stakingPositions.set stakingPositionId withdrawn }, .ok true)

end ContractsService

structure InitiateEmergencyUnstakeDto where
  stakerId : String
  stakingPositionId : String
  amount : Rat
  deriving DecidableEq

structure PenaltyConfigDto where
  maxPenaltyRate : Rat
  minPenaltyRate : Rat
  rateLimitDays : Nat
  lockupPeriodDays : Nat
  deriving DecidableEq

inductive UnstakeStatus where
  | pending
  | processed
  | failed
  deriving DecidableEq

structure AuditEntry where
  timestamp : Int
  action : String
  deriving DecidableEq

/-- What the repository creates; saving adds the id and the creation time. -/
structure UnstakeDraft where
  stakerId : String
  amount : Rat
  penalty : Rat
  penaltyRate : Rat
  originalUnlockDate : Int
  status : UnstakeStatus
  auditLog : List AuditEntry
  deriving DecidableEq

structure EmergencyUnstake extends UnstakeDraft where
  id : String
  createdAt : Int
  processedAt : Option Int
  deriving DecidableEq

structure PenaltyResponse where
  rate : Rat
  amount : Rat
  netAmount : Rat
  deriving DecidableEq

structure UnstakeResponse where
  success : Bool
  transactionId : String
  status : UnstakeStatus
  penalty : PenaltyResponse
  message : String
  deriving DecidableEq

/-- The await a call stands at. -/
inductive UnstakeStage where
  | findOne (sevenDaysAgo : Int)
  | getStakingPosition
  | save (draft : UnstakeDraft)
  | saved (record : EmergencyUnstake)
  deriving DecidableEq

structure UnstakeTask where
  dto : InitiateEmergencyUnstakeDto
  stage : UnstakeStage
  deriving DecidableEq

structure EmergencyUnstakeService where
  repository : List EmergencyUnstake
  contracts : ContractsService
  tasks : InsertionMap Nat UnstakeTask

/-- The id of a saved record comes with the call, as does the error of a repository call
    that rejects. -/
inductive UnstakeCall where
  | initiateEmergencyUnstake (task : Nat) (dto : InitiateEmergencyUnstakeDto)
  | proceed (task : Nat) (recordId : String)
  | reject (task : Nat) (message : String)
  deriving DecidableEq

def UnstakeCall.task : UnstakeCall → Nat
  | .initiateEmergencyUnstake task _ => task
  | .proceed task _ => task
  | .reject task _ => task

structure TimedUnstake where
  now : Int
  call : UnstakeCall
  deriving DecidableEq

inductive UnstakeAnswer where
  | started
  | allowed
  | approved (draft : UnstakeDraft)
  | saved (record : EmergencyUnstake)
  | finished (response : UnstakeResponse)
  | threw (thrown : Thrown)
  deriving DecidableEq

/-- The local time zone of the host. -/
structure Zone where
  toLocal : Int → Int
  toUtc : Int → Int

def Zone.utc : Zone := ⟨id, id⟩

namespace EmergencyUnstakeService

def penaltyConfig : PenaltyConfigDto :=
  { maxPenaltyRate := 1 / 4, minPenaltyRate := 1 / 20, rateLimitDays := 7, lockupPeriodDays := 180 }

def calculatePenalty (currentDate unlockDate : Int) : Rat :=
  let totalLockupPeriod : Rat := penaltyConfig.lockupPeriodDays * millisPerDay
  let timeRemaining : Int := unlockDate - currentDate
  if timeRemaining ≤ 0 then 0
  else
    let timeRemainingRatio := timeRemaining / totalLockupPeriod
    let penaltyRange := penaltyConfig.maxPenaltyRate - penaltyConfig.minPenaltyRate
    min (penaltyConfig.minPenaltyRate + penaltyRange * timeRemainingRatio)
      penaltyConfig.maxPenaltyRate

/-- Date.setDate counts days in local time. -/
def sevenDaysAgo (zone : Zone) (now : Int) : Int :=
  zone.toUtc (zone.toLocal now - penaltyConfig.rateLimitDays * millisPerDay)

/-- The latest unstake of the staker after an instant. -/
def findRecent (repository : List EmergencyUnstake) (stakerId : String) (since : Int) :
    Option EmergencyUnstake :=
  let recent := repository.filter fun record =>
    record.stakerId = stakerId ∧ since < record.createdAt
  (recent.insertionSort fun one other => other.createdAt ≤ one.createdAt).head?

def checkRateLimit (repository : List EmergencyUnstake) (stakerId : String) (since : Int) : Bool :=
  (findRecent repository stakerId since).isNone

/-- From the position to the record to save, or the error that says why not. -/
def reviewPosition (dto : InitiateEmergencyUnstakeDto) (currentDate : Int) :
    Option StakingPosition → Except Thrown UnstakeDraft
  | none => .error (.notFound "Staking position not found")
  | some stakingPosition =>
    if stakingPosition.stakerId ≠ dto.stakerId then
      .error (.badRequest "Staker ID does not match position owner")
    else if stakingPosition.amount < dto.amount then
      .error (.badRequest "Requested amount exceeds staked balance")
    else
      let penalty := calculatePenalty currentDate stakingPosition.unlockDate
      .ok { stakerId := dto.stakerId, amount := dto.amount, penalty := dto.amount * penalty,
            penaltyRate := penalty, originalUnlockDate := stakingPosition.unlockDate,
            status := .pending, auditLog := [⟨currentDate, "INITIATED"⟩] }

def respond (dto : InitiateEmergencyUnstakeDto) (record : EmergencyUnstake) : UnstakeResponse :=
  { success := true, transactionId := record.id, status := record.status,
    penalty := ⟨record.penaltyRate, record.penalty, dto.amount - record.penalty⟩,
    message := "Emergency unstake initiated successfully" }

def initial (positions : InsertionMap String StakingPosition) : EmergencyUnstakeService :=
  ⟨[], ⟨positions⟩, InsertionMap.empty⟩

def atStage (service : EmergencyUnstakeService) (task : Nat) (dto : InitiateEmergencyUnstakeDto)
    (stage : UnstakeStage) : EmergencyUnstakeService :=
  { service with tasks := service.tasks.set task ⟨dto, stage⟩ }

def withoutTask (service : EmergencyUnstakeService) (task : Nat) : EmergencyUnstakeService :=
  { service with tasks := service.tasks.delete task }

/-- From one await of initiateEmergencyUnstake to the next. -/
def turn (service : EmergencyUnstakeService) (task : Nat) (dto : InitiateEmergencyUnstakeDto)
    (recordId : String) (now : Int) : UnstakeStage → EmergencyUnstakeService × UnstakeAnswer
  | .findOne since =>
    if checkRateLimit service.repository dto.stakerId since then
      (service.atStage task dto .getStakingPosition, .allowed)
    else
      (service.withoutTask task,
        .threw (.badRequest "Emergency unstake is limited to once every 7 days per staker"))
  | .getStakingPosition =>
    match reviewPosition dto now (service.contracts.getStakingPosition dto.stakingPositionId) with
    | .ok draft => (service.atStage task dto (.save draft), .approved draft)
    | .error thrown => (service.withoutTask task, .threw thrown)
  | .save draft =>
    let record : EmergencyUnstake :=
      { draft with id := recordId, createdAt := now, processedAt := none }
    ({ service with repository := record :: service.repository }.atStage task dto (.saved record),
      .saved record)
  | .saved record =>
    match service.contracts.processEmergencyWithdrawal dto.stakingPositionId dto.amount
        record.penalty with
    | (contracts, .ok _) =>
      ({ service with contracts := contracts }.withoutTask task, .finished (respond dto record))
    | (contracts, .error thrown) =>
      ({ service with contracts := contracts }.withoutTask task, .threw thrown)

def step (zone : Zone) (service : EmergencyUnstakeService) (timed : TimedUnstake) :
    Option (EmergencyUnstakeService × UnstakeAnswer) :=
  match timed.call with
  | .initiateEmergencyUnstake task dto =>
    if (service.tasks.get task).isSome then none
    else some (service.atStage task dto (.findOne (sevenDaysAgo zone timed.now)), .started)
  | .proceed task recordId =>
    (service.tasks.get task).map fun running =>
      service.turn task running.dto recordId timed.now running.stage
  | .reject task message =>
    match (service.tasks.get task).map UnstakeTask.stage with
    | some (.findOne _) => some (service.withoutTask task, .threw (.error message))
    | some (.save _) => some (service.withoutTask task, .threw (.error message))
    | _ => none

def machine (zone : Zone) (positions : InsertionMap String StakingPosition) :
    Machine EmergencyUnstakeService TimedUnstake UnstakeAnswer := ⟨initial positions, step zone⟩

theorem checkRateLimit_iff (repository : List EmergencyUnstake) (stakerId : String) (since : Int) :
    checkRateLimit repository stakerId since = true ↔
      ∀ record ∈ repository, record.stakerId = stakerId → record.createdAt ≤ since := by
  have none_recent : checkRateLimit repository stakerId since = true ↔
      (repository.filter fun record =>
        record.stakerId = stakerId ∧ since < record.createdAt) = [] := by
    rw [checkRateLimit, findRecent, Option.isNone_iff_eq_none, List.head?_eq_none_iff,
      ← List.length_eq_zero_iff, List.length_insertionSort, List.length_eq_zero_iff]
  rw [none_recent, List.filter_eq_nil_iff]
  simp only [decide_eq_true_eq, not_and, not_lt]

/- What a review that passes has seen. -/
theorem reviewPosition_ok {dto : InitiateEmergencyUnstakeDto} {now : Int}
    {found : Option StakingPosition} {draft : UnstakeDraft}
    (reviewed : reviewPosition dto now found = .ok draft) :
    draft.stakerId = dto.stakerId ∧ draft.amount = dto.amount ∧
      ∃ position, found = some position ∧ position.stakerId = dto.stakerId := by
  cases found with
  | none => cases reviewed
  | some position =>
    simp only [reviewPosition] at reviewed
    split at reviewed
    · cases reviewed
    · rename_i owner
      split at reviewed
      · cases reviewed
      · obtain rfl := Except.ok.inj reviewed
        exact ⟨rfl, rfl, position, rfl, not_not.mp owner⟩

/-- Everything a step can do. -/
inductive Move (zone : Zone) (service : EmergencyUnstakeService) (now : Int) :
    UnstakeCall → EmergencyUnstakeService → UnstakeAnswer → Prop where
  | started {task : Nat} (dto : InitiateEmergencyUnstakeDto)
      (free : service.tasks.get task = none) :
      Move zone service now (.initiateEmergencyUnstake task dto)
        (service.atStage task dto (.findOne (sevenDaysAgo zone now))) .started
  | allowed {task : Nat} {recordId : String} {dto : InitiateEmergencyUnstakeDto} {since : Int}
      (running : service.tasks.get task = some ⟨dto, .findOne since⟩)
      (clear : ∀ record ∈ service.repository, record.stakerId = dto.stakerId →
        record.createdAt ≤ since) :
      Move zone service now (.proceed task recordId)
        (service.atStage task dto .getStakingPosition) .allowed
  | approved {task : Nat} {recordId : String} {dto : InitiateEmergencyUnstakeDto}
      {draft : UnstakeDraft} (running : service.tasks.get task = some ⟨dto, .getStakingPosition⟩)
      (reviewed : reviewPosition dto now
        (service.contracts.stakingPositions.get dto.stakingPositionId) = .ok draft) :
      Move zone service now (.proceed task recordId)
        (service.atStage task dto (.save draft)) (.approved draft)
  | saved {task : Nat} {recordId : String} {dto : InitiateEmergencyUnstakeDto}
      {draft : UnstakeDraft} {record : EmergencyUnstake}
      (running : service.tasks.get task = some ⟨dto, .save draft⟩)
      (written : record = { draft with id := recordId, createdAt := now, processedAt := none }) :
      Move zone service now (.proceed task recordId)
        ({ service with repository := record :: service.repository }.atStage task dto
          (.saved record)) (.saved record)
  | withdrew {task : Nat} {recordId : String} {dto : InitiateEmergencyUnstakeDto}
      {record : EmergencyUnstake} {position : StakingPosition}
      (running : service.tasks.get task = some ⟨dto, .saved record⟩)
      (found : service.contracts.stakingPositions.get dto.stakingPositionId = some position)
      (covered : dto.amount ≤ position.amount) :
      Move zone service now (.proceed task recordId)
        ({ service with contracts := ⟨service.contracts.stakingPositions.set dto.stakingPositionId
          { position with amount := position.amount - dto.amount }⟩ }.withoutTask task)
        (.finished (respond dto record))
  | uncovered {task : Nat} {recordId : String} {dto : InitiateEmergencyUnstakeDto}
      {record : EmergencyUnstake} (running : service.tasks.get task = some ⟨dto, .saved record⟩)
      (short : ∀ position,
        service.contracts.stakingPositions.get dto.stakingPositionId = some position →
        position.amount < dto.amount) (thrown : Thrown) :
      Move zone service now (.proceed task recordId) (service.withoutTask task) (.threw thrown)
  | refused {call : UnstakeCall} {dto : InitiateEmergencyUnstakeDto} {stage : UnstakeStage}
      (running : service.tasks.get call.task = some ⟨dto, stage⟩)
      (unsaved : ∀ record, stage ≠ .saved record) (thrown : Thrown) :
      Move zone service now call (service.withoutTask call.task) (.threw thrown)

theorem turn_moves {zone : Zone} {service after : EmergencyUnstakeService} {now : Int}
    {answer : UnstakeAnswer} {task : Nat} {recordId : String} {running : UnstakeTask}
    (found : service.tasks.get task = some running)
    (turned : service.turn task running.dto recordId now running.stage = (after, answer)) :
    Move zone service now (.proceed task recordId) after answer := by
  obtain ⟨dto, stage⟩ := running
  cases stage with
  | findOne since =>
    simp only [turn] at turned
    split at turned
    · rename_i clear
      obtain ⟨rfl, rfl⟩ := Prod.mk.inj turned
      exact .allowed found ((checkRateLimit_iff _ _ _).mp clear)
    · obtain ⟨rfl, rfl⟩ := Prod.mk.inj turned
      exact .refused found (by simp) _
  | getStakingPosition =>
    simp only [turn] at turned
    split at turned
    · rename_i draft reviewed
      obtain ⟨rfl, rfl⟩ := Prod.mk.inj turned
      exact .approved found reviewed
    · obtain ⟨rfl, rfl⟩ := Prod.mk.inj turned
      exact .refused found (by simp) _
  | save draft =>
    obtain ⟨rfl, rfl⟩ := Prod.mk.inj turned
    exact .saved found rfl
  | saved record =>
    simp only [turn, ContractsService.processEmergencyWithdrawal] at turned
    cases held : service.contracts.stakingPositions.get dto.stakingPositionId with
    | none =>
      simp only [held] at turned
      obtain ⟨rfl, rfl⟩ := Prod.mk.inj turned
      exact .uncovered found (by simp [held]) _
    | some position =>
      simp only [held] at turned
      by_cases short : position.amount < dto.amount
      · simp only [short, ↓reduceIte] at turned
        obtain ⟨rfl, rfl⟩ := Prod.mk.inj turned
        refine .uncovered found ?_ _
        rintro other same
        obtain rfl := Option.some.inj (held.symm.trans same)
        exact short
      · simp only [short, ↓reduceIte] at turned
        obtain ⟨rfl, rfl⟩ := Prod.mk.inj turned
        exact .withdrew found held (not_lt.mp short)

/- Inversion of a step; later proofs split on its moves and unfold nothing. -/
theorem step_moves {zone : Zone} {service after : EmergencyUnstakeService} {timed : TimedUnstake}
    {answer : UnstakeAnswer} (moved : step zone service timed = some (after, answer)) :
    Move zone service timed.now timed.call after answer := by
  obtain ⟨now, call⟩ := timed
  cases call with
  | initiateEmergencyUnstake task dto =>
    simp only [step] at moved
    split at moved
    · cases moved
    · rename_i free
      obtain ⟨rfl, rfl⟩ := Prod.mk.inj (Option.some.inj moved)
      exact .started dto (by simpa using free)
  | proceed task recordId =>
    obtain ⟨running, found, turned⟩ := Option.map_eq_some_iff.mp moved
    exact turn_moves found turned
  | reject task message =>
    simp only [step] at moved
    split at moved
    all_goals
      rename_i at_stage
      try cases moved
    · obtain ⟨running, found, stage⟩ := Option.map_eq_some_iff.mp at_stage
      exact .refused found (by simp [stage]) _
    · obtain ⟨running, found, stage⟩ := Option.map_eq_some_iff.mp at_stage
      exact .refused found (by simp [stage]) _

end EmergencyUnstakeService
end AstraPort.Staking
