import Mathlib.Tactic.Linarith
import Mathlib.Tactic.NormNum
import Mathlib.Data.Rat.Floor
import AstraPort.Staking.EmergencyBalances

/- The penalty of an emergency unstake as a function of its two dates: nothing once unlocked, a
   jump to the minimum just before, a line up to the cap. A call is charged what a preview of
   its amount and unlock date says at the moment it is approved. -/
namespace AstraPort.Staking

structure EmergencyUnstakePreviewDto where
  stakerId : String
  stakingPositionId : String
  amount : Rat
  currentUnlockDate : Int
  deriving DecidableEq

structure PenaltyPreview where
  originalAmount : Rat
  penaltyRate : Rat
  penaltyAmount : Rat
  netAmount : Rat
  unlockDate : Int
  daysRemaining : Int
  deriving DecidableEq

namespace EmergencyUnstakeService
open InsertionMap (get_of_delete get_set_cases)

def previewPenalty (previewDto : EmergencyUnstakePreviewDto) (currentDate : Int) :
    PenaltyPreview :=
  let penalty := calculatePenalty currentDate previewDto.currentUnlockDate
  let penaltyAmount := previewDto.amount * penalty
  { originalAmount := previewDto.amount
    penaltyRate := penalty
    penaltyAmount := penaltyAmount
    netAmount := previewDto.amount - penaltyAmount
    unlockDate := previewDto.currentUnlockDate
    daysRemaining :=
      ⌈((previewDto.currentUnlockDate - currentDate : Int) : Rat) / (millisPerDay : Rat)⌉ }

def lockupPeriod : Int := penaltyConfig.lockupPeriodDays * millisPerDay

section Schedule
variable (now unlock : Int)

/-- The line before the cap. -/
def uncapped : Rat :=
  penaltyConfig.minPenaltyRate + (penaltyConfig.maxPenaltyRate - penaltyConfig.minPenaltyRate) *
    (((unlock - now : Int) : Rat) / ((lockupPeriod : Int) : Rat))

theorem rates_ordered : 0 < penaltyConfig.minPenaltyRate ∧
    penaltyConfig.minPenaltyRate < penaltyConfig.maxPenaltyRate ∧
    penaltyConfig.maxPenaltyRate < 1 := by decide +kernel

theorem lockup_positive : (0 : Rat) < ((lockupPeriod : Int) : Rat) := by decide +kernel

variable {now unlock}

theorem calculatePenalty_unlocked (unlocked : unlock ≤ now) : calculatePenalty now unlock = 0 := by
  rw [calculatePenalty]
  exact if_pos (by omega)

theorem calculatePenalty_locked (locked : now < unlock) :
    calculatePenalty now unlock = min (uncapped now unlock) penaltyConfig.maxPenaltyRate := by
  have remaining : ¬ unlock - now ≤ 0 := by omega
  have period : ((lockupPeriod : Int) : Rat) =
      (penaltyConfig.lockupPeriodDays : Rat) * (millisPerDay : Rat) := by
    rw [lockupPeriod]
    push_cast
    rfl
  rw [calculatePenalty, uncapped, period]
  exact if_neg remaining

theorem uncapped_above (locked : now < unlock) :
    penaltyConfig.minPenaltyRate < uncapped now unlock := by
  have range := sub_pos.mpr rates_ordered.2.1
  have remaining : (0 : Rat) < ((unlock - now : Int) : Rat) := by
    exact_mod_cast Int.sub_pos_of_lt locked
  have gained := mul_pos range (div_pos remaining lockup_positive)
  rw [uncapped]
  linarith

theorem cap_le_uncapped_iff :
    penaltyConfig.maxPenaltyRate ≤ uncapped now unlock ↔ lockupPeriod ≤ unlock - now := by
  have range := sub_pos.mpr rates_ordered.2.1
  have ratio : (1 : Rat) ≤ ((unlock - now : Int) : Rat) / ((lockupPeriod : Int) : Rat) ↔
      lockupPeriod ≤ unlock - now := by
    rw [one_le_div₀ lockup_positive]
    norm_cast
  rw [← ratio, uncapped, ← sub_le_iff_le_add', le_mul_iff_one_le_right range]

theorem uncapped_mono {now' unlock' : Int} (longer : unlock - now ≤ unlock' - now') :
    uncapped now unlock ≤ uncapped now' unlock' := by
  have range := (sub_pos.mpr rates_ordered.2.1).le
  have more : ((unlock - now : Int) : Rat) ≤ ((unlock' - now' : Int) : Rat) := by
    exact_mod_cast longer
  have ratio := div_le_div_of_nonneg_right more lockup_positive.le
  rw [uncapped, uncapped]
  exact add_le_add (le_refl _) (mul_le_mul_of_nonneg_left ratio range)

theorem calculatePenalty_bounds (locked : now < unlock) :
    penaltyConfig.minPenaltyRate < calculatePenalty now unlock ∧
      calculatePenalty now unlock ≤ penaltyConfig.maxPenaltyRate := by
  rw [calculatePenalty_locked locked]
  exact ⟨lt_min (uncapped_above locked) rates_ordered.2.1, min_le_right _ _⟩

theorem calculatePenalty_range (now unlock : Int) : 0 ≤ calculatePenalty now unlock ∧
    calculatePenalty now unlock ≤ penaltyConfig.maxPenaltyRate := by
  have ordered := rates_ordered
  rcases le_or_gt unlock now with unlocked | locked
  · rw [calculatePenalty_unlocked unlocked]
    constructor
    · exact le_refl 0
    · linarith
  · have bounds := calculatePenalty_bounds locked
    constructor
    · linarith
    · exact bounds.2

theorem calculatePenalty_zero_iff (now unlock : Int) :
    calculatePenalty now unlock = 0 ↔ unlock ≤ now := by
  constructor
  · intro none_due
    by_contra locked
    have bounds := calculatePenalty_bounds (not_le.mp locked)
    have ordered := rates_ordered
    linarith
  · exact calculatePenalty_unlocked

theorem calculatePenalty_max_iff (now unlock : Int) :
    calculatePenalty now unlock = penaltyConfig.maxPenaltyRate ↔ lockupPeriod ≤ unlock - now := by
  rcases le_or_gt unlock now with unlocked | locked
  · have ordered := rates_ordered
    have some_period : (0 : Int) < lockupPeriod := by exact_mod_cast lockup_positive
    rw [calculatePenalty_unlocked unlocked]
    constructor
    · intro none_due
      linarith
    · intro long
      omega
  · rw [calculatePenalty_locked locked, min_eq_right_iff]
    exact cap_le_uncapped_iff

/- More time to the unlock date never costs less, across the jump and the cap. -/
theorem calculatePenalty_mono {now' unlock' : Int} (longer : unlock - now ≤ unlock' - now') :
    calculatePenalty now unlock ≤ calculatePenalty now' unlock' := by
  rcases le_or_gt unlock now with unlocked | locked
  · rw [calculatePenalty_unlocked unlocked]
    exact (calculatePenalty_range now' unlock').1
  · have locked' : now' < unlock' := by omega
    rw [calculatePenalty_locked locked, calculatePenalty_locked locked']
    exact min_le_min_right _ (uncapped_mono longer)

theorem net_bounds (previewDto : EmergencyUnstakePreviewDto) (now : Int)
    (positive : 0 < previewDto.amount) :
    (1 - penaltyConfig.maxPenaltyRate) * previewDto.amount ≤
        (previewPenalty previewDto now).netAmount ∧
      (previewPenalty previewDto now).netAmount ≤ previewDto.amount := by
  obtain ⟨nonneg, capped⟩ := calculatePenalty_range now previewDto.currentUnlockDate
  have charged := mul_nonneg positive.le nonneg
  have most := mul_le_mul_of_nonneg_left capped positive.le
  simp only [previewPenalty]
  constructor
  · linarith
  · linarith

end Schedule

/-- The preview of a request against a position. -/
def previewOf (dto : InitiateEmergencyUnstakeDto) (position : StakingPosition) (instant : Int) :
    PenaltyPreview :=
  previewPenalty ⟨dto.stakerId, dto.stakingPositionId, dto.amount, position.unlockDate⟩ instant

/-- The penalty a draft carries is the one previewed when its call was approved. -/
def PricedAt (positions : InsertionMap String StakingPosition)
    (past : List (TimedUnstake × UnstakeAnswer)) (task : Nat) (dto : InitiateEmergencyUnstakeDto)
    (draft : UnstakeDraft) : Prop :=
  ∃ position instant recordId, positions.get dto.stakingPositionId = some position ∧
    (⟨instant, .proceed task recordId⟩, .approved draft) ∈ past ∧
    draft.penaltyRate = (previewOf dto position instant).penaltyRate ∧
    draft.penalty = (previewOf dto position instant).penaltyAmount

def draftOf : UnstakeStage → Option UnstakeDraft
  | .save draft => some draft
  | .saved record => some record.toUnstakeDraft
  | _ => none

def Priced (positions : InsertionMap String StakingPosition)
    (past : List (TimedUnstake × UnstakeAnswer)) (service : EmergencyUnstakeService) : Prop :=
  ∀ task dto stage, service.tasks.get task = some ⟨dto, stage⟩ →
    ∀ draft, draftOf stage = some draft → PricedAt positions past task dto draft

/-- Every response carries the rate, the penalty and the net amount that a preview of the same
    amount and unlock date shows at the instant the call was approved. -/
def ChargedAsPreviewed (positions : InsertionMap String StakingPosition)
    (past : List (TimedUnstake × UnstakeAnswer)) : Prop :=
  ∀ later now task recordId response earlier,
    past = later ++ (⟨now, .proceed task recordId⟩, .finished response) :: earlier →
    ∃ dto position instant approvalId draft, requestOf task earlier = some dto ∧
      positions.get dto.stakingPositionId = some position ∧
      (⟨instant, .proceed task approvalId⟩, .approved draft) ∈ earlier ∧
      response.penalty = ⟨(previewOf dto position instant).penaltyRate,
        (previewOf dto position instant).penaltyAmount, (previewOf dto position instant).netAmount⟩

section Runs
variable {zone : Zone} {service after : EmergencyUnstakeService} {now : Int} {call : UnstakeCall}
  {answer : UnstakeAnswer} {positions : InsertionMap String StakingPosition}
  {past : List (TimedUnstake × UnstakeAnswer)}

theorem PricedAt.later {task : Nat} {dto : InitiateEmergencyUnstakeDto} {draft : UnstakeDraft}
    (priced : PricedAt positions past task dto draft) (e : TimedUnstake × UnstakeAnswer) :
    PricedAt positions (e :: past) task dto draft := by
  obtain ⟨position, instant, recordId, held, approved, rest⟩ := priced
  exact ⟨position, instant, recordId, held, List.mem_cons_of_mem _ approved, rest⟩

theorem reviewPosition_priced {dto : InitiateEmergencyUnstakeDto} {position : StakingPosition}
    {draft : UnstakeDraft} (reviewed : reviewPosition dto now (some position) = .ok draft) :
    draft.penaltyRate = (previewOf dto position now).penaltyRate ∧
      draft.penalty = (previewOf dto position now).penaltyAmount := by
  simp only [reviewPosition] at reviewed
  split at reviewed
  · cases reviewed
  · split at reviewed
    · cases reviewed
    · obtain rfl := Except.ok.inj reviewed
      exact ⟨rfl, rfl⟩

/- A task that moves on keeps its draft; the others are as they were. -/
theorem Priced.atStage (priced : Priced positions past service) {task : Nat}
    {dto : InitiateEmergencyUnstakeDto} {next : UnstakeStage} (e : TimedUnstake × UnstakeAnswer)
    (own : ∀ draft, draftOf next = some draft → PricedAt positions (e :: past) task dto draft) :
    Priced positions (e :: past) (service.atStage task dto next) := by
  intro other dto' stage found draft drafted
  rcases get_set_cases found with ⟨rfl, same⟩ | ⟨_, before⟩
  · obtain ⟨rfl, rfl⟩ := UnstakeTask.mk.inj same
    exact own draft drafted
  · exact (priced other dto' stage before draft drafted).later e

theorem Priced.withoutTask (priced : Priced positions past service) (task : Nat)
    (e : TimedUnstake × UnstakeAnswer) :
    Priced positions (e :: past) (service.withoutTask task) := by
  intro other dto stage found draft drafted
  exact (priced other dto stage (get_of_delete found) draft drafted).later e

theorem Move.priced (move : Move zone service now call after answer)
    (balanced : Balanced positions past service) (priced : Priced positions past service) :
    Priced positions ((⟨now, call⟩, answer) :: past) after := by
  cases move with
  | started dto free =>
    apply priced.atStage _
    intro draft drafted
    cases drafted
  | allowed running clear =>
    apply priced.atStage _
    intro draft drafted
    cases drafted
  | @approved task recordId dto draft running reviewed =>
    apply priced.atStage _
    intro own drafted
    obtain rfl := Option.some.inj drafted
    obtain ⟨_, _, position, present, _⟩ := reviewPosition_ok reviewed
    have initial := balanced.balances dto.stakingPositionId
    rw [present, eq_comm, Option.map_eq_some_iff] at initial
    obtain ⟨first, held, rfl⟩ := initial
    rw [present] at reviewed
    have charged := reviewPosition_priced reviewed
    exact ⟨first, now, recordId, held, List.mem_cons_self, charged⟩
  | @saved task recordId dto draft record running written =>
    have kept : Priced positions past { service with repository := record :: service.repository } :=
      priced
    apply kept.atStage _
    intro own drafted
    obtain rfl := Option.some.inj drafted
    rw [written]
    exact (priced task dto _ running draft rfl).later _
  | withdrew running found covers =>
    refine Priced.withoutTask ?_ _ _
    exact priced
  | uncovered running short thrown => exact priced.withoutTask _ _
  | refused running unsaved thrown => exact priced.withoutTask _ _

theorem priced_always (run : (machine zone positions).Run Machine.anything past service) :
    Priced positions past service := by
  refine run.invariant (Priced positions) ?_ ?_
  · intro task dto stage found
    cases found
  · intro past service timed after answer reached priced _ moved
    exact (step_moves moved).priced (balanced_always reached) priced

theorem charged_as_previewed (run : (machine zone positions).Run Machine.anything past service) :
    ChargedAsPreviewed positions past := by
  intro later now task recordId response earlier split
  obtain ⟨before, after, reached, _, moved⟩ := run.exchange split
  have stepped : step zone before ⟨now, .proceed task recordId⟩ =
      some (after, .finished response) := moved
  have move := step_moves stepped
  generalize same : UnstakeAnswer.finished response = answer at move
  cases move with
  | @withdrew _ _ dto record position running found covers =>
    obtain rfl := UnstakeAnswer.finished.inj same
    have requested : requestOf task earlier = some dto :=
      (balanced_always reached).requested task _ running
    obtain ⟨first, instant, approvalId, held, approved, rate, amount⟩ :=
      priced_always reached task dto _ running record.toUnstakeDraft rfl
    refine ⟨dto, first, instant, approvalId, _, requested, held, approved, ?_⟩
    rw [respond, rate, amount]
    rfl
  | _ => cases same

end Runs

/-- The penalty schedule is well behaved, and a call is charged what is previewed. -/
theorem penalty_schedule :
    (∀ now unlock, (calculatePenalty now unlock = 0 ↔ unlock ≤ now) ∧
      (now < unlock → penaltyConfig.minPenaltyRate < calculatePenalty now unlock ∧
        calculatePenalty now unlock ≤ penaltyConfig.maxPenaltyRate) ∧
      (calculatePenalty now unlock = penaltyConfig.maxPenaltyRate ↔ lockupPeriod ≤ unlock - now)) ∧
    (∀ now later unlock, now ≤ later →
      calculatePenalty later unlock ≤ calculatePenalty now unlock) ∧
    (∀ now unlock further, unlock ≤ further →
      calculatePenalty now unlock ≤ calculatePenalty now further) ∧
    (∀ zone positions past service,
      (machine zone positions).Run Machine.anything past service →
        ChargedAsPreviewed positions past) ∧
    ∀ previewDto now, 0 < previewDto.amount →
      (1 - penaltyConfig.maxPenaltyRate) * previewDto.amount ≤
          (previewPenalty previewDto now).netAmount ∧
        (previewPenalty previewDto now).netAmount ≤ previewDto.amount := by
  refine ⟨?_, ?_, ?_, ?_, net_bounds⟩
  · intro now unlock
    exact ⟨calculatePenalty_zero_iff now unlock, calculatePenalty_bounds,
      calculatePenalty_max_iff now unlock⟩
  · intro now later unlock forward
    exact calculatePenalty_mono (by omega)
  · intro now unlock further forward
    exact calculatePenalty_mono (by omega)
  · intro zone positions past service run
    exact charged_as_previewed run

end EmergencyUnstakeService
end AstraPort.Staking
