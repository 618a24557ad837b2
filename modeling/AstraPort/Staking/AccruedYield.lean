import Mathlib.Data.List.Induction
import AstraPort.Staking.CachedViews
import AstraPort.Staking.Lockup
import AstraPort.Staking.Withdrawals

/- Accrued yield against principal. The yield of a position is computed once, when it is
   opened; a withdrawal that leaves part of the principal does not touch it. -/
namespace AstraPort.Staking
open PortfolioService

def principalYield (position : InternalPosition) : Rat :=
  calculateYield position.stakedAmount position.yieldRate position.termDays

/-- Every position shows the yield of the amount it holds now. -/
def InStep (positions : List InternalPosition) : Prop :=
  ∀ position ∈ positions, position.accruedYield = principalYield position

def totalPrincipalYield (positions : List InternalPosition) : Rat :=
  (positions.map principalYield).sum

/-- The position an item takes from is emptied, or left with an amount whose yield, as
    rounded, is the one it had. -/
def KeepsYield (now : Int) (positions : List InternalPosition) (item : WithdrawAssetRequest) :
    Prop :=
  ∀ position, positions.find? (serves item) = some position → position.unlockedAt ≤ now →
    position.stakedAmount - item.amount = 0 ∨
      calculateYield (position.stakedAmount - item.amount) position.yieldRate position.termDays =
        principalYield position

/-- Every item of a call, on the positions it finds. -/
def CallKeepsYield (service : PortfolioService) : PortfolioCall → Prop
  | .withdrawMulti request now => ∀ front item rest, request.assets = front ++ item :: rest →
      KeepsYield now (positionsAt service request.stakerId now front) item
  | _ => True

/-- In step between any two items of a call, and after it. -/
def InStepDuring (service : PortfolioService) (call : PortfolioCall) (after : PortfolioService) :
    Prop :=
  (match call with
   | .withdrawMulti request now => ∀ front rest, request.assets = front ++ rest →
      InStep (positionsAt service request.stakerId now front)
   | _ => True) ∧
  ∀ staker, InStep (positionsOf after staker)

/- The rule for one item: a list in step stays so exactly when the item keeps the yield of the
   position it takes from. -/
theorem withdrawItem_inStep_iff {now : Int} {positions : List InternalPosition}
    {item : WithdrawAssetRequest} (before : InStep positions) :
    InStep (withdrawItem now positions item).1 ↔ KeepsYield now positions item := by
  cases found : positions.find? (serves item) with
  | none =>
    have same : (withdrawItem now positions item).1 = positions := by simp [withdrawItem, found]
    simp [same, before, KeepsYield, found]
  | some position =>
    by_cases unlocked : position.unlockedAt ≤ now
    · obtain ⟨front, rest, split, result⟩ := withdrawItem_taken found unlocked
      have accrued : position.accruedYield = principalYield position :=
        before position (by simp [split])
      have others : ∀ p ∈ front ++ rest, p.accruedYield = principalYield p := by
        intro p member
        apply before p
        rw [split]
        rcases List.mem_append.mp member with early | late
        · exact List.mem_append_left _ early
        · exact List.mem_append_right _ (List.mem_cons_of_mem _ late)
      have keeps : KeepsYield now positions item ↔
          (position.stakedAmount - item.amount = 0 ∨
            calculateYield (position.stakedAmount - item.amount) position.yieldRate
              position.termDays = principalYield position) := by
        simp [KeepsYield, found, unlocked]
      rw [keeps, result]
      dsimp only
      split
      · rename_i emptied
        exact iff_of_true others (Or.inl emptied)
      · rename_i left
        rw [or_iff_right left, ← accrued]
        constructor
        · intro after
          exact (after _ (List.mem_append_right _ List.mem_cons_self)).symm
        · intro same p member
          rcases List.mem_append.mp member with early | late
          · exact others p (List.mem_append_left _ early)
          · rcases List.mem_cons.mp late with rfl | late
            · exact same.symm
            · exact others p (List.mem_append_right _ late)
    · have same : (withdrawItem now positions item).1 = positions := by
        simp [withdrawItem, found, unlocked]
      simp [same, before, KeepsYield, found, unlocked]

/- The items of a batch, from the first on. -/
theorem withdrawItems_inStep {now : Int} {positions : List InternalPosition}
    {items : List WithdrawAssetRequest} (before : InStep positions)
    (keeps : ∀ front item rest, items = front ++ item :: rest →
      KeepsYield now (withdrawItems now positions front).1 item) :
    ∀ front rest, items = front ++ rest → InStep (withdrawItems now positions front).1 := by
  intro front
  induction front using List.reverseRecOn with
  | nil => exact fun _ _ => before
  | append_singleton front item ih =>
    intro rest split
    rw [List.append_assoc, List.singleton_append] at split
    rw [withdrawItems_append]
    exact (withdrawItem_inStep_iff (ih _ split)).mpr (keeps front item rest split)

theorem opened_inStep {now : Int} {assets : List StakingAssetRequest}
    {positions : List InternalPosition} (opened : assets.mapM (openPosition now) = .ok positions) :
    InStep positions := by
  intro position member
  obtain ⟨asset, _, made⟩ := Throwing.mapM_mem opened member
  exact (openPosition_ok made).2.2.2.2

/- One call: from positions in step, everything in it and after it is in step exactly when its
   items keep yields. -/
theorem call_inStep_iff {service after : PortfolioService} {call : PortfolioCall}
    {answer : PortfolioAnswer} (before : ∀ staker, InStep (positionsOf service staker))
    (listed : Listed service after call answer) :
    InStepDuring service call after ↔ CallKeepsYield service call := by
  constructor
  · rintro ⟨during, _⟩
    cases call with
    | stakeMulti request now => trivial
    | getPortfolioView staker now => trivial
    | getAggregatedYield staker now => trivial
    | withdrawMulti request now =>
      intro front item rest split
      have found := during front (item :: rest) split
      have left := during (front ++ [item]) rest (by rw [split, List.append_assoc]; rfl)
      rw [positionsAt_next] at left
      exact (withdrawItem_inStep_iff found).mp left
  · intro keeps
    cases listed with
    | staked opened listed =>
      refine ⟨trivial, fun staker => ?_⟩
      rw [listed]
      split
      · exact List.forall_mem_append.mpr ⟨before staker, opened_inStep opened⟩
      · exact before staker
    | @withdrew request now withdrawals listed =>
      have during := withdrawItems_inStep (before request.stakerId) keeps
      refine ⟨during, fun staker => ?_⟩
      rw [listed]
      split
      · exact during request.assets [] (List.append_nil _).symm
      · exact before staker
    | same unopened listed =>
      refine ⟨?_, fun staker => listed staker ▸ before staker⟩
      cases call with
      | stakeMulti request now => trivial
      | getPortfolioView staker now => trivial
      | getAggregatedYield staker now => trivial
      | withdrawMulti request now => exact withdrawItems_inStep (before request.stakerId) keeps

/-- Every call of the history, on the state it found. -/
abbrev EachCall (good : PortfolioService → PortfolioCall → PortfolioService → Prop)
    (past : List (PortfolioCall × PortfolioAnswer)) : Prop :=
  portfolioMachine.Each Machine.anything (fun before call _ after => good before call after) past

theorem eachCall_cons {good : PortfolioService → PortfolioCall → PortfolioService → Prop}
    {past : List (PortfolioCall × PortfolioAnswer)} {service after : PortfolioService}
    {call : PortfolioCall} {answer : PortfolioAnswer}
    (run : portfolioMachine.Run Machine.anything past service)
    (moved : portfolioStep service call = some (after, answer)) :
    EachCall good ((call, answer) :: past) ↔ good service call after ∧ EachCall good past :=
  run.each_cons trivial moved

theorem inStep_run {past : List (PortfolioCall × PortfolioAnswer)} {service : PortfolioService}
    (run : portfolioMachine.Run Machine.anything past service) :
    (EachCall InStepDuring past ↔ EachCall (fun before call _ => CallKeepsYield before call) past) ∧
    (EachCall (fun before call _ => CallKeepsYield before call) past →
      ∀ staker, InStep (positionsOf service staker)) := by
  refine run.invariant (fun past service =>
    (EachCall InStepDuring past ↔ EachCall (fun before call _ => CallKeepsYield before call) past) ∧
    (EachCall (fun before call _ => CallKeepsYield before call) past →
      ∀ staker, InStep (positionsOf service staker))) ?_ ?_
  · refine ⟨iff_of_true Machine.each_nil Machine.each_nil, ?_⟩
    intro _ staker position member
    simp [positionsOf, portfolioMachine, PortfolioService.initial] at member
  · rintro past service call after answer before ⟨same, inStep⟩ _ moved
    have listed := portfolioStep_listed moved
    rw [eachCall_cons before moved, eachCall_cons before moved]
    constructor
    · rw [same]
      exact and_congr_left fun each => call_inStep_iff (inStep each) listed
    · rintro ⟨keeps, each⟩
      exact ((call_inStep_iff (inStep each) listed).mpr keeps).2

/-- What the two views total is the yield of the principal still staked. -/
def TotalsFollow (service : PortfolioService) : Prop :=
  ∀ staker now,
    (∀ view, (service.getPortfolioView staker now).2 = .ok (.view view) →
      view.totalYield = totalPrincipalYield (positionsOf service staker)) ∧
    ∀ yields, (service.getAggregatedYield staker now).2 = .ok (.aggregated yields) →
      yields.totalYield = totalPrincipalYield (positionsOf service staker)

theorem totals_follow {past : List (PortfolioCall × PortfolioAnswer)} {service : PortfolioService}
    (run : portfolioMachine.Run Machine.anything past service)
    (inStep : ∀ staker, InStep (positionsOf service staker)) : TotalsFollow service := by
  intro staker now
  have coherent := coherent_run run staker
  have total : ((positionsOf service staker).map InternalPosition.accruedYield).sum =
      totalPrincipalYield (positionsOf service staker) :=
    congrArg List.sum (List.map_congr_left (inStep staker))
  constructor
  · intro view shown
    obtain ⟨positions, held, same⟩ := (readThrough_cases coherent.1 now).1 _ shown
    have own : positionsOf service staker = positions := by simp [positionsOf, held]
    rw [CachedValue.view.inj same, ← own]
    exact total
  · intro yields shown
    obtain ⟨positions, held, same⟩ := (readThrough_cases coherent.2 now).1 _ shown
    have own : positionsOf service staker = positions := by simp [positionsOf, held]
    rw [CachedValue.aggregated.inj same, ← own, ← total, computeYield, List.map_map]
    rfl

/-- Accrued yields follow the principal through a run, between the items of its batches and
    after each call, exactly when every item that takes from a position empties it or leaves an
    amount of the same yield; and then both views total the yield of what is staked. -/
theorem accrued_yield_follows_iff {past : List (PortfolioCall × PortfolioAnswer)}
    {service : PortfolioService} (run : portfolioMachine.Run Machine.anything past service) :
    (EachCall InStepDuring past ↔ EachCall (fun before call _ => CallKeepsYield before call) past) ∧
    (EachCall (fun before call _ => CallKeepsYield before call) past →
      (∀ staker, InStep (positionsOf service staker)) ∧ TotalsFollow service) := by
  obtain ⟨same, inStep⟩ := inStep_run run
  exact ⟨same, fun keeps => ⟨inStep keeps, totals_follow run (inStep keeps)⟩⟩

def withdrawAll : MultiAssetWithdrawRequest := ⟨"alice", [⟨"ASTR", 10⟩]⟩

/-- Ten staked and all ten withdrawn after the month: the item empties its position. -/
theorem accrued_yield_follows_emptied :
    let staked := PortfolioService.initial.stakeMulti stakeTen 0
    let withdrawn := staked.1.withdrawMulti withdrawAll 2600000000
    (∀ staker, InStep (positionsOf withdrawn.1 staker)) ∧ TotalsFollow withdrawn.1 := by
  intro staked withdrawn
  have first : portfolioMachine.Run Machine.anything
      [(.stakeMulti stakeTen 0, answering (.staked "alice") staked.2)] staked.1 :=
    Machine.Run.start.next trivial rfl
  have second : portfolioMachine.Run Machine.anything
      [(.withdrawMulti withdrawAll 2600000000, answering (.withdrew "alice") withdrawn.2),
       (.stakeMulti stakeTen 0, answering (.staked "alice") staked.2)] withdrawn.1 :=
    first.next trivial rfl
  apply (accrued_yield_follows_iff second).2
  refine (eachCall_cons first rfl).mpr ⟨?_, ?_⟩
  · intro front item rest split
    cases front with
    | cons other front => simp [withdrawAll] at split
    | nil =>
      obtain ⟨rfl, rfl⟩ := List.cons.inj split
      unfold KeepsYield
      decide +kernel
  · exact (eachCall_cons Machine.Run.start rfl).mpr ⟨trivial, Machine.each_nil⟩

/-- Four of ten withdrawn: the position of six still shows the yield of ten. -/
theorem accrued_yield_stale :
    ¬ ∀ past service, portfolioMachine.Run Machine.anything past service →
      ∀ staker, InStep (positionsOf service staker) := by
  intro always
  have staked : portfolioMachine.Run Machine.anything
      [(.stakeMulti stakeTen 0,
        answering (.staked "alice") (PortfolioService.initial.stakeMulti stakeTen 0).2)]
      (PortfolioService.initial.stakeMulti stakeTen 0).1 := Machine.Run.start.next trivial rfl
  have inStep := always _ _ (staked.next (i := .withdrawMulti withdrawTwice 2600000000) trivial rfl)
    "alice"
  revert inStep
  unfold InStep
  decide +kernel

end AstraPort.Staking
