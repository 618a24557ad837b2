import AstraPort.Staking.Ledger

/- Lock-up: until its term is over a position keeps its amount and its place in the list of
   its staker, whatever is withdrawn around it. Withdrawals pick a position by asset and
   amount alone, so the invariant is about the locked part of a list as a whole. -/
namespace AstraPort.Staking
open PortfolioService

def PortfolioCall.now : PortfolioCall → Int
  | .stakeMulti _ now => now
  | .withdrawMulti _ now => now
  | .getPortfolioView _ now => now
  | .getAggregatedYield _ now => now

def PortfolioCall.stakerId : PortfolioCall → String
  | .stakeMulti request _ => request.stakerId
  | .withdrawMulti request _ => request.stakerId
  | .getPortfolioView stakerId _ => stakerId
  | .getAggregatedYield stakerId _ => stakerId

/-- Terms are whole days, as the request body is validated. -/
def WholeTerms : PortfolioCall → Prop
  | .stakeMulti request _ => ∀ asset ∈ request.assets, asset.termDays.isInt = true
  | _ => True

/-- The host: a clock that never runs backwards, and validated requests. -/
def InTime : Machine.Permit PortfolioService PortfolioCall PortfolioAnswer :=
  fun past service call =>
    Machine.ClockAdvances PortfolioCall.now past service call ∧ WholeTerms call

instance (past : List (PortfolioCall × PortfolioAnswer)) (service : PortfolioService)
    (call : PortfolioCall) : Decidable (InTime past service call) :=
  have : Decidable (WholeTerms call) :=
    match call with
    | .stakeMulti _ _ => inferInstanceAs (Decidable (∀ _ ∈ _, _))
    | .withdrawMulti _ _ => isTrue trivial
    | .getPortfolioView _ _ => isTrue trivial
    | .getAggregatedYield _ _ => isTrue trivial
  inferInstanceAs (Decidable ((∀ e ∈ past, e.1.now ≤ call.now) ∧ WholeTerms call))

/-- Positions an exchange opened for a staker, each with the instant it was opened. -/
def openedBy (staker : String) : PortfolioCall × PortfolioAnswer → List (Int × InternalPosition)
  | (.stakeMulti request now, .staked _ positions) =>
    if request.stakerId = staker then positions.map (Prod.mk now) else []
  | _ => []

/-- Everything ever opened for a staker, oldest first. -/
def openings (staker : String) :
    List (PortfolioCall × PortfolioAnswer) → List (Int × InternalPosition)
  | [] => []
  | e :: past => openings staker past ++ openedBy staker e

/-- The term of a position, counted from its opening, is not over. -/
def lockedAt (now : Int) (opening : Int × InternalPosition) : Bool :=
  decide ((now : Rat) < opening.1 + opening.2.termDays * millisPerDay)

def stillLocked (now : Int) (position : InternalPosition) : Bool :=
  decide (now < position.unlockedAt)

theorem isoInstant_int {instant result : Int} (formatted : isoInstant instant = .ok result) :
    result = instant := by
  unfold isoInstant at formatted
  split at formatted
  · have same := Except.ok.inj formatted
    split at same <;> simpa using same.symm
  · cases formatted

theorem openPosition_unlocks {now : Int} {asset : StakingAssetRequest} {position : InternalPosition}
    (whole : asset.termDays.isInt = true) (opened : openPosition now asset = .ok position) :
    (position.unlockedAt : Rat) = now + position.termDays * millisPerDay := by
  obtain ⟨days, length⟩ : ∃ days : Int, asset.termDays = days :=
    ⟨asset.termDays.num, Rat.eq_num_of_isInt whole⟩
  obtain ⟨formatted, _, _, term, _⟩ := openPosition_ok opened
  have exact : isoInstant ((now + days * millisPerDay : Int) : Rat) = .ok position.unlockedAt := by
    rw [← formatted, length]
    push_cast
    rfl
  rw [isoInstant_int exact, term, length]
  push_cast
  rfl

theorem opened_unlock {now : Int} {assets : List StakingAssetRequest}
    {positions : List InternalPosition} (whole : ∀ asset ∈ assets, asset.termDays.isInt = true)
    (opened : assets.mapM (openPosition now) = .ok positions) :
    ∀ position ∈ positions,
      (position.unlockedAt : Rat) = now + position.termDays * millisPerDay := by
  intro position member
  obtain ⟨asset, listed, made⟩ := Throwing.mapM_mem opened member
  exact openPosition_unlocks (whole asset listed) made

/- A withdrawal item leaves the locked part of the list as it is: the position it takes
   from was unlocked before. -/
theorem withdrawItem_locked {now later : Int} (advanced : now ≤ later)
    (positions : List InternalPosition) (asset : WithdrawAssetRequest) :
    (withdrawItem now positions asset).1.filter (stillLocked later) =
      positions.filter (stillLocked later) := by
  rcases withdrawItem_cases now positions asset with refused | served
  · rw [refused]
  · obtain ⟨front, position, rest, split, _, _, unlocked, result⟩ := served
    have free : stillLocked later position = false := by
      rw [stillLocked, decide_eq_false_iff_not]
      omega
    have drained : stillLocked later
        { position with stakedAmount := position.stakedAmount - asset.amount } = false := free
    rw [result, split]
    dsimp only
    split
    · simp [free]
    · simp [free, drained]

theorem withdrawItems_locked {now later : Int} (advanced : now ≤ later)
    (positions : List InternalPosition) (assets : List WithdrawAssetRequest) :
    (withdrawItems now positions assets).1.filter (stillLocked later) =
      positions.filter (stillLocked later) := by
  induction assets generalizing positions with
  | nil => rfl
  | cons asset assets ih =>
    rw [withdrawItems]
    exact (ih _).trans (withdrawItem_locked advanced positions asset)

/-- What a call does to the lists of all stakers. -/
inductive Listed (service after : PortfolioService) : PortfolioCall → PortfolioAnswer → Prop where
  | staked {request : MultiAssetStakeRequest} {now : Int} {positions : List InternalPosition}
      (opened : request.assets.mapM (openPosition now) = .ok positions)
      (listed : ∀ staker, positionsOf after staker =
        if staker = request.stakerId then positionsOf service staker ++ positions
        else positionsOf service staker) :
      Listed service after (.stakeMulti request now) (.staked request.stakerId positions)
  | withdrew {request : MultiAssetWithdrawRequest} {now : Int} (withdrawals : List Withdrawal)
      (listed : ∀ staker, positionsOf after staker =
        if staker = request.stakerId then
          (withdrawItems now (positionsOf service request.stakerId) request.assets).1
        else positionsOf service staker) :
      Listed service after (.withdrawMulti request now) (.withdrew request.stakerId withdrawals)
  | same {call : PortfolioCall} {answer : PortfolioAnswer}
      (unopened : ∀ staker, openedBy staker (call, answer) = [])
      (listed : ∀ staker, positionsOf after staker = positionsOf service staker) :
      Listed service after call answer

theorem stakeMulti_listed (service : PortfolioService) (request : MultiAssetStakeRequest)
    (now : Int) :
    Listed service (service.stakeMulti request now).1 (.stakeMulti request now)
      (answering (.staked request.stakerId) (service.stakeMulti request now).2) := by
  cases planned : service.planStake request now with
  | error thrown =>
    rw [stakeMulti, planned]
    exact .same (fun _ => rfl) fun _ => rfl
  | ok plan =>
    obtain ⟨existing, positions⟩ := plan
    obtain ⟨_, opened, own⟩ := planStake_ok planned
    rw [stakeMulti, planned]
    refine .staked opened fun staker => ?_
    rw [positionsOf_set _ service.portfolioData request.stakerId staker (existing ++ positions)
      (invalidateCache_data _ _)]
    split
    · rename_i here
      rw [own, here]
    · rfl

theorem withdrawMulti_listed (service : PortfolioService) (request : MultiAssetWithdrawRequest)
    (now : Int) :
    Listed service (service.withdrawMulti request now).1 (.withdrawMulti request now)
      (answering (.withdrew request.stakerId) (service.withdrawMulti request now).2) := by
  rcases withdrawMulti_cases service request now with ⟨thrown, threw⟩ | ⟨answered, listed⟩
  · rw [threw]
    exact .same (fun _ => rfl) fun _ => rfl
  · rw [answered]
    exact .withdrew _ listed

theorem portfolioStep_listed {service after : PortfolioService} {call : PortfolioCall}
    {answer : PortfolioAnswer} (moved : portfolioStep service call = some (after, answer)) :
    Listed service after call answer := by
  cases call with
  | stakeMulti request now =>
    simp only [portfolioStep, Option.some.injEq, Prod.mk.injEq] at moved
    obtain ⟨rfl, rfl⟩ := moved
    exact stakeMulti_listed service request now
  | withdrawMulti request now =>
    simp only [portfolioStep, Option.some.injEq, Prod.mk.injEq] at moved
    obtain ⟨rfl, rfl⟩ := moved
    exact withdrawMulti_listed service request now
  | getPortfolioView staker now =>
    simp only [portfolioStep, Option.some.injEq, Prod.mk.injEq] at moved
    obtain ⟨rfl, rfl⟩ := moved
    exact .same (fun _ => rfl) (positionsOf_data (readThrough_data ..))
  | getAggregatedYield staker now =>
    simp only [portfolioStep, Option.some.injEq, Prod.mk.injEq] at moved
    obtain ⟨rfl, rfl⟩ := moved
    exact .same (fun _ => rfl) (positionsOf_data (readThrough_data ..))

theorem Listed.others {service after : PortfolioService} {call : PortfolioCall}
    {answer : PortfolioAnswer} (listed : Listed service after call answer) {staker : String}
    (other : staker ≠ call.stakerId) : positionsOf after staker = positionsOf service staker := by
  cases listed with
  | staked opened listed => exact (listed staker).trans (if_neg other)
  | withdrew withdrawals listed => exact (listed staker).trans (if_neg other)
  | same unopened listed => exact listed staker

/-- The locked part of every list is what was opened and is still in its term. -/
def Untouched (past : List (PortfolioCall × PortfolioAnswer)) (service : PortfolioService) : Prop :=
  ∀ now, (∀ e ∈ past, e.1.now ≤ now) → ∀ staker,
    (positionsOf service staker).filter (stillLocked now) =
      ((openings staker past).filter (lockedAt now)).map Prod.snd

/- Freshly opened positions are locked by either measure or by none. -/
theorem opened_locked {opened : Int} (now : Int) {positions : List InternalPosition}
    (unlock : ∀ position ∈ positions,
      (position.unlockedAt : Rat) = opened + position.termDays * millisPerDay) :
    positions.filter (stillLocked now) =
      ((positions.map (Prod.mk opened)).filter (lockedAt now)).map Prod.snd := by
  rw [List.filter_map, List.map_map]
  have measures : ∀ position ∈ positions,
      stillLocked now position = (lockedAt now ∘ Prod.mk opened) position := by
    intro position member
    simp only [stillLocked, Function.comp_apply, lockedAt, ← unlock position member, Int.cast_lt]
  rw [List.filter_congr measures]
  simp [Function.comp_def]

theorem Untouched.step {past : List (PortfolioCall × PortfolioAnswer)}
    {service after : PortfolioService} {call : PortfolioCall} {answer : PortfolioAnswer}
    (known : Untouched past service) (whole : WholeTerms call)
    (listed : Listed service after call answer) : Untouched ((call, answer) :: past) after := by
  intro now advanced staker
  obtain ⟨present, before⟩ := List.forall_mem_cons.mp advanced
  have locked := known now before staker
  cases listed with
  | @staked request opened positions made listed =>
    rw [listed, openings, List.filter_append, List.map_append, ← locked]
    by_cases own : staker = request.stakerId
    · rw [if_pos own, List.filter_append, openedBy, if_pos own.symm]
      rw [opened_locked now (opened_unlock whole made)]
    · rw [if_neg own, openedBy, if_neg (Ne.symm own)]
      simp
  | @withdrew request at_time withdrawals listed =>
    have unopened : openedBy staker (.withdrawMulti request at_time,
      .withdrew request.stakerId withdrawals) = [] := rfl
    rw [listed, openings, unopened, List.append_nil, ← locked]
    split
    · rename_i own
      rw [own]
      exact withdrawItems_locked present _ _
    · rfl
  | same unopened listed => rw [listed, openings, unopened, List.append_nil, locked]

theorem untouched_run {past : List (PortfolioCall × PortfolioAnswer)} {service : PortfolioService}
    (run : portfolioMachine.Run InTime past service) : Untouched past service := by
  refine run.invariant Untouched ?_ ?_
  · intro now _ staker
    rfl
  · intro past service call after answer _ known permitted moved
    exact known.step permitted.2 (portfolioStep_listed moved)

/-- In every run, and at every moment from its last call on, the positions still locked are
    exactly those opened less than their term ago, in order and with the amounts they were
    opened with; a call changes the positions of its own staker alone; and whatever is paid
    out comes from a position that is unlocked and covers it. -/
theorem locked_principal_untouched {past : List (PortfolioCall × PortfolioAnswer)}
    {service : PortfolioService} (run : portfolioMachine.Run InTime past service) :
    (∀ now, (∀ e ∈ past, e.1.now ≤ now) → ∀ staker,
      (positionsOf service staker).filter (stillLocked now) =
        ((openings staker past).filter (lockedAt now)).map Prod.snd) ∧
    (∀ call after answer, portfolioStep service call = some (after, answer) →
      ∀ staker, staker ≠ call.stakerId →
        positionsOf after staker = positionsOf service staker) ∧
    ∀ now positions asset, (withdrawItem now positions asset).2.unlocked = true →
      ∃ position ∈ positions, position.assetId = asset.assetId ∧
        asset.amount ≤ position.stakedAmount ∧ position.unlockedAt ≤ now := by
  refine ⟨untouched_run run, fun call after answer moved staker other =>
    (portfolioStep_listed moved).others other, ?_⟩
  intro now positions asset paid
  rcases withdrawItem_cases now positions asset with refused | served
  · simp [refused] at paid
  · obtain ⟨front, position, rest, split, named, covered, unlocked, _⟩ := served
    exact ⟨position, by simp [split], named, covered, unlocked⟩

/- A day after ten were staked for thirty days, ten are locked. -/
theorem locked_principal_untouched_next_day :
    let staked := PortfolioService.initial.stakeMulti stakeTen 0
    (positionsOf staked.1 "alice").filter (stillLocked 86400000) =
      ((openings "alice" [(.stakeMulti stakeTen 0, answering (.staked "alice") staked.2)]).filter
        (lockedAt 86400000)).map Prod.snd := by
  intro staked
  have run : portfolioMachine.Run InTime
      [(.stakeMulti stakeTen 0, answering (.staked "alice") staked.2)] staked.1 :=
    Machine.Run.start.next (by decide +kernel) rfl
  exact (locked_principal_untouched run).1 86400000 (by decide) "alice"

example : ((openings "alice" [(.stakeMulti stakeTen 0,
    answering (.staked "alice") (PortfolioService.initial.stakeMulti stakeTen 0).2)]).filter
      (lockedAt 86400000)).length = 1 := by decide +kernel

end AstraPort.Staking
