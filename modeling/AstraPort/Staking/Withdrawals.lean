import AstraPort.Staking.Ledger

/- Which withdrawals are served. A position is picked by asset and amount alone, the first
   of the list that covers the item, and only then asked whether its term is over; a locked
   position in front hides every unlocked one behind it. -/
namespace AstraPort.Staking
open PortfolioService

/-- The staker's positions when an item's turn comes: what the items before it left. -/
def positionsAt (service : PortfolioService) (stakerId : String) (now : Int)
    (front : List WithdrawAssetRequest) : List InternalPosition :=
  (withdrawItems now (positionsOf service stakerId) front).1

/-- Some unlocked position of the asset covers the amount. -/
def Servable (now : Int) (positions : List InternalPosition) (item : WithdrawAssetRequest) : Prop :=
  ∃ position ∈ positions, position.assetId = item.assetId ∧ position.unlockedAt ≤ now ∧
    item.amount ≤ position.stakedAmount

/-- The oldest position of the asset that covers the amount is unlocked. -/
def OldestUnlocked (now : Int) (positions : List InternalPosition) (item : WithdrawAssetRequest) :
    Prop := ∀ position, positions.find? (serves item) = some position → position.unlockedAt ≤ now

/-- The item is answered unlocked and its asset's total drops by its amount. -/
def Served (service : PortfolioService) (request : MultiAssetWithdrawRequest) (now : Int)
    (front : List WithdrawAssetRequest) (item : WithdrawAssetRequest) : Prop :=
  (∃ withdrawals, (service.withdrawMulti request now).2 = .ok withdrawals ∧
    withdrawals[front.length]? = some ⟨item.assetId, item.amount, true⟩) ∧
  held item.assetId (positionsAt service request.stakerId now (front ++ [item])) =
    held item.assetId (positionsAt service request.stakerId now front) - item.amount

theorem withdrawItems_append (now : Int) (positions : List InternalPosition)
    (front rest : List WithdrawAssetRequest) :
    (withdrawItems now positions (front ++ rest)).1 =
      (withdrawItems now (withdrawItems now positions front).1 rest).1 := by
  induction front generalizing positions with
  | nil => rfl
  | cons first front ih => exact ih (withdrawItem now positions first).1

theorem withdrawItems_nil (now : Int) (items : List WithdrawAssetRequest) :
    (withdrawItems now [] items).1 = [] := by
  induction items with
  | nil => rfl
  | cons first items ih => exact ih

theorem positionsAt_next (service : PortfolioService) (stakerId : String) (now : Int)
    (front : List WithdrawAssetRequest) (item : WithdrawAssetRequest) :
    positionsAt service stakerId now (front ++ [item]) =
      (withdrawItem now (positionsAt service stakerId now front) item).1 :=
  withdrawItems_append now (positionsOf service stakerId) front [item]

/- A staker with positions is never told that there are none. -/
theorem withdrawMulti_answers {service : PortfolioService} {request : MultiAssetWithdrawRequest}
    (now : Int) (stakes : positionsOf service request.stakerId ≠ []) :
    (service.withdrawMulti request now).2 =
      .ok (withdrawItems now (positionsOf service request.stakerId) request.assets).2 := by
  cases stored : service.portfolioData.get request.stakerId with
  | none => simp [positionsOf, stored] at stakes
  | some positions =>
    have own : positionsOf service request.stakerId = positions := by simp [positionsOf, stored]
    rw [own] at stakes ⊢
    cases positions with
    | nil => exact absurd rfl stakes
    | cons first others => simp [withdrawMulti, stored]

/- The answer to an item depends on the oldest position that covers it and on no other. -/
theorem withdrawItem_unlocked_iff {now : Int} {positions : List InternalPosition}
    {item : WithdrawAssetRequest} (servable : Servable now positions item) :
    (withdrawItem now positions item).2 = ⟨item.assetId, item.amount, true⟩ ↔
      OldestUnlocked now positions item := by
  obtain ⟨position, member, asset, _, covered⟩ := servable
  have some_serves : (positions.find? (serves item)).isSome := by
    rw [List.find?_isSome]
    exact ⟨position, member, by simp [serves, asset, covered]⟩
  obtain ⟨oldest, found⟩ := Option.isSome_iff_exists.mp some_serves
  constructor
  · intro answered other picked
    obtain rfl : oldest = other := Option.some.inj (found.symm.trans picked)
    by_contra locked
    simp [withdrawItem, found, locked] at answered
  · intro unlocked
    simp [withdrawItem, found, unlocked oldest found]

theorem withdrawItem_drops {now : Int} {positions : List InternalPosition}
    {item : WithdrawAssetRequest}
    (answered : (withdrawItem now positions item).2 = ⟨item.assetId, item.amount, true⟩) :
    held item.assetId (withdrawItem now positions item).1 =
      held item.assetId positions - item.amount := by
  rw [withdrawItem_held, answered]
  simp [paidOut, amountIn, paidAmount]

/-- In any state, reachable or not, an item that some unlocked position could serve is served
    exactly when the oldest position of its asset that covers its amount is unlocked too. The
    positions are those that the earlier items of the batch left. -/
theorem servable_item_served_iff {service : PortfolioService} {request : MultiAssetWithdrawRequest}
    {now : Int} {front rest : List WithdrawAssetRequest} {item : WithdrawAssetRequest}
    (split : request.assets = front ++ item :: rest)
    (servable : Servable now (positionsAt service request.stakerId now front) item) :
    Served service request now front item ↔
      OldestUnlocked now (positionsAt service request.stakerId now front) item := by
  have stakes : positionsOf service request.stakerId ≠ [] := by
    intro none
    obtain ⟨position, member, _⟩ := servable
    rw [positionsAt, none, withdrawItems_nil] at member
    cases member
  have answer := withdrawMulti_answers now stakes
  have turn := withdrawItems_answer now (positionsOf service request.stakerId) front item rest
  rw [← split] at turn
  rw [← withdrawItem_unlocked_iff servable]
  constructor
  · rintro ⟨⟨withdrawals, answered, unlocked⟩, _⟩
    rw [answer, Except.ok.injEq] at answered
    rw [← answered, turn, Option.some.injEq] at unlocked
    exact unlocked
  · intro unlocked
    refine ⟨⟨_, answer, turn.trans (congrArg some unlocked)⟩, ?_⟩
    rw [positionsAt_next]
    exact withdrawItem_drops unlocked

def withdrawNine : MultiAssetWithdrawRequest := ⟨"alice", [⟨"ASTR", 4⟩, ⟨"ASTR", 5⟩]⟩

/-- Ten staked for a month: after it the second item of a batch is served from what the
    first one left. -/
theorem servable_item_served_after_month :
    Served (PortfolioService.initial.stakeMulti stakeTen 0).1 withdrawNine 2600000000
      [⟨"ASTR", 4⟩] ⟨"ASTR", 5⟩ := by
  have split : withdrawNine.assets = [⟨"ASTR", 4⟩] ++ ⟨"ASTR", 5⟩ :: [] := rfl
  have servable : Servable 2600000000
      (positionsAt (PortfolioService.initial.stakeMulti stakeTen 0).1 "alice" 2600000000
        [⟨"ASTR", 4⟩]) ⟨"ASTR", 5⟩ :=
    ⟨⟨"ASTR", 6, 65 / 1000, 30, 2592000000, 5342466 / 100000000⟩, by decide +kernel⟩
  apply (servable_item_served_iff split servable).mpr
  unfold OldestUnlocked
  decide +kernel

/-- Ten for sixty days and ten for one day, opened together. -/
def stakeLongAndShort : MultiAssetStakeRequest := ⟨"alice", [⟨"ASTR", 10, 60⟩, ⟨"ASTR", 10, 1⟩]⟩

def withdrawFive : MultiAssetWithdrawRequest := ⟨"alice", [⟨"ASTR", 5⟩]⟩

/-- On the second day five of the unlocked ten are refused: the locked position is older. -/
theorem unlocked_position_hidden :
    ¬ ∀ past service, portfolioMachine.Run Machine.anything past service →
      ∀ request now front item rest, request.assets = front ++ item :: rest → 0 < item.amount →
        Servable now (positionsAt service request.stakerId now front) item →
        Served service request now front item := by
  intro always
  have staked : portfolioMachine.Run Machine.anything
      [(.stakeMulti stakeLongAndShort 0,
        answering (.staked "alice") (PortfolioService.initial.stakeMulti stakeLongAndShort 0).2)]
      (PortfolioService.initial.stakeMulti stakeLongAndShort 0).1 :=
    Machine.Run.start.next trivial rfl
  have servable : Servable 172800000
      (positionsAt (PortfolioService.initial.stakeMulti stakeLongAndShort 0).1 "alice" 172800000 [])
      ⟨"ASTR", 5⟩ :=
    ⟨⟨"ASTR", 10, 65 / 1000, 1, 86400000, 178082 / 100000000⟩, by decide +kernel⟩
  have served := always _ _ staked withdrawFive 172800000 [] ⟨"ASTR", 5⟩ [] rfl (by decide) servable
  obtain ⟨⟨withdrawals, answered, unlocked⟩, _⟩ := served
  have refused : ((PortfolioService.initial.stakeMulti stakeLongAndShort 0).1.withdrawMulti
      withdrawFive 172800000).2 = .ok [⟨"ASTR", 5, false⟩] := by decide +kernel
  rw [refused, Except.ok.injEq] at answered
  rw [← answered] at unlocked
  cases unlocked

end AstraPort.Staking
