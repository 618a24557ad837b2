import Mathlib.Tactic.Linarith
import Mathlib.Tactic.Ring
import AstraPort.Foundation.Throwing
import AstraPort.Staking.Portfolio

/- Conservation of staked principal: what a staker holds in an asset is what was
   staked less what was paid out, item by item, over every run of the service. -/
namespace AstraPort.Staking
open PortfolioService

def positionsOf (service : PortfolioService) (staker : String) : List InternalPosition :=
  (service.portfolioData.get staker).getD []

/-- Sum of the parts of a list that concern one asset. -/
def amountIn {Item : Type} (assetOf : Item → String) (amountOf : Item → Rat) (asset : String)
    (items : List Item) : Rat :=
  (items.map fun item => if assetOf item = asset then amountOf item else 0).sum

def held (asset : String) : List InternalPosition → Rat :=
  amountIn InternalPosition.assetId InternalPosition.stakedAmount asset

def requested (asset : String) : List StakingAssetRequest → Rat :=
  amountIn StakingAssetRequest.assetId StakingAssetRequest.amount asset

def paidAmount (withdrawal : Withdrawal) : Rat :=
  if withdrawal.unlocked = true then withdrawal.amount else 0

def paidOut (asset : String) : List Withdrawal → Rat :=
  amountIn Withdrawal.assetId paidAmount asset

def stakedBy (staker asset : String) : PortfolioCall × PortfolioAnswer → Rat
  | (.stakeMulti request _, .staked _ _) =>
    if request.stakerId = staker then requested asset request.assets else 0
  | _ => 0

def withdrawnBy (staker asset : String) : PortfolioCall × PortfolioAnswer → Rat
  | (.withdrawMulti request _, .withdrew _ withdrawals) =>
    if request.stakerId = staker then paidOut asset withdrawals else 0
  | _ => 0

/-- Totals over a history: requests that were accepted, items answered unlocked. -/
def totalStakedBy (staker asset : String) (past : List (PortfolioCall × PortfolioAnswer)) : Rat :=
  (past.map (stakedBy staker asset)).sum

def totalWithdrawnBy (staker asset : String) (past : List (PortfolioCall × PortfolioAnswer)) :
    Rat := (past.map (withdrawnBy staker asset)).sum

def AllPositive (positions : List InternalPosition) : Prop := ∀ p ∈ positions, 0 < p.stakedAmount

theorem amountIn_append {Item : Type} (assetOf : Item → String) (amountOf : Item → Rat)
    (asset : String) (xs ys : List Item) : amountIn assetOf amountOf asset (xs ++ ys) =
      amountIn assetOf amountOf asset xs + amountIn assetOf amountOf asset ys := by
  simp [amountIn]

theorem amountIn_cons {Item : Type} (assetOf : Item → String) (amountOf : Item → Rat)
    (asset : String) (x : Item) (xs : List Item) : amountIn assetOf amountOf asset (x :: xs) =
      (if assetOf x = asset then amountOf x else 0) + amountIn assetOf amountOf asset xs := by
  simp [amountIn]

/- The oldest position that covers an item, once unlocked, shrinks by the amount and
   leaves the list when emptied. -/
theorem withdrawItem_taken {now : Int} {positions : List InternalPosition}
    {asset : WithdrawAssetRequest} {position : InternalPosition}
    (found : positions.find? (serves asset) = some position) (unlocked : position.unlockedAt ≤ now) :
    ∃ front rest, positions = front ++ position :: rest ∧
      withdrawItem now positions asset =
        (if position.stakedAmount - asset.amount = 0 then front ++ rest
         else front ++ { position with stakedAmount := position.stakedAmount - asset.amount } :: rest,
         ⟨asset.assetId, asset.amount, true⟩) := by
  obtain ⟨served, front, rest, split, skipped⟩ := List.find?_eq_some_iff_append.mp found
  have index : positions.findIdx (serves asset) = front.length := by
    rw [split, List.findIdx_append, List.findIdx_cons, served]
    have none : ¬ front.findIdx (serves asset) < front.length := by
      rw [List.findIdx_lt_length]
      rintro ⟨p, member, hit⟩
      have := skipped p member
      simp [hit] at this
    simp [none]
  refine ⟨front, rest, split, ?_⟩
  simp only [withdrawItem, found, unlocked, ↓reduceIte, index]
  rw [split, List.eraseIdx_append_of_length_le (Nat.le_refl _)]
  simp

/- What one withdrawal item does: nothing, or one position of its asset that covers
   the amount and is unlocked shrinks by it and leaves the list when emptied. -/
theorem withdrawItem_cases (now : Int) (positions : List InternalPosition)
    (asset : WithdrawAssetRequest) :
    withdrawItem now positions asset = (positions, ⟨asset.assetId, asset.amount, false⟩) ∨
    ∃ front position rest, positions = front ++ position :: rest ∧
      position.assetId = asset.assetId ∧ asset.amount ≤ position.stakedAmount ∧
      position.unlockedAt ≤ now ∧
      withdrawItem now positions asset =
        (if position.stakedAmount - asset.amount = 0 then front ++ rest
         else front ++ { position with stakedAmount := position.stakedAmount - asset.amount } :: rest,
         ⟨asset.assetId, asset.amount, true⟩) := by
  cases found : positions.find? (serves asset) with
  | none => exact Or.inl (by simp [withdrawItem, found])
  | some position =>
    by_cases unlocked : position.unlockedAt ≤ now
    · obtain ⟨front, rest, split, result⟩ := withdrawItem_taken found unlocked
      have served := List.find?_some found
      simp only [serves, decide_eq_true_eq] at served
      exact Or.inr ⟨front, position, rest, split, served.1, served.2, unlocked, result⟩
    · exact Or.inl (by simp [withdrawItem, found, unlocked])

theorem withdrawItem_held (asset : String) (now : Int) (positions : List InternalPosition)
    (item : WithdrawAssetRequest) :
    held asset (withdrawItem now positions item).1 =
      held asset positions - paidOut asset [(withdrawItem now positions item).2] := by
  rcases withdrawItem_cases now positions item with refused | served
  · simp [refused, paidOut, amountIn, paidAmount]
  · obtain ⟨front, position, rest, split, same, _, _, result⟩ := served
    have paid : paidOut asset [(withdrawItem now positions item).2] =
        if item.assetId = asset then item.amount else 0 := by
      simp [result, paidOut, amountIn, paidAmount]
    rw [paid, result, split]
    by_cases emptied : position.stakedAmount - item.amount = 0
    · have amount : position.stakedAmount = item.amount := by linarith
      rw [if_pos emptied]
      simp only [held, amountIn_append, amountIn_cons, same, amount]
      ring
    · rw [if_neg emptied]
      simp only [held, amountIn_append, amountIn_cons, same]
      by_cases concerned : item.assetId = asset <;> simp only [concerned, ↓reduceIte] <;> ring

theorem withdrawItem_positive {now : Int} {positions : List InternalPosition}
    {item : WithdrawAssetRequest} (positive : AllPositive positions) :
    AllPositive (withdrawItem now positions item).1 := by
  rcases withdrawItem_cases now positions item with refused | served
  · rw [refused]
    exact positive
  · obtain ⟨front, position, rest, split, _, covered, _, result⟩ := served
    rw [result]
    intro p member
    dsimp only at member
    split at member
    · apply positive
      rw [split]
      rcases List.mem_append.mp member with early | late
      · exact List.mem_append_left _ early
      · exact List.mem_append_right _ (List.mem_cons_of_mem _ late)
    · rename_i left
      rcases List.mem_append.mp member with early | late
      · exact positive p (split ▸ List.mem_append_left _ early)
      · rcases List.mem_cons.mp late with rfl | late
        · have nonnegative : 0 ≤ position.stakedAmount - item.amount := by linarith
          exact lt_of_le_of_ne nonnegative (Ne.symm left)
        · exact positive p (split ▸ List.mem_append_right _ (List.mem_cons_of_mem _ late))

theorem withdrawItems_held (asset : String) (now : Int) (positions : List InternalPosition)
    (items : List WithdrawAssetRequest) :
    held asset (withdrawItems now positions items).1 =
      held asset positions - paidOut asset (withdrawItems now positions items).2 := by
  induction items generalizing positions with
  | nil => simp [withdrawItems, paidOut, amountIn]
  | cons item items ih =>
    simp only [withdrawItems]
    rw [ih, withdrawItem_held]
    simp only [paidOut, amountIn_cons]
    simp only [amountIn, List.map_nil, List.sum_nil]
    ring

theorem withdrawItems_positive {now : Int} {positions : List InternalPosition}
    {items : List WithdrawAssetRequest} (positive : AllPositive positions) :
    AllPositive (withdrawItems now positions items).1 := by
  induction items generalizing positions with
  | nil => exact positive
  | cons item items ih => exact ih (withdrawItem_positive positive)

theorem withdrawItems_answer (now : Int) (positions : List InternalPosition)
    (front : List WithdrawAssetRequest) (item : WithdrawAssetRequest)
    (rest : List WithdrawAssetRequest) :
    (withdrawItems now positions (front ++ item :: rest)).2[front.length]? =
      some (withdrawItem now (withdrawItems now positions front).1 item).2 := by
  induction front generalizing positions with
  | nil => simp [withdrawItems]
  | cons first front ih => simpa [withdrawItems] using ih (withdrawItem now positions first).1

theorem refused_item_changes_nothing {now : Int} {positions : List InternalPosition}
    {item : WithdrawAssetRequest} (refused : (withdrawItem now positions item).2.unlocked = false) :
    (withdrawItem now positions item).1 = positions := by
  rcases withdrawItem_cases now positions item with same | ⟨_, _, _, _, _, _, _, result⟩
  · rw [same]
  · simp [result] at refused

theorem validated_asset_positive {asset : StakingAssetRequest}
    (valid : validateStakeAsset asset = .ok ()) : 0 < asset.amount := by
  unfold validateStakeAsset at valid
  split at valid
  · simp at valid
  · split at valid
    · simp at valid
    · rename_i bounds
      exact not_le.mp (fun low => bounds (Or.inl low))

theorem openPosition_ok {now : Int} {asset : StakingAssetRequest} {position : InternalPosition}
    (opened : openPosition now asset = .ok position) :
    isoInstant (now + asset.termDays * millisPerDay) = .ok position.unlockedAt ∧
      position.assetId = asset.assetId ∧ position.stakedAmount = asset.amount ∧
      position.termDays = asset.termDays ∧ position.accruedYield =
        calculateYield position.stakedAmount position.yieldRate position.termDays := by
  obtain ⟨unlockedAt, formatted, made⟩ := Throwing.bind_ok opened
  cases made
  exact ⟨formatted, rfl, rfl, rfl, rfl⟩

theorem opened_positions {now : Int} {assets : List StakingAssetRequest}
    {positions : List InternalPosition} (opened : assets.mapM (openPosition now) = .ok positions) :
    (∀ asset, held asset positions = requested asset assets) ∧
      ((∀ a ∈ assets, 0 < a.amount) → AllPositive positions) := by
  have paired := Throwing.mapM_ok opened
  clear opened
  induction paired with
  | nil => simp [held, requested, amountIn, AllPositive]
  | @cons first position assets others head tail ih =>
    obtain ⟨_, same, amount, _⟩ := openPosition_ok head
    obtain ⟨sums, positive⟩ := ih
    constructor
    · intro asset
      have rest := sums asset
      simp only [held, requested] at rest ⊢
      rw [amountIn_cons, amountIn_cons, same, amount, rest]
    · intro amounts p member
      rcases List.mem_cons.mp member with rfl | member
      · rw [amount]
        exact amounts first List.mem_cons_self
      · exact positive (fun a late => amounts a (List.mem_cons_of_mem _ late)) p member

theorem ownPositions_eq {service : PortfolioService} {staker : String}
    {existing : List InternalPosition} (own : service.ownPositions staker = .ok existing) :
    existing = positionsOf service staker := by
  unfold ownPositions at own
  unfold positionsOf
  cases stored : service.portfolioData.get staker with
  | some positions =>
    simp only [stored, Except.ok.injEq] at own
    simp [own]
  | none =>
    simp only [stored] at own
    split at own
    · simp at own
    · simpa using own.symm

theorem planStake_ok {service : PortfolioService} {request : MultiAssetStakeRequest} {now : Int}
    {existing positions : List InternalPosition}
    (planned : service.planStake request now = .ok (existing, positions)) :
    validateStakeRequest request = .ok () ∧ request.assets.mapM (openPosition now) = .ok positions ∧
      existing = positionsOf service request.stakerId := by
  obtain ⟨_, valid, planned⟩ := Throwing.bind_ok planned
  obtain ⟨_, opened, planned⟩ := Throwing.bind_ok planned
  obtain ⟨_, own, made⟩ := Throwing.bind_ok planned
  cases made
  exact ⟨valid, opened, ownPositions_eq own⟩

theorem planStake_spec {service : PortfolioService} {request : MultiAssetStakeRequest} {now : Int}
    {existing positions : List InternalPosition}
    (planned : service.planStake request now = .ok (existing, positions)) :
    existing = positionsOf service request.stakerId ∧
      (∀ asset, held asset positions = requested asset request.assets) ∧ AllPositive positions := by
  obtain ⟨valid, opened, own⟩ := planStake_ok planned
  have amounts : ∀ a ∈ request.assets, 0 < a.amount := by
    unfold validateStakeRequest at valid
    split at valid
    · simp at valid
    · exact fun asset member => validated_asset_positive (Throwing.forM_ok valid asset member)
  exact ⟨own, (opened_positions opened).1, (opened_positions opened).2 amounts⟩

@[simp] theorem invalidateCache_data (service : PortfolioService) (staker : String) :
    (service.invalidateCache staker).portfolioData = service.portfolioData := rfl

theorem getCache_data (service : PortfolioService) (key : String) (now : Int) :
    (service.getCache key now).1.portfolioData = service.portfolioData := by
  unfold getCache
  split
  · split <;> rfl
  · rfl

theorem readThrough_data (service : PortfolioService) (key staker : String)
    (compute : List InternalPosition → CachedValue) (now : Int) :
    (service.readThrough key staker compute now).1.portfolioData = service.portfolioData := by
  have cached := getCache_data service key now
  unfold readThrough
  split <;> rename_i eq <;> rw [eq] at cached
  · exact cached
  · split <;> exact cached

theorem positionsOf_data {a b : PortfolioService} (same : a.portfolioData = b.portfolioData)
    (staker : String) : positionsOf a staker = positionsOf b staker := by
  rw [positionsOf, positionsOf, same]

theorem positionsOf_set (service : PortfolioService)
    (data : InsertionMap String (List InternalPosition)) (staker other : String)
    (positions : List InternalPosition) (written : service.portfolioData = data.set staker positions) :
    positionsOf service other =
      if other = staker then positions else (data.get other).getD [] := by
  rw [positionsOf, written, InsertionMap.get_set]
  split <;> rfl

theorem stakeMulti_cases (service : PortfolioService) (request : MultiAssetStakeRequest)
    (now : Int) :
    (∃ thrown, service.stakeMulti request now = (service, .error thrown)) ∨
    ∃ positions, (service.stakeMulti request now).2 = .ok positions ∧
      (∀ asset, held asset positions = requested asset request.assets) ∧ AllPositive positions ∧
      ∀ staker, positionsOf (service.stakeMulti request now).1 staker =
        if staker = request.stakerId then positionsOf service staker ++ positions
        else positionsOf service staker := by
  cases planned : service.planStake request now with
  | error thrown => exact Or.inl ⟨thrown, by simp [stakeMulti, planned]⟩
  | ok plan =>
    obtain ⟨existing, positions⟩ := plan
    obtain ⟨own, sums, positive⟩ := planStake_spec planned
    refine Or.inr ⟨positions, by simp [stakeMulti, planned], sums, positive, ?_⟩
    intro staker
    rw [positionsOf_set _ service.portfolioData request.stakerId staker (existing ++ positions)
      (by simp [stakeMulti, planned])]
    split
    · rename_i same
      rw [own, same]
    · rfl

theorem withdrawMulti_cases (service : PortfolioService) (request : MultiAssetWithdrawRequest)
    (now : Int) :
    (∃ thrown, service.withdrawMulti request now = (service, .error thrown)) ∨
    ((service.withdrawMulti request now).2 =
        .ok (withdrawItems now (positionsOf service request.stakerId) request.assets).2 ∧
      ∀ staker, positionsOf (service.withdrawMulti request now).1 staker =
        if staker = request.stakerId then
          (withdrawItems now (positionsOf service request.stakerId) request.assets).1
        else positionsOf service staker) := by
  cases stored : service.portfolioData.get request.stakerId with
  | none =>
    cases inherited : inheritedMembers.lookup request.stakerId with
    | none =>
      exact Or.inl ⟨.notFound "No staking positions found for staker",
        by simp [withdrawMulti, stored, inherited]⟩
    | some length =>
      by_cases listless : length = some 0
      · exact Or.inl ⟨.notFound "No staking positions found for staker",
          by simp [withdrawMulti, stored, inherited, listless]⟩
      · by_cases nothing : request.assets = []
        · have empty : positionsOf service request.stakerId = [] := by simp [positionsOf, stored]
          have same : service.withdrawMulti request now =
              (service.invalidateCache request.stakerId, .ok []) := by
            unfold withdrawMulti
            split <;> simp_all
          refine Or.inr ⟨by simp [same, nothing, withdrawItems], ?_⟩
          intro staker
          rw [same, positionsOf_data (invalidateCache_data service request.stakerId)]
          split
          · rename_i own
            simp [own, nothing, empty, withdrawItems]
          · rfl
        · refine Or.inl ⟨.typeError, ?_⟩
          unfold withdrawMulti
          split <;> simp_all
  | some positions =>
    have own : positionsOf service request.stakerId = positions := by simp [positionsOf, stored]
    cases positions with
    | nil =>
      exact Or.inl ⟨.notFound "No staking positions found for staker",
        by simp [withdrawMulti, stored]⟩
    | cons first others =>
      rw [own]
      refine Or.inr ⟨by simp [withdrawMulti, stored], ?_⟩
      intro staker
      exact positionsOf_set _ service.portfolioData request.stakerId staker _
        (by simp [withdrawMulti, stored])

/-- The ledger against the history, for every staker and asset. -/
def Conserved (past : List (PortfolioCall × PortfolioAnswer)) (service : PortfolioService) : Prop :=
  ∀ staker, AllPositive (positionsOf service staker) ∧ ∀ asset,
    held asset (positionsOf service staker) =
      totalStakedBy staker asset past - totalWithdrawnBy staker asset past

/- An exchange that stakes and withdraws nothing leaves a balance as it is. -/
theorem balance_kept {past : List (PortfolioCall × PortfolioAnswer)}
    {e : PortfolioCall × PortfolioAnswer} {staker : String} {positions : List InternalPosition}
    (known : ∀ asset, held asset positions =
      totalStakedBy staker asset past - totalWithdrawnBy staker asset past)
    (nothing : ∀ asset, stakedBy staker asset e = 0 ∧ withdrawnBy staker asset e = 0)
    (asset : String) : held asset positions =
      totalStakedBy staker asset (e :: past) - totalWithdrawnBy staker asset (e :: past) := by
  obtain ⟨staked, withdrawn⟩ := nothing asset
  rw [known asset]
  simp [totalStakedBy, totalWithdrawnBy, staked, withdrawn]

theorem conserved_unchanged {past : List (PortfolioCall × PortfolioAnswer)}
    {service service' : PortfolioService} {e : PortfolioCall × PortfolioAnswer}
    (known : Conserved past service)
    (same : ∀ staker, positionsOf service' staker = positionsOf service staker)
    (nothing : ∀ staker asset, stakedBy staker asset e = 0 ∧ withdrawnBy staker asset e = 0) :
    Conserved (e :: past) service' := by
  intro staker
  rw [same staker]
  exact ⟨(known staker).1, balance_kept (known staker).2 (nothing staker)⟩

theorem conserved_after_stake {past : List (PortfolioCall × PortfolioAnswer)}
    {service : PortfolioService} (known : Conserved past service)
    (request : MultiAssetStakeRequest) (now : Int) :
    Conserved ((.stakeMulti request now,
      answering (.staked request.stakerId) (service.stakeMulti request now).2) :: past)
      (service.stakeMulti request now).1 := by
  rcases stakeMulti_cases service request now with ⟨thrown, threw⟩ | staked
  · rw [threw]
    exact conserved_unchanged known (fun _ => rfl) (fun _ _ => ⟨rfl, rfl⟩)
  · obtain ⟨positions, answer, sums, positive, after⟩ := staked
    intro staker
    rw [after staker, answer]
    by_cases own : staker = request.stakerId
    · subst staker
      simp only [↓reduceIte]
      constructor
      · intro p member
        rcases List.mem_append.mp member with early | late
        · exact (known _).1 p early
        · exact positive p late
      · intro asset
        have before := (known request.stakerId).2 asset
        have fresh := sums asset
        simp only [held] at before fresh ⊢
        rw [amountIn_append, before, fresh]
        simp [totalStakedBy, totalWithdrawnBy, stakedBy, withdrawnBy, answering]
        ring
    · have other := Ne.symm own
      simp only [own, ↓reduceIte]
      refine ⟨(known staker).1, balance_kept (known staker).2 fun asset => ?_⟩
      simp [stakedBy, withdrawnBy, answering, other]

theorem conserved_after_withdraw {past : List (PortfolioCall × PortfolioAnswer)}
    {service : PortfolioService} (known : Conserved past service)
    (request : MultiAssetWithdrawRequest) (now : Int) :
    Conserved ((.withdrawMulti request now,
      answering (.withdrew request.stakerId) (service.withdrawMulti request now).2) :: past)
      (service.withdrawMulti request now).1 := by
  rcases withdrawMulti_cases service request now with ⟨thrown, threw⟩ | ⟨answer, after⟩
  · rw [threw]
    exact conserved_unchanged known (fun _ => rfl) (fun _ _ => ⟨rfl, rfl⟩)
  · intro staker
    rw [after staker, answer]
    by_cases own : staker = request.stakerId
    · subst staker
      simp only [↓reduceIte]
      refine ⟨withdrawItems_positive (known _).1, fun asset => ?_⟩
      rw [withdrawItems_held, (known _).2 asset]
      simp [totalStakedBy, totalWithdrawnBy, stakedBy, withdrawnBy, answering]
      ring
    · have other := Ne.symm own
      simp only [own, ↓reduceIte]
      refine ⟨(known staker).1, balance_kept (known staker).2 fun asset => ?_⟩
      simp [stakedBy, withdrawnBy, answering, other]

theorem conserved_always {permit : Machine.Permit PortfolioService PortfolioCall PortfolioAnswer}
    {past : List (PortfolioCall × PortfolioAnswer)} {service : PortfolioService}
    (run : portfolioMachine.Run permit past service) : Conserved past service := by
  refine run.invariant Conserved ?_ ?_
  · intro staker
    simp [positionsOf, portfolioMachine, PortfolioService.initial, AllPositive, held, amountIn,
      totalStakedBy, totalWithdrawnBy]
  · intro past service call service' answer _ known _ moved
    cases call with
    | stakeMulti request now =>
      simp only [portfolioMachine, portfolioStep, Option.some.injEq, Prod.mk.injEq] at moved
      obtain ⟨rfl, rfl⟩ := moved
      exact conserved_after_stake known request now
    | withdrawMulti request now =>
      simp only [portfolioMachine, portfolioStep, Option.some.injEq, Prod.mk.injEq] at moved
      obtain ⟨rfl, rfl⟩ := moved
      exact conserved_after_withdraw known request now
    | getPortfolioView staker now =>
      simp only [portfolioMachine, portfolioStep, Option.some.injEq, Prod.mk.injEq] at moved
      obtain ⟨rfl, rfl⟩ := moved
      exact conserved_unchanged known (positionsOf_data (readThrough_data ..)) (fun _ _ => ⟨rfl, rfl⟩)
    | getAggregatedYield staker now =>
      simp only [portfolioMachine, portfolioStep, Option.some.injEq, Prod.mk.injEq] at moved
      obtain ⟨rfl, rfl⟩ := moved
      exact conserved_unchanged known (positionsOf_data (readThrough_data ..)) (fun _ _ => ⟨rfl, rfl⟩)

/- Principal is conserved in every reachable state, no empty or negative position is
   stored, and an item answered unlocked: false leaves the batch's list as it was.
   Nothing is asked of the withdrawal amounts. -/
theorem staking_ledger_conserved {past : List (PortfolioCall × PortfolioAnswer)}
    {service : PortfolioService} (run : portfolioMachine.Run Machine.anything past service) :
    (∀ staker asset, held asset (positionsOf service staker) =
      totalStakedBy staker asset past - totalWithdrawnBy staker asset past) ∧
    (∀ staker, ∀ position ∈ positionsOf service staker, 0 < position.stakedAmount) ∧
    ∀ request now withdrawals, (service.withdrawMulti request now).2 = .ok withdrawals →
      ∀ front item rest, request.assets = front ++ item :: rest →
        let left := (withdrawItems now (positionsOf service request.stakerId) front).1
        ∃ answered, withdrawals[front.length]? = some answered ∧
          (answered.unlocked = false → (withdrawItem now left item).1 = left) := by
  have conserved := conserved_always run
  refine ⟨fun staker => (conserved staker).2, fun staker => (conserved staker).1, ?_⟩
  intro request now withdrawals answer front item rest split left
  rcases withdrawMulti_cases service request now with ⟨thrown, threw⟩ | ⟨batch, _⟩
  · simp [threw] at answer
  · rw [batch, Except.ok.injEq] at answer
    rw [split] at answer
    refine ⟨(withdrawItem now left item).2, ?_, refused_item_changes_nothing⟩
    rw [← answer]
    exact withdrawItems_answer now (positionsOf service request.stakerId) front item rest

def stakeTen : MultiAssetStakeRequest := ⟨"alice", [⟨"ASTR", 10, 30⟩]⟩

def withdrawTwice : MultiAssetWithdrawRequest := ⟨"alice", [⟨"ASTR", 4⟩, ⟨"ASTR", 7⟩]⟩

/- Ten staked, four paid out after a month; the seven asked for next are refused. -/
theorem staking_ledger_conserved_after_withdrawal :
    let staked := PortfolioService.initial.stakeMulti stakeTen 0
    let withdrawn := staked.1.withdrawMulti withdrawTwice 2600000000
    held "ASTR" (positionsOf withdrawn.1 "alice") =
      totalStakedBy "alice" "ASTR" [
        (.withdrawMulti withdrawTwice 2600000000, answering (.withdrew "alice") withdrawn.2),
        (.stakeMulti stakeTen 0, answering (.staked "alice") staked.2)] -
      totalWithdrawnBy "alice" "ASTR" [
        (.withdrawMulti withdrawTwice 2600000000, answering (.withdrew "alice") withdrawn.2),
        (.stakeMulti stakeTen 0, answering (.staked "alice") staked.2)] := by
  intro staked withdrawn
  have first : portfolioMachine.Run Machine.anything
      [(.stakeMulti stakeTen 0, answering (.staked "alice") staked.2)] staked.1 :=
    Machine.Run.start.next trivial rfl
  have second : portfolioMachine.Run Machine.anything [
        (.withdrawMulti withdrawTwice 2600000000, answering (.withdrew "alice") withdrawn.2),
        (.stakeMulti stakeTen 0, answering (.staked "alice") staked.2)] withdrawn.1 :=
    first.next trivial rfl
  exact (staking_ledger_conserved second).1 "alice" "ASTR"

example :
    let staked := (PortfolioService.initial.stakeMulti stakeTen 0).1
    (staked.withdrawMulti withdrawTwice 2600000000).2 =
      .ok [⟨"ASTR", 4, true⟩, ⟨"ASTR", 7, false⟩] := by decide +kernel

end AstraPort.Staking
