import Mathlib.Tactic.Linarith
import Mathlib.Tactic.NormNum
import AstraPort.Foundation.Rounding
import AstraPort.Rebalancing.Planner

/- The strategy classes beside the planner: the same pricing with constants of their own. The
   costs are those of the planner; the slippage estimates are the same in bands of the load only. -/
namespace AstraPort.Rebalancing

structure PricingStrategy where
  id : String
  feeRate : Rat
  slippageRate : Rat
  slippageCap : Rat
  deriving DecidableEq

/-- Amount moved per unit of liquidity, of which at least one is assumed. -/
def load (asset : RebalancingAsset) : Rat :=
  |asset.targetAmount - asset.currentAmount| / max asset.liquidity 1

def PricingStrategy.buildTrade (strategy : PricingStrategy) (asset : RebalancingAsset)
    (amount : Rat) : RebalancingTrade :=
  let delta := asset.targetAmount - asset.currentAmount
  { symbol := asset.symbol
    direction := if 0 < delta then .buy else .sell
    amount := |delta|
    cost := toFixed 4 (amount * strategy.feeRate + asset.volatility * 10)
    estimatedSlippage := toFixed 4 (min strategy.slippageCap
      (|delta| / max asset.liquidity 1 * strategy.slippageRate)) }

def minCostStrategy : PricingStrategy := ⟨"min-cost", 95 / 10000, 1 / 100, 6 / 100⟩

def minTimeStrategy : PricingStrategy := ⟨"min-time", 12 / 1000, 12 / 1000, 8 / 100⟩

def balancedStrategy : PricingStrategy := ⟨"balanced", 11 / 1000, 11 / 1000, 7 / 100⟩

inductive StrategyId where
  | minCost
  | minTime
  | balanced
  deriving DecidableEq

namespace StrategyId

def strategy : StrategyId → PricingStrategy
  | minCost => minCostStrategy
  | minTime => minTimeStrategy
  | balanced => balancedStrategy

/-- The loads at which the planner and the strategy class round to one slippage estimate. -/
def Agrees : StrategyId → Rat → Prop
  | minCost, load => load < 1201 / 200
  | minTime, load => (∃ k : Nat, k ≤ 5 ∧ (2 * k - 1) / 200 ≤ load ∧ load < (2 * k + 1) / 240) ∨
      1599 / 200 ≤ load
  | balanced, load => (∃ k : Nat, k ≤ 10 ∧ (2 * k - 1) / 200 ≤ load ∧ load < (2 * k + 1) / 220) ∨
      1399 / 200 ≤ load ∧ load < 1401 / 200

end StrategyId

section Rounding

theorem rounded_iff {x : Rat} {k : Int} : ⌊x + 1 / 2⌋ = k ↔ k - 1 / 2 ≤ x ∧ x < k + 1 / 2 := by
  rw [Int.floor_eq_iff]
  constructor
  · rintro ⟨low, high⟩
    exact ⟨by linarith, by linarith⟩
  · rintro ⟨low, high⟩
    exact ⟨by linarith, by linarith⟩

theorem le_of_cast_lt {k n : Nat} (near : (k : Rat) < n + 1) : k ≤ n := by
  have whole : k < n + 1 := by exact_mod_cast near
  omega

/- What is not negative has a natural number nearest to it. -/
theorem nearest_whole {x : Rat} (nonnegative : 0 ≤ x) :
    ∃ k : Nat, ⌊x + 1 / 2⌋ = k ∧ (k : Rat) - 1 / 2 ≤ x ∧ x < k + 1 / 2 := by
  have whole : 0 ≤ ⌊x + 1 / 2⌋ := Int.floor_nonneg.mpr (by linarith)
  obtain ⟨k, nearest⟩ := Int.eq_ofNat_of_zero_le whole
  have near := rounded_iff.mp nearest
  push_cast at near
  exact ⟨k, nearest, near⟩

/- The nearest whole number of what is cut off at a whole cap. -/
theorem rounded_min_iff {cap k : Nat} {x : Rat} : ⌊min (cap : Rat) x + 1 / 2⌋ = k ↔
    k ≤ cap ∧ (k : Rat) - 1 / 2 ≤ x ∧ (cap = k ∨ x < k + 1 / 2) := by
  rw [rounded_iff, le_min_iff, min_lt_iff]
  push_cast
  constructor
  · rintro ⟨⟨capped, low⟩, near⟩
    have below : k ≤ cap := le_of_cast_lt (by linarith)
    refine ⟨below, low, near.imp_left ?_⟩
    intro touched
    have above : cap ≤ k := le_of_cast_lt (by linarith)
    omega
  · rintro ⟨below, low, near⟩
    have under : (k : Rat) ≤ cap := by exact_mod_cast below
    refine ⟨⟨by linarith, low⟩, near.imp_left ?_⟩
    rintro rfl
    linarith

/- A number and its multiple, each cut off at a whole cap, have the same nearest whole number:
   one that neither cap touches, or the lower cap. -/
theorem rounded_min_eq_iff {rate x : Rat} {cap limit : Nat} (faster : 1 ≤ rate)
    (lower : cap ≤ limit) (nonnegative : 0 ≤ x) :
    ⌊min (limit : Rat) x + 1 / 2⌋ = ⌊min (cap : Rat) (x * rate) + 1 / 2⌋ ↔
      (∃ k : Nat, k ≤ cap ∧ k - 1 / 2 ≤ x ∧ x * rate < k + 1 / 2) ∨
        cap - 1 / 2 ≤ x ∧ (cap = limit ∨ x < cap + 1 / 2) := by
  have grown : x ≤ x * rate := le_mul_of_one_le_right nonnegative faster
  constructor
  · intro same
    have floor : 0 ≤ min (cap : Rat) (x * rate) :=
      le_min (Nat.cast_nonneg cap) (nonnegative.trans grown)
    obtain ⟨k, nearest, _⟩ := nearest_whole floor
    obtain ⟨_, low, limited⟩ := rounded_min_iff.mp (same.trans nearest)
    obtain ⟨below, _, rfl | high⟩ := rounded_min_iff.mp nearest
    · exact Or.inr ⟨low, limited.imp_left Eq.symm⟩
    · exact Or.inl ⟨k, below, low, high⟩
  · rintro (⟨k, below, low, high⟩ | ⟨low, limited⟩)
    · rw [rounded_min_iff.mpr ⟨below.trans lower, low, Or.inr (by linarith)⟩,
        rounded_min_iff.mpr ⟨below, by linarith, Or.inr high⟩]
    · rw [rounded_min_iff.mpr ⟨lower, low, limited.imp_left Eq.symm⟩,
        rounded_min_iff.mpr ⟨le_rfl, by linarith, Or.inl rfl⟩]

end Rounding

theorem load_nonneg (asset : RebalancingAsset) : 0 ≤ load asset :=
  div_nonneg (abs_nonneg _) (zero_le_one.trans (le_max_right _ _))

/- Slippage estimates with four decimals, in whole steps of a hundredth of a percent. -/
theorem slippage_eq_iff (rate : Rat) (cap : Nat) (faster : 1 ≤ rate) (lower : cap ≤ 800)
    {load : Rat} (nonnegative : 0 ≤ load) :
    toFixed 4 (min (8 / 100) (load * (1 / 100))) =
        toFixed 4 (min (cap / 10000) (load * (rate / 100))) ↔
      (∃ k : Nat, k ≤ cap ∧ k - 1 / 2 ≤ load * 100 ∧ load * 100 * rate < k + 1 / 2) ∨
        cap - 1 / 2 ≤ load * 100 ∧ (cap = 800 ∨ load * 100 < cap + 1 / 2) := by
  have caps : (cap : Rat) ≤ 800 := by exact_mod_cast lower
  have scaled : 0 ≤ load * (rate / 100) := mul_nonneg nonnegative (by linarith)
  have bounded {cap x : Rat} (low : cap ≤ 8 / 100) : min cap x < 10 ^ 21 :=
    min_lt_of_left_lt (by linarith [show (8 : Rat) / 100 < 10 ^ 21 by norm_num])
  have cents : (0 : Rat) ≤ 10 ^ 4 := by norm_num
  rw [toFixed_eq_iff (le_min (by norm_num) (by linarith)) (le_min (by positivity) scaled)
    (bounded le_rfl) (bounded (by linarith)), min_mul_of_nonneg _ _ cents,
    min_mul_of_nonneg _ _ cents, show (8 : Rat) / 100 * 10 ^ 4 = (800 : Nat) by norm_num,
    show load * (1 / 100) * 10 ^ 4 = load * 100 by ring,
    show (cap : Rat) / 10000 * 10 ^ 4 = cap by ring,
    show load * (rate / 100) * 10 ^ 4 = load * 100 * rate by ring]
  exact rounded_min_eq_iff faster lower (by linarith)

/- Where the multiple runs away from the number by more than a step, no band is left. -/
theorem slippage_agrees_iff (id : StrategyId) {load : Rat} (nonnegative : 0 ≤ load) :
    toFixed 4 (min (8 / 100) (load * (1 / 100))) =
        toFixed 4 (min id.strategy.slippageCap (load * id.strategy.slippageRate)) ↔
      id.Agrees load := by
  cases id with
  | minCost =>
    have same := slippage_eq_iff 1 600 le_rfl (by omega) nonnegative
    norm_num at same
    simp only [StrategyId.strategy, minCostStrategy, StrategyId.Agrees]
    norm_num
    rw [same]
    constructor
    · rintro (⟨k, below, _, high⟩ | ⟨_, high⟩)
      · have cap : (k : Rat) ≤ 600 := by exact_mod_cast below
        linarith
      · linarith
    · intro small
      by_cases large : 600 ≤ load * 100
      · exact Or.inr ⟨by linarith, by linarith⟩
      · left
        obtain ⟨k, _, low, high⟩ := nearest_whole (by linarith : 0 ≤ load * 100)
        have cap : k ≤ 600 := le_of_cast_lt (by push_cast; linarith)
        exact ⟨k, cap, by linarith, high⟩
  | minTime =>
    have same := slippage_eq_iff (12 / 10) 800 (by norm_num) le_rfl nonnegative
    norm_num at same
    simp only [StrategyId.strategy, minTimeStrategy, StrategyId.Agrees]
    norm_num
    rw [same]
    constructor
    · rintro (⟨k, _, low, high⟩ | low)
      · have few : k ≤ 5 := le_of_cast_lt (by push_cast; linarith)
        exact Or.inl ⟨k, few, by linarith, by linarith⟩
      · exact Or.inr (by linarith)
    · rintro (⟨k, few, low, high⟩ | low)
      · exact Or.inl ⟨k, by omega, by linarith, by linarith⟩
      · exact Or.inr (by linarith)
  | balanced =>
    have same := slippage_eq_iff (11 / 10) 700 (by norm_num) (by omega) nonnegative
    norm_num at same
    simp only [StrategyId.strategy, balancedStrategy, StrategyId.Agrees]
    norm_num
    rw [same]
    constructor
    · rintro (⟨k, _, low, high⟩ | ⟨low, high⟩)
      · have few : k ≤ 10 := le_of_cast_lt (by push_cast; linarith)
        exact Or.inl ⟨k, few, by linarith, by linarith⟩
      · exact Or.inr ⟨by linarith, by linarith⟩
    · rintro (⟨k, few, low, high⟩ | ⟨low, high⟩)
      · exact Or.inl ⟨k, by omega, by linarith, by linarith⟩
      · exact Or.inr ⟨by linarith, by linarith⟩

theorem feeRate_eq (id : StrategyId) :
    1 / 100 * strategyMultiplier id.strategy.id = id.strategy.feeRate := by
  cases id <;> norm_num [strategyMultiplier, StrategyId.strategy, minCostStrategy,
    minTimeStrategy, balancedStrategy, show "min-cost" ≠ "min-time" by decide,
    show "min-cost" ≠ "balanced" by decide, show "balanced" ≠ "min-time" by decide]

theorem tradeCost_eq (id : StrategyId) (asset : RebalancingAsset) (amount : Rat) :
    calculateTradeCost asset amount id.strategy.id =
      toFixed 4 (amount * id.strategy.feeRate + asset.volatility * 10) := by
  rw [calculateTradeCost, mul_assoc, feeRate_eq]

theorem resolveStrategy_id (id : StrategyId) (assets : List RebalancingAsset) :
    resolveStrategy id.strategy.id assets = id.strategy.id := by
  cases id <;> simp [resolveStrategy, StrategyId.strategy, minCostStrategy, minTimeStrategy,
    balancedStrategy]

theorem buildTrade_agrees_iff (id : StrategyId) (asset : RebalancingAsset) :
    buildTrade id.strategy.id asset =
        id.strategy.buildTrade asset |asset.targetAmount - asset.currentAmount| ↔
      id.Agrees (load asset) := by
  rw [← slippage_agrees_iff id (load_nonneg asset)]
  simp only [buildTrade, PricingStrategy.buildTrade, tradeCost_eq, RebalancingTrade.mk.injEq,
    true_and]
  rfl

/-- The trade that a plan holds for an asset under a strategy is the one that the class of the
    strategy builds for it exactly at the loads where both round to one slippage estimate. -/
theorem planned_trade_agrees_iff (id : StrategyId) {request : RebalancingPlanRequest}
    (chosen : request.strategy = id.strategy.id) (now : Int) {i : Nat} {asset : RebalancingAsset}
    (listed : request.assets[i]? = some asset) :
    (plan request now).trades[i]? =
        some (id.strategy.buildTrade asset |asset.targetAmount - asset.currentAmount|) ↔
      id.Agrees (load asset) := by
  rw [← buildTrade_agrees_iff]
  simp [plan, plannedTrades, chosen, resolveStrategy_id, listed]

/-- One coin at a liquidity of four: both estimate a slippage of a quarter of a percent. -/
theorem light_trade_agrees : (plan ⟨"portfolio-1", "min-cost", [⟨"BTC", 1, 2, 4, 1 / 100⟩],
    1 / 100⟩ 1000).trades[0]? = some (minCostStrategy.buildTrade ⟨"BTC", 1, 2, 4, 1 / 100⟩ |2 - 1|) :=
  (planned_trade_agrees_iff .minCost rfl 1000 rfl).mpr (by
    norm_num [StrategyId.Agrees, load])

/-- Two thousand coins at a liquidity of four and a half: the planner estimates a slippage of 8 %,
    the balanced strategy 7 %. -/
theorem heavy_trade_differs :
    ¬ ∀ (id : StrategyId) (request : RebalancingPlanRequest) (now : Int) (i : Nat)
      (asset : RebalancingAsset), request.strategy = id.strategy.id →
      request.assets[i]? = some asset → (plan request now).trades[i]? =
        some (id.strategy.buildTrade asset |asset.targetAmount - asset.currentAmount|) := by
  intro agree
  have same := agree .balanced ⟨"portfolio-1", "balanced", [⟨"USDC", 3000, 1000, 9 / 2, 5 / 1000⟩],
    1 / 100⟩ 1000 0 _ rfl rfl
  exact absurd same (by decide +kernel)

end AstraPort.Rebalancing
