import AstraPort.Foundation.Rounding
import AstraPort.Rebalancing.Executions

/- The slippage gate: getSlippageEstimate tells whether a trade would be blocked, by a formula of
   its own. The execution does not ask it: it counts the trades over the tolerance and completes
   them all. -/
namespace AstraPort.Rebalancing

structure SlippageEstimateRequest where
  portfolioId : String
  strategy : String
  asset : String
  tradeSize : Rat
  tolerance : Rat
  liquidity : Rat
  deriving DecidableEq

structure SlippageEstimate where
  portfolioId : String
  strategy : String
  asset : String
  estimatedSlippage : Rat
  tolerance : Rat
  blocked : Bool
  reason : String
  deriving DecidableEq

namespace RebalancingService

def estimateSlippage (liquidity amount : Rat) : Rat :=
  let normalized := amount / max liquidity 1
  toFixed 4 (min (8 / 100) (normalized * (1 / 100)))

def getSlippageEstimate (request : SlippageEstimateRequest) : SlippageEstimate :=
  let estimate := estimateSlippage request.liquidity request.tradeSize
  let blocked := decide (request.tolerance < estimate)
  { portfolioId := request.portfolioId
    strategy := request.strategy
    asset := request.asset
    estimatedSlippage := estimate
    tolerance := request.tolerance
    blocked := blocked
    reason := if blocked then "Projected slippage exceeds tolerance"
      else "Slippage remains within tolerance" }

end RebalancingService

/-- The question to the gate about one asset of a plan. -/
def gateRequest (request : RebalancingPlanRequest) (asset : RebalancingAsset) :
    SlippageEstimateRequest :=
  { portfolioId := request.portfolioId
    strategy := request.strategy
    asset := asset.symbol
    tradeSize := |asset.targetAmount - asset.currentAmount|
    tolerance := request.tolerance
    liquidity := asset.liquidity }

/-- Trades small enough for the tolerance: half a step of a hundredth of a percent above it is
    still rounded down. No trade is too large for eight percent. -/
def WithinTolerance (tolerance : Rat) (asset : RebalancingAsset) : Prop :=
  8 / 100 ≤ tolerance ∨ |asset.targetAmount - asset.currentAmount| * 100 <
    (⌊tolerance * 10000⌋ + 1 / 2) * max asset.liquidity 1

theorem estimateSlippage_eq (liquidity amount : Rat) :
    RebalancingService.estimateSlippage liquidity amount = estimateSlippage liquidity amount := by
  unfold RebalancingService.estimateSlippage estimateSlippage
  rfl

/- The planner's estimate is over the tolerance exactly when the gate would block the trade. -/
theorem blocked_iff (request : RebalancingPlanRequest) (asset : RebalancingAsset) :
    (RebalancingService.getSlippageEstimate (gateRequest request asset)).blocked = true ↔
      request.tolerance < (buildTrade (resolveStrategy request.strategy request.assets)
        asset).estimatedSlippage := by
  simp only [RebalancingService.getSlippageEstimate, gateRequest, buildTrade, estimateSlippage_eq,
    decide_eq_true_eq]

theorem eight_percent_iff (tolerance : Rat) :
    8 / 100 ≤ tolerance ↔ (800 : Rat) < ⌊tolerance * 10000⌋ + 1 / 2 := by
  constructor
  · intro enough
    have step : (800 : Int) ≤ ⌊tolerance * 10000⌋ := Int.le_floor.mpr (by
      push_cast
      linarith)
    have reached : (800 : Rat) ≤ ⌊tolerance * 10000⌋ := by exact_mod_cast step
    linarith
  · intro enough
    have above : ((799 : Int) : Rat) < ⌊tolerance * 10000⌋ := by
      push_cast
      linarith
    have step : (799 : Int) < ⌊tolerance * 10000⌋ := by exact_mod_cast above
    have floor : ((800 : Int) : Rat) ≤ tolerance * 10000 := Int.le_floor.mp (by omega)
    push_cast at floor
    linarith

theorem over_tolerance_iff (strategy : String) (tolerance : Rat) (asset : RebalancingAsset) :
    tolerance < (buildTrade strategy asset).estimatedSlippage ↔ ¬ WithinTolerance tolerance asset := by
  have share : (0 : Rat) < max asset.liquidity 1 := lt_max_of_lt_right one_pos
  have moved : 0 ≤ |asset.targetAmount - asset.currentAmount| / max asset.liquidity 1 :=
    div_nonneg (abs_nonneg _) share.le
  have small : min (8 / 100) (|asset.targetAmount - asset.currentAmount| /
      max asset.liquidity 1 * (1 / 100)) < 10 ^ 21 := min_lt_of_left_lt (by norm_num)
  have cents : (0 : Rat) ≤ 10 ^ 4 := by norm_num
  have estimated := lt_toFixed_iff tolerance
    (le_min (by norm_num) (mul_nonneg moved (by norm_num))) small 4
  rw [min_mul_of_nonneg _ _ cents, le_min_iff] at estimated
  rw [WithinTolerance, not_or, eight_percent_iff, not_lt, not_lt, ← le_div_iff₀ share,
    ← div_mul_eq_mul_div]
  refine estimated.trans (and_congr ?_ ?_)
  · norm_num
  · norm_num [mul_assoc]

/-- Forty coins at a liquidity of 1.2 and a tolerance of half a percent. -/
def thinMarket : RebalancingPlanRequest :=
  ⟨"portfolio-1", "min-time", [⟨"BTC", 0, 40, 12 / 10, 1 / 100⟩], 5 / 1000⟩

end AstraPort.Rebalancing
