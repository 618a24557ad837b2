import AstraPort.Foundation.Host

/- RebalancingPlannerService: the trades that move each asset from its current to its target
   amount, with their cost and slippage estimates. Amounts are exact rationals. -/
namespace AstraPort.Rebalancing

structure RebalancingAsset where
  symbol : String
  currentAmount : Rat
  targetAmount : Rat
  liquidity : Rat
  volatility : Rat
  deriving DecidableEq

structure RebalancingPlanRequest where
  portfolioId : String
  strategy : String
  assets : List RebalancingAsset
  tolerance : Rat
  deriving DecidableEq

inductive TradeDirection where
  | buy
  | sell
  deriving DecidableEq

structure RebalancingTrade where
  symbol : String
  direction : TradeDirection
  amount : Rat
  cost : Rat
  estimatedSlippage : Rat
  deriving DecidableEq

structure RebalancingPlan where
  rebalanceId : String
  portfolioId : String
  recommendedStrategy : String
  tolerance : Rat
  trades : List RebalancingTrade
  estimatedTotalFee : Rat
  executionTimeMs : Nat
  deriving DecidableEq

/-- An unknown strategy is replaced by one that suits the average liquidity; that of no assets
    is not a number, which is above no bound. -/
def resolveStrategy (strategy : String) (assets : List RebalancingAsset) : String :=
  if strategy = "min-cost" ∨ strategy = "min-time" ∨ strategy = "balanced" then strategy
  else
    let avgLiquidity := average (assets.map RebalancingAsset.liquidity)
    if 3 < avgLiquidity then "min-cost" else "balanced"

def strategyMultiplier (strategy : String) : Rat :=
  if strategy = "min-time" then 12 / 10 else if strategy = "balanced" then 11 / 10 else 95 / 100

def calculateTradeCost (asset : RebalancingAsset) (amount : Rat) (strategy : String) : Rat :=
  toFixed 4 (amount * (1 / 100) * strategyMultiplier strategy + asset.volatility * 10)

def estimateSlippage (liquidity amount : Rat) : Rat :=
  toFixed 4 (min (8 / 100) (amount / max liquidity 1 * (1 / 100)))

def buildTrade (strategy : String) (asset : RebalancingAsset) : RebalancingTrade :=
  let delta := asset.targetAmount - asset.currentAmount
  let amount := |delta|
  { symbol := asset.symbol
    direction := if 0 < delta then .buy else .sell
    amount := amount
    cost := calculateTradeCost asset amount strategy
    estimatedSlippage := estimateSlippage asset.liquidity amount }

def plannedTrades (request : RebalancingPlanRequest) : List RebalancingTrade :=
  request.assets.map (buildTrade (resolveStrategy request.strategy request.assets))

def totalCost (trades : List RebalancingTrade) : Rat := (trades.map RebalancingTrade.cost).sum

/-- The id of a plan is the instant it is made at, in milliseconds. -/
def rebalanceIdAt (now : Int) : String := "rebalance-" ++ toString now

def plan (request : RebalancingPlanRequest) (now : Int) : RebalancingPlan :=
  { rebalanceId := rebalanceIdAt now
    portfolioId := request.portfolioId
    recommendedStrategy := resolveStrategy request.strategy request.assets
    tolerance := request.tolerance
    trades := plannedTrades request
    estimatedTotalFee := totalCost (plannedTrades request)
    executionTimeMs := 650 }

end AstraPort.Rebalancing
