import AstraPort.Rebalancing.Executions

/- FeeCalculatorService: fees quoted before a rebalancing, by a cost formula of its own, and the
   four calls that price a request. A quote, a plan, a rehearsal and an execution of one request
   agree, and only the execution leaves a trace. -/
namespace AstraPort.Rebalancing

structure FeeEstimateRequest where
  portfolioId : String
  strategy : String
  assets : List RebalancingAsset
  deriving DecidableEq

structure AssetFee where
  symbol : String
  fee : Rat
  deriving DecidableEq

structure FeeEstimate where
  portfolioId : String
  strategy : String
  totalFee : Rat
  perAssetFees : List AssetFee
  recommendation : String
  deriving DecidableEq

namespace FeeCalculatorService

def calculateTradeCost (asset : RebalancingAsset) (amount : Rat) (strategy : String) : Rat :=
  let baseFee := amount * (1 / 100)
  let strategyMultiplier : Rat :=
    if strategy = "min-time" then 12 / 10 else if strategy = "balanced" then 11 / 10 else 95 / 100
  toFixed 4 (baseFee * strategyMultiplier + asset.volatility * 10)

def assetFee (strategy : String) (asset : RebalancingAsset) : AssetFee :=
  let delta := asset.targetAmount - asset.currentAmount
  let amount := |delta|
  ⟨asset.symbol, calculateTradeCost asset amount strategy⟩

def estimateFees (request : FeeEstimateRequest) : FeeEstimate :=
  let strategy := resolveStrategy request.strategy request.assets
  let perAssetFees := request.assets.map (assetFee strategy)
  { portfolioId := request.portfolioId
    strategy := strategy
    totalFee := (perAssetFees.map AssetFee.fee).sum
    perAssetFees := perAssetFees
    recommendation := if strategy = "min-cost" then "Route through deepest liquidity pools"
      else "Use a faster execution venue" }

theorem calculateTradeCost_eq (asset : RebalancingAsset) (amount : Rat) (strategy : String) :
    calculateTradeCost asset amount strategy = Rebalancing.calculateTradeCost asset amount strategy := by
  unfold calculateTradeCost Rebalancing.calculateTradeCost strategyMultiplier
  rfl

end FeeCalculatorService

inductive PricingCall where
  | estimateFees (request : FeeEstimateRequest)
  | plan (request : RebalancingPlanRequest) (plannedAt : Int)
  | dryRun (request : RebalancingPlanRequest) (plannedAt executedAt : Int)
  | execute (request : RebalancingPlanRequest) (plannedAt executedAt : Int)
  deriving DecidableEq

inductive PricingAnswer where
  | estimated (estimate : FeeEstimate)
  | planned (plan : RebalancingPlan)
  | simulated (result : TradeExecutionResult)
  | executed (result : TradeExecutionResult)
  deriving DecidableEq

namespace RebalancingService

def price (service : RebalancingService) : PricingCall → RebalancingService × PricingAnswer
  | .estimateFees request => (service, .estimated (FeeCalculatorService.estimateFees request))
  | .plan request plannedAt => (service, .planned (Rebalancing.plan request plannedAt))
  | .dryRun request plannedAt executedAt =>
    (service, .simulated (dryRun request plannedAt executedAt))
  | .execute request plannedAt executedAt =>
    let (service, result) := service.execute request plannedAt executedAt
    (service, .executed result)

end RebalancingService

/-- What is charged for a trade, as the quote lists it. -/
def RebalancingTrade.charged (trade : RebalancingTrade) : AssetFee := ⟨trade.symbol, trade.cost⟩

/-- The request that asks for the fees of a plan. -/
def RebalancingPlanRequest.quoted (request : RebalancingPlanRequest) (portfolioId : String) :
    FeeEstimateRequest := ⟨portfolioId, request.strategy, request.assets⟩

theorem charged_buildTrade (strategy : String) (asset : RebalancingAsset) :
    (buildTrade strategy asset).charged = FeeCalculatorService.assetFee strategy asset := by
  rw [FeeCalculatorService.assetFee, FeeCalculatorService.calculateTradeCost_eq]
  rfl

theorem quoted_fees (request : RebalancingPlanRequest) (portfolioId : String) :
    (FeeCalculatorService.estimateFees (request.quoted portfolioId)).perAssetFees =
      (plannedTrades request).map RebalancingTrade.charged := by
  rw [plannedTrades, List.map_map]
  apply List.map_congr_left
  intro asset _
  exact (charged_buildTrade _ asset).symm

theorem totalCost_charged (trades : List RebalancingTrade) :
    ((trades.map RebalancingTrade.charged).map AssetFee.fee).sum = totalCost trades := by
  induction trades with
  | nil => rfl
  | cons trade rest ih =>
    simp only [totalCost, List.map_cons, List.sum_cons] at ih ⊢
    rw [ih]
    rfl

theorem quoted_total (request : RebalancingPlanRequest) (portfolioId : String) :
    (FeeCalculatorService.estimateFees (request.quoted portfolioId)).totalFee =
      totalCost (plannedTrades request) := by
  rw [← totalCost_charged, ← quoted_fees request portfolioId]
  rfl

/-- A quote, a plan, a rehearsal and an execution of one request take the same strategy and charge
    the same fees and total; the rehearsal foretells the trades and the slippage events of the
    execution, which alone is recorded, once. -/
theorem quote_plan_rehearsal_execution_agree (service : RebalancingService)
    (request : RebalancingPlanRequest) (portfolioId : String)
    (plannedAt dryPlannedAt dryRunAt executionPlannedAt executedAt : Int) :
    ∃ quote planned rehearsal execution,
      service.price (.estimateFees (request.quoted portfolioId)) = (service, .estimated quote) ∧
      service.price (.plan request plannedAt) = (service, .planned planned) ∧
      service.price (.dryRun request dryPlannedAt dryRunAt) = (service, .simulated rehearsal) ∧
      service.price (.execute request executionPlannedAt executedAt) =
        (⟨service.history ++ [execution]⟩, .executed execution) ∧
      (quote.strategy = planned.recommendedStrategy ∧
        rehearsal.strategy = planned.recommendedStrategy ∧
        execution.strategy = planned.recommendedStrategy) ∧
      (quote.perAssetFees = planned.trades.map RebalancingTrade.charged ∧
        planned.trades.map RebalancingTrade.symbol = request.assets.map RebalancingAsset.symbol ∧
        rehearsal.trades = planned.trades ∧ execution.trades = planned.trades) ∧
      (quote.totalFee = planned.estimatedTotalFee ∧
        rehearsal.totalFees = planned.estimatedTotalFee ∧
        execution.totalFees = planned.estimatedTotalFee) ∧
      rehearsal.slippageEvents = execution.slippageEvents := by
  refine ⟨_, _, _, _, rfl, rfl, rfl, rfl, ⟨rfl, rfl, rfl⟩, ⟨?_, ?_, rfl, rfl⟩, ⟨?_, rfl, rfl⟩, rfl⟩
  · exact quoted_fees request portfolioId
  · rw [plan, plannedTrades, List.map_map]
    rfl
  · exact quoted_total request portfolioId

end AstraPort.Rebalancing
