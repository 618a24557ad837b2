import Mathlib
import AstraPort.Foundation.Machine
import AstraPort.Rebalancing.Planner

/- RebalancingService: executions, dry runs and the lookup of executed trades. Executions are
   told apart by the millisecond of their plan, and the lookup takes the first that matches. -/
namespace AstraPort.Rebalancing

inductive ExecutionStatus where
  | completed
  | simulated
  deriving DecidableEq

structure TradeExecutionResult where
  rebalanceId : String
  portfolioId : String
  strategy : String
  status : ExecutionStatus
  trades : List RebalancingTrade
  totalFees : Rat
  slippageEvents : Nat
  executedAt : Int
  deriving DecidableEq

structure RebalancingService where
  history : List TradeExecutionResult
  deriving DecidableEq

/-- What execute and dryRun make of a plan; the clock is read again at the end. -/
def resultOf (request : RebalancingPlanRequest) (status : ExecutionStatus)
    (plannedAt executedAt : Int) : TradeExecutionResult :=
  let plan := plan request plannedAt
  { rebalanceId := plan.rebalanceId
    portfolioId := request.portfolioId
    strategy := plan.recommendedStrategy
    status := status
    trades := plan.trades
    totalFees := totalCost plan.trades
    slippageEvents := plan.trades.countP fun trade => request.tolerance < trade.estimatedSlippage
    executedAt := executedAt }

namespace RebalancingService

def execute (service : RebalancingService) (request : RebalancingPlanRequest)
    (plannedAt executedAt : Int) : RebalancingService × TradeExecutionResult :=
  let result := resultOf request .completed plannedAt executedAt
  (⟨service.history ++ [result]⟩, result)

def dryRun (request : RebalancingPlanRequest) (plannedAt executedAt : Int) :
    TradeExecutionResult := resultOf request .simulated plannedAt executedAt

def getTrades (service : RebalancingService) (rebalanceId : String) : List RebalancingTrade :=
  match service.history.find? fun entry => entry.rebalanceId = rebalanceId with
  | some found => found.trades
  | none => []

def getExecutionLog (service : RebalancingService) (portfolioId : String) :
    List TradeExecutionResult := service.history.filter fun entry => entry.portfolioId = portfolioId

end RebalancingService

inductive RebalancingCall where
  | execute (request : RebalancingPlanRequest) (plannedAt executedAt : Int)
  | dryRun (request : RebalancingPlanRequest) (plannedAt executedAt : Int)
  deriving DecidableEq

inductive RebalancingAnswer where
  | executed (result : TradeExecutionResult)
  | simulated (result : TradeExecutionResult)
  deriving DecidableEq

def rebalancingStep (service : RebalancingService) :
    RebalancingCall → Option (RebalancingService × RebalancingAnswer)
  | .execute request plannedAt executedAt =>
    let (service, result) := service.execute request plannedAt executedAt
    some (service, .executed result)
  | .dryRun request plannedAt executedAt =>
    some (service, .simulated (RebalancingService.dryRun request plannedAt executedAt))

def rebalancingMachine : Machine RebalancingService RebalancingCall RebalancingAnswer :=
  ⟨⟨[]⟩, rebalancingStep⟩

/-- The results that executions of the history returned. -/
def executed (past : List (RebalancingCall × RebalancingAnswer)) : List TradeExecutionResult :=
  past.filterMap fun e => match e.2 with
    | .executed result => some result
    | .simulated _ => none

/-- The calls that were executions: when each read the clock for its plan, and the trades its
    request calls for. -/
def executions (past : List (RebalancingCall × RebalancingAnswer)) :
    List (Int × List RebalancingTrade) :=
  past.filterMap fun e => match e.1 with
    | .execute request plannedAt _ => some (plannedAt, plannedTrades request)
    | .dryRun _ _ _ => none

theorem rebalanceIdAt_inj {a b : Int} : rebalanceIdAt a = rebalanceIdAt b ↔ a = b := by
  constructor
  · intro same
    exact Int.repr_injective (String.append_right_inj _ |>.mp same)
  · rintro rfl
    rfl

/-- The history of the service, and the trades and ids of what it returned. -/
structure Recorded (past : List (RebalancingCall × RebalancingAnswer))
    (service : RebalancingService) : Prop where
  kept : service.history = (executed past).reverse
  planned : (executed past).map (fun result => (result.rebalanceId, result.trades)) =
    (executions past).map fun execution => (rebalanceIdAt execution.1, execution.2)

theorem recorded_run {past : List (RebalancingCall × RebalancingAnswer)}
    {service : RebalancingService} (run : rebalancingMachine.Run Machine.anything past service) :
    Recorded past service := by
  refine run.invariant Recorded ⟨rfl, rfl⟩ ?_
  intro past service call after answer _ known _ moved
  cases call with
  | execute request plannedAt executedAt =>
    simp only [rebalancingMachine, rebalancingStep, Option.some.injEq, Prod.mk.injEq] at moved
    obtain ⟨rfl, rfl⟩ := moved
    constructor
    · simp [RebalancingService.execute, executed, known.kept]
    · have before := known.planned
      simp only [executed, executions] at before
      simp [executed, executions, RebalancingService.execute, resultOf, plan, before]
  | dryRun request plannedAt executedAt =>
    simp only [rebalancingMachine, rebalancingStep, Option.some.injEq, Prod.mk.injEq] at moved
    obtain ⟨rfl, rfl⟩ := moved
    exact ⟨known.kept, known.planned⟩

/- Looking up an id finds the trades of some entry under that id. -/
theorem getTrades_found {service : RebalancingService} {result : TradeExecutionResult}
    (member : result ∈ service.history) :
    ∃ entry ∈ service.history, entry.rebalanceId = result.rebalanceId ∧
      service.getTrades result.rebalanceId = entry.trades := by
  have matched : (service.history.find? fun entry =>
      entry.rebalanceId = result.rebalanceId).isSome := by
    rw [List.find?_isSome]
    exact ⟨result, member, by simp⟩
  obtain ⟨entry, found⟩ := Option.isSome_iff_exists.mp matched
  refine ⟨entry, List.mem_of_find?_eq_some found, ?_, ?_⟩
  · simpa using List.find?_some found
  · rw [RebalancingService.getTrades, found]

/-- Every execution of a run can be looked up by its id, and gives its own trades, exactly when
    executions planned in one millisecond call for the same trades. -/
theorem each_execution_found_iff {past : List (RebalancingCall × RebalancingAnswer)}
    {service : RebalancingService} (run : rebalancingMachine.Run Machine.anything past service) :
    (∀ result ∈ executed past, service.getTrades result.rebalanceId = result.trades) ↔
      ∀ a ∈ executions past, ∀ b ∈ executions past, a.1 = b.1 → a.2 = b.2 := by
  obtain ⟨kept, planned⟩ := recorded_run run
  have in_history {result : TradeExecutionResult} :
      result ∈ service.history ↔ result ∈ executed past := by rw [kept, List.mem_reverse]
  have result_of {execution : Int × List RebalancingTrade} (member : execution ∈ executions past) :
      ∃ result ∈ executed past, result.rebalanceId = rebalanceIdAt execution.1 ∧
        result.trades = execution.2 := by
    have listed := List.mem_map_of_mem (f := fun execution : Int × List RebalancingTrade =>
      (rebalanceIdAt execution.1, execution.2)) member
    rw [← planned] at listed
    obtain ⟨result, found, same⟩ := List.mem_map.mp listed
    exact ⟨result, found, Prod.mk.inj same⟩
  have execution_of {result : TradeExecutionResult} (member : result ∈ executed past) :
      ∃ execution ∈ executions past, result.rebalanceId = rebalanceIdAt execution.1 ∧
        result.trades = execution.2 := by
    have listed := List.mem_map_of_mem (f := fun result : TradeExecutionResult =>
      (result.rebalanceId, result.trades)) member
    rw [planned] at listed
    obtain ⟨execution, found, same⟩ := List.mem_map.mp listed
    exact ⟨execution, found, (Prod.mk.inj same).1.symm, (Prod.mk.inj same).2.symm⟩
  constructor
  · intro found a first b second same
    obtain ⟨one, oneReturned, oneId, oneTrades⟩ := result_of first
    obtain ⟨other, otherReturned, otherId, otherTrades⟩ := result_of second
    have ids : one.rebalanceId = other.rebalanceId := by rw [oneId, otherId, same]
    rw [← oneTrades, ← otherTrades, ← found one oneReturned, ← found other otherReturned, ids]
  · intro same result returned
    obtain ⟨entry, kept, id, trades⟩ := getTrades_found (in_history.mpr returned)
    obtain ⟨a, first, entryId, entryTrades⟩ := execution_of (in_history.mp kept)
    obtain ⟨b, second, resultId, resultTrades⟩ := execution_of returned
    have instant : a.1 = b.1 := rebalanceIdAt_inj.mp (by rw [← entryId, ← resultId, id])
    rw [trades, entryTrades, resultTrades, same a first b second instant]

def buyBitcoin : RebalancingPlanRequest :=
  ⟨"portfolio-1", "min-cost", [⟨"BTC", 1, 2, 4, 1 / 100⟩], 1 / 100⟩

def sellEther : RebalancingPlanRequest :=
  ⟨"portfolio-2", "balanced", [⟨"ETH", 9, 6, 3, 2 / 100⟩], 1 / 100⟩

/-- Two executions a millisecond apart, with a dry run in between. -/
theorem each_execution_found_apart :
    ∃ past service, past.reverse.map Prod.fst = [.execute buyBitcoin 1000 1000,
        .dryRun sellEther 1000 1000, .execute sellEther 1001 1001] ∧
      rebalancingMachine.Run Machine.anything past service ∧
      ∀ result ∈ executed past, service.getTrades result.rebalanceId = result.trades := by
  have first : rebalancingMachine.Run Machine.anything _ _ :=
    Machine.Run.start.next (i := .execute buyBitcoin 1000 1000) trivial rfl
  have second := first.next (i := .dryRun sellEther 1000 1000) trivial rfl
  have third := second.next (i := .execute sellEther 1001 1001) trivial rfl
  exact ⟨_, _, rfl, third, (each_execution_found_iff third).mpr (by decide +kernel)⟩

/-- Two executions in one millisecond: the second answers to the id of the first. -/
theorem executions_share_an_id :
    ¬ ∀ past service, rebalancingMachine.Run Machine.anything past service →
      ∀ result ∈ executed past, service.getTrades result.rebalanceId = result.trades := by
  intro always
  have first : rebalancingMachine.Run Machine.anything _ _ :=
    Machine.Run.start.next (i := .execute buyBitcoin 1000 1000) trivial rfl
  have second := first.next (i := .execute sellEther 1000 1000) trivial rfl
  exact absurd (always _ _ second) (by decide +kernel)

end AstraPort.Rebalancing
