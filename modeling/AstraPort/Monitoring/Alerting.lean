import Mathlib.Data.Rat.Floor
import AstraPort.Foundation.InsertionMap
import AstraPort.Foundation.Machine

/- AlertingService: five rules, evaluated every ten seconds, and the history of the alerts they
   fired. Instants are epoch milliseconds. -/
namespace AstraPort.Monitoring

/-- A number as a counter or a summary reports it. -/
inductive Reading where
  | notANumber
  | negativeInfinity
  | finite (value : Rat)
  | infinity
  deriving DecidableEq

namespace Reading

/-- How a reading compares with a finite number; nothing does with NaN. -/
def against (bound : Rat) : Reading → Option Ordering
  | .notANumber => none
  | .negativeInfinity => some .lt
  | .finite value => some (compare value bound)
  | .infinity => some .gt

def above (reading : Reading) (bound : Rat) : Bool := reading.against bound = some .gt

def below (reading : Reading) (bound : Rat) : Bool := reading.against bound = some .lt

def atMost (reading : Reading) (bound : Rat) : Bool :=
  reading.below bound || reading.against bound = some .eq

def atLeast (reading : Reading) (bound : Rat) : Bool :=
  reading.above bound || reading.against bound = some .eq

end Reading

inductive RuleState where
  | ok
  | firing
  deriving DecidableEq

structure AlertRule where
  id : String
  threshold : Rat
  enabled : Bool
  state : RuleState
  lastEvaluatedAt : Option Int
  lastFiredAt : Option Int
  deriving DecidableEq

structure FiredAlert where
  ruleId : String
  firedAt : Int
  value : Reading
  threshold : Rat
  resolvedAt : Option Int
  deriving DecidableEq

structure AlertingService where
  rules : InsertionMap String AlertRule
  firedAlertsHistory : List FiredAlert

/-- What one evaluation reads: the summary of requests, the heap in bytes, the status of the
    database component if there is one, the failed executions, and the clock, once for the
    evaluation and once for what each rule does. -/
structure Measurements where
  totalRequests : Reading
  errorRatePercentage : Reading
  latencyP95 : Reading
  heapUsed : Nat
  heapTotal : Nat
  databaseStatus : Option String
  failedCount : Reading
  evaluatedAt : Int
  actedAt : String → Int

/-- The block of one rule in evaluateRules: the value it reports and when it fires; where it does
    not, it is resolved if it is firing and clear. -/
structure Evaluation where
  ruleId : String
  value : Reading
  fires : Rat → Bool
  clear : Rat → Bool

namespace Measurements

def heapUsedPercent (measured : Measurements) : Reading :=
  let total := if measured.heapTotal = 0 then 1 else measured.heapTotal
  .finite ⌊(measured.heapUsed / total * 100 : Rat) + 1 / 2⌋

def highErrorRate (measured : Measurements) : Evaluation where
  ruleId := "high-error-rate"
  value := measured.errorRatePercentage
  fires threshold := measured.totalRequests.atLeast 10 && measured.errorRatePercentage.above threshold
  clear threshold := measured.errorRatePercentage.atMost threshold

def highLatencyP95 (measured : Measurements) : Evaluation where
  ruleId := "high-latency-p95"
  value := measured.latencyP95
  fires := measured.latencyP95.above
  clear := measured.latencyP95.atMost

def highMemoryUsage (measured : Measurements) : Evaluation where
  ruleId := "high-memory-usage"
  value := measured.heapUsedPercent
  fires := measured.heapUsedPercent.above
  clear := measured.heapUsedPercent.atMost

def databaseDisconnected (measured : Measurements) : Evaluation where
  ruleId := "database-disconnected"
  value := .finite 0
  fires _ := measured.databaseStatus = some "down"
  clear _ := true

def rebalancingFailureSpike (measured : Measurements) : Evaluation where
  ruleId := "rebalancing-failure-spike"
  value := measured.failedCount
  fires := measured.failedCount.atLeast
  clear := measured.failedCount.below

def evaluations (measured : Measurements) : List Evaluation :=
  [measured.highErrorRate, measured.highLatencyP95, measured.highMemoryUsage,
   measured.databaseDisconnected, measured.rebalancingFailureSpike]

end Measurements

namespace AlertingService

def maxAlertHistory : Nat := 500

def defaultRules : List (String × Rat) :=
  [("high-error-rate", 5), ("high-latency-p95", 1000), ("high-memory-usage", 85),
   ("database-disconnected", 0), ("rebalancing-failure-spike", 3)]

def initial : AlertingService where
  rules := defaultRules.foldl (fun rules rule =>
    rules.set rule.1 ⟨rule.1, rule.2, true, .ok, none, none⟩) InsertionMap.empty
  firedAlertsHistory := []

/-- A new alert comes first, and the last one goes when there are too many. -/
def unshift (alert : FiredAlert) (history : List FiredAlert) : List FiredAlert :=
  if maxAlertHistory < (alert :: history).length then (alert :: history).dropLast
  else alert :: history

def fireAlert (service : AlertingService) (rule : AlertRule) (value : Reading) (now : Int) :
    AlertingService where
  rules := service.rules.set rule.id { rule with state := .firing, lastFiredAt := some now }
  firedAlertsHistory := unshift ⟨rule.id, now, value, rule.threshold, none⟩
    service.firedAlertsHistory

def isOpen (ruleId : String) (alert : FiredAlert) : Bool :=
  alert.ruleId = ruleId ∧ alert.resolvedAt = none

/-- The newest open alert of a rule gets its time; there may be none. -/
def resolveNewest (ruleId : String) (now : Int) : List FiredAlert → List FiredAlert
  | [] => []
  | alert :: rest =>
    if isOpen ruleId alert then { alert with resolvedAt := some now } :: rest
    else alert :: resolveNewest ruleId now rest

def resolveAlert (service : AlertingService) (rule : AlertRule) (now : Int) : AlertingService where
  rules := service.rules.set rule.id { rule with state := .ok }
  firedAlertsHistory := resolveNewest rule.id now service.firedAlertsHistory

def evaluate (measured : Measurements) (service : AlertingService) (evaluation : Evaluation) :
    AlertingService :=
  match service.rules.get evaluation.ruleId with
  | none => service
  | some rule =>
    if rule.enabled then
      let rule := { rule with lastEvaluatedAt := some measured.evaluatedAt }
      let now := measured.actedAt rule.id
      if evaluation.fires rule.threshold then service.fireAlert rule evaluation.value now
      else if rule.state = .firing ∧ evaluation.clear rule.threshold then
        service.resolveAlert rule now
      else { service with rules := service.rules.set rule.id rule }
    else service

/-- One run of the rules; when the health check rejects there is none. -/
def evaluateRules (service : AlertingService) (measured : Option Measurements) : AlertingService :=
  match measured with
  | none => service
  | some measured => measured.evaluations.foldl (evaluate measured) service

end AlertingService

def alertingMachine : Machine AlertingService (Option Measurements) Unit :=
  ⟨AlertingService.initial, fun service measured => some (service.evaluateRules measured, ())⟩

end AstraPort.Monitoring
