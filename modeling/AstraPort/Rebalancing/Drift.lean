import AstraPort.Foundation.Host
import AstraPort.Foundation.InsertionMap
import AstraPort.Foundation.Machine

/- DriftCalculatorService: snapshots of how far a portfolio is from its target weights, the
   alerts they raise and the analysis of their history. Instants are epoch milliseconds. -/
namespace AstraPort.Rebalancing

structure AssetAllocation where
  symbol : String
  currentWeight : Rat
  targetWeight : Rat
  currentValue : Rat
  deriving DecidableEq

inductive DriftEvent where
  | warning
  | critical
  | resolved
  deriving DecidableEq

inductive AssetStatus where
  | onTarget
  | warning
  | critical
  deriving DecidableEq

inductive PortfolioStatus where
  | healthy
  | warning
  | critical
  deriving DecidableEq

inductive AlertSeverity where
  | warning
  | critical
  deriving DecidableEq

structure DriftConfigRequest where
  portfolioId : String
  warningThreshold : Rat
  criticalThreshold : Rat
  webhookUrl : Option String
  enabled : Bool
  deriving DecidableEq

/-- Partial<DriftConfigRequestDto>; the portfolio of an update is the one of its path. -/
structure DriftConfigUpdate where
  warningThreshold : Option Rat
  criticalThreshold : Option Rat
  webhookUrl : Option String
  enabled : Option Bool
  deriving DecidableEq

/-- The stored configuration, which is also what its endpoints answer with. -/
structure DriftConfig extends DriftConfigRequest where
  createdAt : Rat
  updatedAt : Rat
  deriving DecidableEq

structure DriftWebhookRegistration where
  portfolioId : String
  webhookUrl : String
  events : List DriftEvent
  secret : Option String
  deriving DecidableEq

structure WebhookSubscription extends DriftWebhookRegistration where
  webhookId : String
  registeredAt : Rat
  deriving DecidableEq

structure DriftWebhookResponse where
  webhookId : String
  portfolioId : String
  webhookUrl : String
  events : List DriftEvent
  registeredAt : Rat
  deriving DecidableEq

structure AssetDrift where
  symbol : String
  currentWeight : Rat
  targetWeight : Rat
  absoluteDrift : Rat
  relativeDrift : Rat
  driftValue : Rat
  status : AssetStatus
  deriving DecidableEq

structure DriftThresholds where
  warning : Rat
  critical : Rat
  deriving DecidableEq

structure DriftStatus where
  portfolioId : String
  timestamp : Rat
  overallDrift : Rat
  maxDrift : Rat
  status : PortfolioStatus
  assets : List AssetDrift
  thresholds : Option DriftThresholds
  rebalancingRecommended : Bool
  deriving DecidableEq

structure DriftAlert where
  alertId : String
  portfolioId : String
  severity : AlertSeverity
  affectedAsset : String
  currentDrift : Rat
  threshold : Rat
  message : String
  triggeredAt : Rat
  acknowledged : Bool
  acknowledgedAt : Option Rat
  acknowledgedBy : Option String
  deriving DecidableEq

structure DriftHistoryEntry where
  snapshotId : String
  portfolioId : String
  timestamp : Rat
  overallDrift : Rat
  maxDrift : Rat
  status : PortfolioStatus
  assetCount : Nat
  assetsInBreach : Nat
  deriving DecidableEq

structure DriftAnalysis where
  portfolioId : String
  analysisTimestamp : Rat
  analysisPeriodDays : Rat
  currentStatus : DriftStatus
  averageDrift : Rat
  peakDrift : Rat
  driftTrend : Rat
  mostDriftedAsset : Option String
  projectedBreachDays : Option Rat
  recommendation : String
  history : List DriftHistoryEntry
  deriving DecidableEq

/-- A call of sendWebhook; its outcome is only logged. -/
structure DriftNotification where
  webhookUrl : String
  event : DriftEvent
  alert : DriftAlert
  deriving DecidableEq

structure DriftCalculatorService where
  configs : InsertionMap String DriftConfig
  history : InsertionMap String (List DriftHistoryEntry)
  alerts : InsertionMap String DriftAlert
  webhooks : InsertionMap String (List WebhookSubscription)
  notifications : List DriftNotification

/-- What a snapshot takes from its host: the clock, its own id, and the id of the alert that
    each asset may raise. -/
structure SnapshotReadings where
  timestamp : Rat
  snapshotId : String
  alertId : Nat → String

inductive DriftCall where
  | calculateDrift (host : SnapshotReadings) (portfolioId : String) (assets : List AssetAllocation)
  | analysePortfolio (host : SnapshotReadings) (portfolioId : String)
      (assets : List AssetAllocation) (periodDays : Rat) (analysedAt : Rat)
  | createConfig (dto : DriftConfigRequest) (now : Rat)
  | updateConfig (portfolioId : String) (dto : DriftConfigUpdate) (now : Rat)
  | getHistory (portfolioId : String) (limit : Rat)
  | getActiveAlerts (portfolioId : Option String)
  | acknowledgeAlert (alertId : String) (acknowledgedBy : Option String) (now : Rat)
  | registerWebhook (webhookId : String) (dto : DriftWebhookRegistration) (now : Rat)

inductive DriftAnswer where
  | status (snapshot : DriftStatus)
  | analysed (analysis : DriftAnalysis)
  | configured (config : DriftConfig)
  | history (entries : List DriftHistoryEntry)
  | alerts (alerts : List DriftAlert)
  | acknowledged (alert : DriftAlert)
  | registered (response : DriftWebhookResponse)
  | thrown (error : Thrown)
  deriving DecidableEq

def defaultWarningThreshold : Rat := 5 / 100

def defaultCriticalThreshold : Rat := 1 / 10

/-- Snapshots kept for each portfolio. -/
def historyLimit : Int := 1000

def AlertSeverity.event : AlertSeverity → DriftEvent
  | .warning => .warning
  | .critical => .critical

def AssetStatus.severity : AssetStatus → Option AlertSeverity
  | .onTarget => none
  | .warning => some .warning
  | .critical => some .critical

namespace DriftCalculatorService

def initial : DriftCalculatorService where
  configs := InsertionMap.empty
  history := InsertionMap.empty
  alerts := InsertionMap.empty
  webhooks := InsertionMap.empty
  notifications := []

def warningThreshold (service : DriftCalculatorService) (portfolioId : String) : Rat :=
  ((service.configs.get portfolioId).map fun config => config.warningThreshold).getD
    defaultWarningThreshold

def criticalThreshold (service : DriftCalculatorService) (portfolioId : String) : Rat :=
  ((service.configs.get portfolioId).map fun config => config.criticalThreshold).getD
    defaultCriticalThreshold

def assetStatus (absoluteDrift warningThreshold criticalThreshold : Rat) : AssetStatus :=
  if criticalThreshold ≤ absoluteDrift then .critical
  else if warningThreshold ≤ absoluteDrift then .warning
  else .onTarget

def assetDrift (totalValue warningThreshold criticalThreshold : Rat) (asset : AssetAllocation) :
    AssetDrift :=
  let absoluteDrift := |asset.currentWeight - asset.targetWeight|
  { symbol := asset.symbol,
    currentWeight := asset.currentWeight,
    targetWeight := asset.targetWeight,
    absoluteDrift := toFixed 4 absoluteDrift,
    relativeDrift := if 0 < asset.targetWeight then toFixed 4 (absoluteDrift / asset.targetWeight)
      else 0,
    driftValue := toFixed 4 (absoluteDrift * totalValue),
    status := assetStatus absoluteDrift warningThreshold criticalThreshold }

/-- Math.max of an array that is not empty, and the given value for an empty one. -/
def maxOr (fallback : Rat) : List Rat → Rat
  | [] => fallback
  | first :: rest => rest.foldl max first

def averageOr (fallback : Rat) (values : List Rat) : Rat :=
  if values = [] then fallback else toFixed 4 (average values)

def portfolioStatus (maxDrift warningThreshold criticalThreshold : Rat) : PortfolioStatus :=
  if criticalThreshold ≤ maxDrift then .critical
  else if warningThreshold ≤ maxDrift then .warning
  else .healthy

def snapshotOf (service : DriftCalculatorService) (timestamp : Rat) (portfolioId : String)
    (assets : List AssetAllocation) : DriftStatus :=
  let warning := service.warningThreshold portfolioId
  let critical := service.criticalThreshold portfolioId
  let totalValue := (assets.map fun asset => asset.currentValue).sum
  let assetDrifts := assets.map (assetDrift totalValue warning critical)
  let driftValues := assetDrifts.map fun drift => drift.absoluteDrift
  let maxDrift := maxOr 0 driftValues
  let status := portfolioStatus maxDrift warning critical
  { portfolioId := portfolioId,
    timestamp := timestamp,
    overallDrift := averageOr 0 driftValues,
    maxDrift := toFixed 4 maxDrift,
    status := status,
    assets := assetDrifts,
    thresholds := (service.configs.get portfolioId).map fun _ => ⟨warning, critical⟩,
    rebalancingRecommended := decide (status ≠ .healthy) }

def historyEntry (snapshotId : String) (snapshot : DriftStatus) : DriftHistoryEntry where
  snapshotId := snapshotId
  portfolioId := snapshot.portfolioId
  timestamp := snapshot.timestamp
  overallDrift := snapshot.overallDrift
  maxDrift := snapshot.maxDrift
  status := snapshot.status
  assetCount := snapshot.assets.length
  assetsInBreach := snapshot.assets.countP fun asset => decide (asset.status ≠ .onTarget)

def snapshots (service : DriftCalculatorService) (portfolioId : String) : List DriftHistoryEntry :=
  (service.history.get portfolioId).getD []

def persistSnapshot (service : DriftCalculatorService) (snapshotId : String)
    (snapshot : DriftStatus) : DriftCalculatorService :=
  let entries := service.snapshots snapshot.portfolioId ++ [historyEntry snapshotId snapshot]
  { service with
    history := service.history.set snapshot.portfolioId (sliceFrom (-historyLimit) entries) }

def dispatchWebhookNotifications (service : DriftCalculatorService) (portfolioId : String)
    (event : DriftEvent) (alert : DriftAlert) : DriftCalculatorService :=
  let subscriptions := (service.webhooks.get portfolioId).getD []
  let interested := subscriptions.filter fun subscription => subscription.events.contains event
  { service with
    notifications := service.notifications ++
      interested.map fun subscription => ⟨subscription.webhookUrl, event, alert⟩ }

def alertMessage (symbol : String) (drift threshold : Rat) : String :=
  symbol ++ " has drifted " ++ fixedText 2 (drift * 100) ++ "% from its target (threshold: " ++
    fixedText 2 (threshold * 100) ++ "%)"

/-- An alert of the portfolio and asset with this severity is still open. -/
def isDuplicate (portfolioId symbol : String) (severity : AlertSeverity) (alert : DriftAlert) :
    Bool :=
  alert.portfolioId = portfolioId && alert.affectedAsset = symbol && alert.severity = severity &&
    !alert.acknowledged

def generateAlert (service : DriftCalculatorService) (alertId : String) (snapshot : DriftStatus)
    (warningThreshold criticalThreshold : Rat) (asset : AssetDrift) : DriftCalculatorService :=
  match asset.status.severity with
  | none => service
  | some severity =>
    let threshold := if severity = .critical then criticalThreshold else warningThreshold
    if service.alerts.values.any (isDuplicate snapshot.portfolioId asset.symbol severity) then
      service
    else
      let alert : DriftAlert :=
        { alertId := alertId,
          portfolioId := snapshot.portfolioId,
          severity := severity,
          affectedAsset := asset.symbol,
          currentDrift := asset.absoluteDrift,
          threshold := threshold,
          message := alertMessage asset.symbol asset.absoluteDrift threshold,
          triggeredAt := snapshot.timestamp,
          acknowledged := false,
          acknowledgedAt := none,
          acknowledgedBy := none }
      { service with alerts := service.alerts.set alertId alert }.dispatchWebhookNotifications
        snapshot.portfolioId severity.event alert

def generateAlerts (service : DriftCalculatorService) (alertId : Nat → String)
    (snapshot : DriftStatus) (warningThreshold criticalThreshold : Rat) : DriftCalculatorService :=
  snapshot.assets.zipIdx.foldl (fun service asset =>
    service.generateAlert (alertId asset.2) snapshot warningThreshold criticalThreshold asset.1)
    service

def calculateDrift (service : DriftCalculatorService) (host : SnapshotReadings)
    (portfolioId : String) (assets : List AssetAllocation) :
    DriftCalculatorService × DriftStatus :=
  let snapshot := service.snapshotOf host.timestamp portfolioId assets
  ((service.persistSnapshot host.snapshotId snapshot).generateAlerts host.alertId snapshot
    (service.warningThreshold portfolioId) (service.criticalThreshold portfolioId), snapshot)

def createConfig (service : DriftCalculatorService) (dto : DriftConfigRequest) (now : Rat) :
    DriftCalculatorService × DriftConfig :=
  let entry : DriftConfig := { dto with createdAt := now, updatedAt := now }
  ({ service with configs := service.configs.set dto.portfolioId entry }, entry)

def updateConfig (service : DriftCalculatorService) (portfolioId : String)
    (dto : DriftConfigUpdate) (now : Rat) : Except Thrown (DriftCalculatorService × DriftConfig) :=
  match service.configs.get portfolioId with
  | none => .error (.notFound ("Drift config not found for portfolio " ++ portfolioId))
  | some existing =>
    let updated : DriftConfig :=
      { existing with
        warningThreshold := dto.warningThreshold.getD existing.warningThreshold,
        criticalThreshold := dto.criticalThreshold.getD existing.criticalThreshold,
        webhookUrl := dto.webhookUrl.or existing.webhookUrl,
        enabled := dto.enabled.getD existing.enabled,
        updatedAt := now }
    .ok ({ service with configs := service.configs.set portfolioId updated }, updated)

def getHistory (service : DriftCalculatorService) (portfolioId : String) (limit : Rat) :
    List DriftHistoryEntry :=
  (sliceFrom (truncate (-limit)) (service.snapshots portfolioId)).reverse

def getActiveAlerts (service : DriftCalculatorService) (portfolioId : Option String) :
    List DriftAlert :=
  let open_alerts := service.alerts.values.filter fun alert => !alert.acknowledged
  match portfolioId with
  | none => open_alerts
  | some portfolioId =>
    if portfolioId = "" then open_alerts
    else open_alerts.filter fun alert => alert.portfolioId = portfolioId

def acknowledgeAlert (service : DriftCalculatorService) (alertId : String)
    (acknowledgedBy : Option String) (now : Rat) :
    Except Thrown (DriftCalculatorService × DriftAlert) :=
  match service.alerts.get alertId with
  | none => .error (.notFound ("Alert " ++ alertId ++ " not found"))
  | some alert =>
    let acknowledged : DriftAlert :=
      { alert with
        acknowledged := true,
        acknowledgedAt := some now,
        acknowledgedBy := some (acknowledgedBy.getD "system") }
    .ok ({ service with alerts := service.alerts.set alertId acknowledged }, acknowledged)

/-- The history comes newest first. -/
def calculateTrend (values : List Rat) : Rat :=
  if values.length < 4 then 0
  else
    let half := values.length / 2
    average (values.drop half) - average (values.take half)

def projectBreachDays (currentDrift trendPerSnapshot criticalThreshold : Rat) : Option Rat :=
  if criticalThreshold ≤ currentDrift then none
  else if trendPerSnapshot ≤ 0 then none
  else
    let remaining := criticalThreshold - currentDrift
    let snapshotsToBreachEstimate : Rat := ⌈remaining / trendPerSnapshot⌉
    some (max 1 ⌊snapshotsToBreachEstimate / 24 + 1 / 2⌋)

def buildRecommendation (status : DriftStatus) (trend : Rat) (projectedBreachDays : Option Rat) :
    String :=
  match status.status, projectedBreachDays with
  | .critical, _ => "Immediate rebalancing required — " ++
      "one or more assets have exceeded the critical drift threshold."
  | .warning, some days => "Rebalancing recommended soon — " ++
      "at the current drift rate, critical threshold may be reached in ~" ++ toString days.num ++
      " day(s)."
  | .warning, none =>
    "Rebalancing recommended — portfolio drift is approaching critical levels."
  | .healthy, _ =>
    if 5 / 1000 < trend then
      "Portfolio is healthy but drift is increasing. " ++
        "Monitor closely and consider pre-emptive rebalancing."
    else "Portfolio drift is within acceptable bounds. No action required."

/-- The asset with the largest drift, the first of several. -/
def mostDrifted : List AssetDrift → Option AssetDrift
  | [] => none
  | first :: rest => some (rest.foldl (fun previous current =>
      if previous.absoluteDrift < current.absoluteDrift then current else previous) first)

def analysePortfolio (service : DriftCalculatorService) (host : SnapshotReadings)
    (portfolioId : String) (assets : List AssetAllocation) (periodDays analysedAt : Rat) :
    DriftCalculatorService × DriftAnalysis :=
  let calculated := service.calculateDrift host portfolioId assets
  let currentStatus := calculated.2
  let history := calculated.1.getHistory portfolioId (periodDays * 24)
  let driftValues := history.map fun entry => entry.overallDrift
  let driftTrend := calculateTrend driftValues
  let projectedBreachDays := projectBreachDays currentStatus.overallDrift driftTrend
    (calculated.1.criticalThreshold portfolioId)
  (calculated.1,
    { portfolioId := portfolioId,
      analysisTimestamp := analysedAt,
      analysisPeriodDays := periodDays,
      currentStatus := currentStatus,
      averageDrift := averageOr currentStatus.overallDrift driftValues,
      peakDrift := toFixed 4 (maxOr currentStatus.maxDrift driftValues),
      driftTrend := toFixed 4 driftTrend,
      mostDriftedAsset := (mostDrifted currentStatus.assets).map fun asset => asset.symbol,
      projectedBreachDays := projectedBreachDays,
      recommendation := buildRecommendation currentStatus driftTrend projectedBreachDays,
      history := history })

def registerWebhook (service : DriftCalculatorService) (webhookId : String)
    (dto : DriftWebhookRegistration) (now : Rat) :
    DriftCalculatorService × DriftWebhookResponse :=
  let subscription : WebhookSubscription :=
    { dto with webhookId := webhookId, registeredAt := now }
  let existing := (service.webhooks.get dto.portfolioId).getD []
  ({ service with webhooks := service.webhooks.set dto.portfolioId (existing ++ [subscription]) },
    ⟨webhookId, dto.portfolioId, dto.webhookUrl, dto.events, now⟩)

def step (service : DriftCalculatorService) :
    DriftCall → Option (DriftCalculatorService × DriftAnswer)
  | .calculateDrift host portfolioId assets =>
    let calculated := service.calculateDrift host portfolioId assets
    some (calculated.1, .status calculated.2)
  | .analysePortfolio host portfolioId assets periodDays analysedAt =>
    let analysed := service.analysePortfolio host portfolioId assets periodDays analysedAt
    some (analysed.1, .analysed analysed.2)
  | .createConfig dto now =>
    let created := service.createConfig dto now
    some (created.1, .configured created.2)
  | .updateConfig portfolioId dto now =>
    match service.updateConfig portfolioId dto now with
    | .ok updated => some (updated.1, .configured updated.2)
    | .error thrown => some (service, .thrown thrown)
  | .getHistory portfolioId limit => some (service, .history (service.getHistory portfolioId limit))
  | .getActiveAlerts portfolioId => some (service, .alerts (service.getActiveAlerts portfolioId))
  | .acknowledgeAlert alertId acknowledgedBy now =>
    match service.acknowledgeAlert alertId acknowledgedBy now with
    | .ok acknowledged => some (acknowledged.1, .acknowledged acknowledged.2)
    | .error thrown => some (service, .thrown thrown)
  | .registerWebhook webhookId dto now =>
    let registered := service.registerWebhook webhookId dto now
    some (registered.1, .registered registered.2)

def machine : Machine DriftCalculatorService DriftCall DriftAnswer := ⟨initial, step⟩

end DriftCalculatorService
end AstraPort.Rebalancing
