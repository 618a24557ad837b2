import AstraPort.Rebalancing.OpenAlerts

/- What a drift configuration decides about alerting. The thresholds reach the alerts, the enabled
   flag and the webhookUrl do not: alerts go to the registered webhooks, whatever these say. -/
namespace AstraPort.Rebalancing.DriftCalculatorService

/-- A portfolio is monitored unless its configuration says that it is not. -/
def monitored (service : DriftCalculatorService) (portfolioId : String) : Bool :=
  ((service.configs.get portfolioId).map fun config => config.enabled).getD true

def configUrl (service : DriftCalculatorService) (portfolioId : String) : Option String :=
  (service.configs.get portfolioId).bind fun config => config.webhookUrl

/-- All notifications an alert is to cause: those of the registered webhooks, and one to the
    webhookUrl of the configuration. -/
def expectedNotifications (service : DriftCalculatorService) (alert : DriftAlert) :
    List DriftNotification :=
  service.notificationsOf alert ++ (service.configUrl alert.portfolioId).toList.map fun url =>
    ⟨url, alert.severity.event, alert⟩

/-- A snapshot obeys the configuration of its portfolio: without monitoring it creates no alert
    and dispatches nothing, and otherwise it notifies once whoever is to hear of a new alert. -/
def ObeysConfig (service : DriftCalculatorService) (call : DriftCall) (_ : DriftAnswer)
    (after : DriftCalculatorService) : Prop :=
  ∀ host portfolioId assets, call.takes = some (host, portfolioId, assets) →
    ∃ created dispatched, after.alerts.values = service.alerts.values ++ created ∧
      after.notifications = service.notifications ++ dispatched ∧
      (service.monitored portfolioId = false → created = [] ∧ dispatched = []) ∧
      (service.monitored portfolioId = true →
        dispatched.Perm (created.flatMap service.expectedNotifications))

/-- An asset is beyond a threshold and has no open alert for it. -/
def AlertDue (service : DriftCalculatorService) (portfolioId : String)
    (assets : List AssetAllocation) : Prop :=
  ∃ asset ∈ assets, ∃ severity,
    (assetStatus (rawDrift asset) (service.warningThreshold portfolioId)
      (service.criticalThreshold portfolioId)).severity = some severity ∧
    ¬ service.HasOpen portfolioId asset.symbol severity

/-- The configuration asks for nothing that the code leaves out, or no alert is due. -/
def NothingIgnored (service : DriftCalculatorService) (call : DriftCall) : Prop :=
  ∀ host portfolioId assets, call.takes = some (host, portfolioId, assets) →
    (service.monitored portfolioId = true ∧ service.configUrl portfolioId = none) ∨
      ¬ service.AlertDue portfolioId assets

section Loop
variable {portfolioId : String} {service after : DriftCalculatorService} {assets : List AssetDrift}
  {created : List DriftAlert}

theorem Raising.notifications (raising : Raising portfolioId service assets created after) :
    after.notifications = service.notifications ++ created.flatMap service.notificationsOf := by
  induction raising with
  | done service => exact (List.append_nil _).symm
  | quiet covered tail ih => exact ih
  | raised breach about uncovered fresh tail ih =>
    rw [ih, List.flatMap_cons, ← List.append_assoc]
    rfl

theorem Raising.portfolio (raising : Raising portfolioId service assets created after) :
    ∀ alert ∈ created, alert.portfolioId = portfolioId := by
  induction raising with
  | done service => simp
  | quiet covered tail ih => exact ih
  | raised breach about uncovered fresh tail ih =>
    intro alert member
    rcases List.mem_cons.mp member with rfl | later
    · exact (isDuplicate_iff.mp about).1
    · exact ih alert later

/- Nothing is raised when every breach has its open alert before the loop. -/
theorem Raising.none_iff (raising : Raising portfolioId service assets created after) :
    created = [] ↔ ∀ asset ∈ assets, ∀ severity, asset.status.severity = some severity →
      service.HasOpen portfolioId asset.symbol severity := by
  induction raising with
  | done service => simp
  | quiet covered tail ih =>
    rw [ih, List.forall_mem_cons]
    exact ⟨fun later => ⟨covered, later⟩, And.right⟩
  | raised breach about uncovered fresh tail ih =>
    constructor
    · intro impossible
      exact absurd impossible (List.cons_ne_nil _ _)
    · intro all
      exact absurd (all _ List.mem_cons_self _ breach) uncovered

end Loop

section Snapshot
variable {service : DriftCalculatorService} {host : SnapshotReadings} {portfolioId : String}
  {assets : List AssetAllocation}

theorem alertDue_iff : service.AlertDue portfolioId assets ↔
    ¬ ∀ asset ∈ (service.calculateDrift host portfolioId assets).2.assets, ∀ severity,
      asset.status.severity = some severity →
        service.HasOpen portfolioId asset.symbol severity := by
  have judged : (service.calculateDrift host portfolioId assets).2.assets =
      assets.map (assetDrift (assets.map fun asset => asset.currentValue).sum
        (service.warningThreshold portfolioId) (service.criticalThreshold portfolioId)) := rfl
  rw [judged, List.forall_mem_map]
  unfold AlertDue
  push Not
  rfl

/- What a snapshot adds to the alerts and to the notifications. -/
theorem calculateDrift_adds (portfolioId : String)
    (fresh : FreshIds service host.alertId 0 assets.length) :
    ∃ created, (service.calculateDrift host portfolioId assets).1.alerts.values =
        service.alerts.values ++ created ∧
      (service.calculateDrift host portfolioId assets).1.notifications =
        service.notifications ++ created.flatMap service.notificationsOf ∧
      (∀ alert ∈ created, alert.portfolioId = portfolioId) ∧
      (created = [] ↔ ¬ service.AlertDue portfolioId assets) := by
  obtain ⟨created, raising⟩ := calculateDrift_raising portfolioId fresh
  refine ⟨created, raising.values, raising.notifications, raising.portfolio, ?_⟩
  exact raising.none_iff.trans (iff_not_comm.mp alertDue_iff)

end Snapshot

section Expected
variable {service : DriftCalculatorService} {portfolioId : String} {created : List DriftAlert}

theorem expected_of_no_url (about : ∀ alert ∈ created, alert.portfolioId = portfolioId)
    (no_url : service.configUrl portfolioId = none) :
    created.flatMap service.expectedNotifications =
      created.flatMap service.notificationsOf := by
  apply List.flatMap_congr
  intro alert member
  rw [expectedNotifications, about alert member, no_url]
  exact List.append_nil _

/- A webhookUrl makes the expected notifications more than those dispatched. -/
theorem expected_of_url {url : String}
    (about : ∀ alert ∈ created, alert.portfolioId = portfolioId)
    (named : service.configUrl portfolioId = some url) :
    (created.flatMap service.expectedNotifications).length =
      (created.flatMap service.notificationsOf).length + created.length := by
  induction created with
  | nil => rfl
  | cons alert rest ih =>
    have later := ih fun other member => about other (List.mem_cons_of_mem alert member)
    have here := about alert List.mem_cons_self
    simp only [List.flatMap_cons, List.length_append, List.length_cons, later,
      expectedNotifications, here, named, Option.toList_some, List.map_cons, List.map_nil,
      List.length_nil]
    omega

end Expected

section Configured
variable {service : DriftCalculatorService} {host : SnapshotReadings} {portfolioId : String}
  {assets : List AssetAllocation} {call : DriftCall} {answer : DriftAnswer}

/- What a snapshot has to do under its configuration, once its additions are known. -/
theorem obeysConfig_snapshot (taken : call.takes = some (host, portfolioId, assets))
    {after : DriftCalculatorService} {created : List DriftAlert}
    {dispatched : List DriftNotification}
    (alerts : after.alerts.values = service.alerts.values ++ created)
    (notifications : after.notifications = service.notifications ++ dispatched) :
    ObeysConfig service call answer after ↔
      (service.monitored portfolioId = false → created = [] ∧ dispatched = []) ∧
      (service.monitored portfolioId = true →
        dispatched.Perm (created.flatMap service.expectedNotifications)) := by
  constructor
  · intro obeys
    obtain ⟨others, sent, same_alerts, same_notifications, obeyed⟩ := obeys _ _ _ taken
    rw [List.append_cancel_left (alerts.symm.trans same_alerts),
      List.append_cancel_left (notifications.symm.trans same_notifications)]
    exact obeyed
  · intro obeyed host' portfolioId' assets' same
    rw [taken] at same
    obtain ⟨rfl, rfl, rfl⟩ := Option.some.inj same
    exact ⟨created, dispatched, alerts, notifications, obeyed⟩

/- A snapshot goes wrong when an alert is due and the configuration is ignored. -/
theorem snapshot_obeys_iff (taken : call.takes = some (host, portfolioId, assets))
    (fresh : FreshIds service host.alertId 0 assets.length) :
    ObeysConfig service call answer (service.calculateDrift host portfolioId assets).1 ↔
      (service.monitored portfolioId = true ∧ service.configUrl portfolioId = none) ∨
        ¬ service.AlertDue portfolioId assets := by
  obtain ⟨created, alerts, notifications, about, none_due⟩ := calculateDrift_adds portfolioId fresh
  rw [obeysConfig_snapshot taken alerts notifications, ← none_due]
  constructor
  · intro obeyed
    cases enabled : service.monitored portfolioId with
    | false => exact Or.inr (obeyed.1 enabled).1
    | true =>
      cases named : service.configUrl portfolioId with
      | none => exact Or.inl ⟨rfl, rfl⟩
      | some url =>
        have lengths := (obeyed.2 enabled).length_eq
        rw [expected_of_url about named] at lengths
        exact Or.inr (List.length_eq_zero_iff.mp (by omega))
  · intro condition
    rcases condition with ⟨enabled, no_url⟩ | none_created
    · rw [expected_of_no_url about no_url]
      exact ⟨fun disabled => by simp [enabled] at disabled, fun _ => List.Perm.refl _⟩
    · rw [none_created]
      exact ⟨fun _ => ⟨rfl, rfl⟩, fun _ => List.Perm.refl _⟩

/- Calls that take no snapshot are not bound by the configuration. -/
theorem untaken_obeys {after : DriftCalculatorService} (untaken : call.takes = none) :
    ObeysConfig service call answer after ↔ NothingIgnored service call := by
  simp [ObeysConfig, NothingIgnored, untaken]

end Configured

/-- Every snapshot of a run obeys the configuration of its portfolio exactly when none of them
finds an alert due for a portfolio that is not monitored or whose configuration has a webhookUrl. -/
theorem configuration_obeyed_iff (past : List (DriftCall × DriftAnswer)) :
    machine.Each FreshAlerts ObeysConfig past ↔
      machine.Each FreshAlerts (fun before call _ _ => NothingIgnored before call) past := by
  apply Machine.each_congr
  intro earlier before call after answer _ fresh moved
  cases step_moves moved with
  | snapshot taken shown =>
    rw [snapshot_obeys_iff taken (fresh _ _ _ taken)]
    constructor
    · intro condition host portfolioId assets same
      rw [taken] at same
      obtain ⟨rfl, rfl, rfl⟩ := Option.some.inj same
      exact condition
    · intro nothing
      exact nothing _ _ _ taken
  | configured untaken _ _ => exact untaken_obeys untaken
  | acknowledged closed => exact untaken_obeys rfl
  | registered => exact untaken_obeys rfl
  | unchanged untaken => exact untaken_obeys untaken

/-- A configuration that switches the monitoring off. -/
def disabledConfig : DriftConfigRequest := ⟨"p", 5 / 100, 1 / 10, none, false⟩

/- A portfolio that is not monitored gets its alert all the same. -/
theorem disabled_monitoring_alerts : ¬ ∀ past service, machine.Run FreshAlerts past service →
    machine.Each FreshAlerts ObeysConfig past := by
  intro obeys
  have untaken : FreshAlerts [] initial (.createConfig disabledConfig 0) := by
    intro host portfolioId assets taken
    simp [DriftCall.takes] at taken
  have configured := Machine.Run.start.next (M := machine) (i := .createConfig disabledConfig 0)
    untaken rfl
  have fresh : FreshIds (initial.createConfig disabledConfig 0).1 (readingsAt 0).alertId 0 1 :=
    ⟨fun i _ _ => rfl, fun i j from_first ordered below => by omega⟩
  have permitted : FreshAlerts [(.createConfig disabledConfig 0,
      .configured (initial.createConfig disabledConfig 0).2)]
      (initial.createConfig disabledConfig 0).1 criticalCall := by
    intro host portfolioId assets taken
    obtain ⟨rfl, rfl, rfl⟩ := Option.some.inj taken
    exact fresh
  have each := obeys _ _ (configured.next permitted rfl)
  have newest := ((configured.each_cons permitted rfl).mp each).1
  rcases (snapshot_obeys_iff rfl fresh).mp newest with ⟨enabled, _⟩ | none_due
  · exact absurd enabled (by decide +kernel)
  · apply none_due
    refine ⟨_, List.mem_cons_self, .critical, by decide +kernel, fun covered => ?_⟩
    obtain ⟨alert, member, _⟩ := covered
    exact List.not_mem_nil member

end AstraPort.Rebalancing.DriftCalculatorService
