import AstraPort.Rebalancing.DriftStatus

/- The alerts that snapshots raise. An asset beyond a threshold raises an alert unless one of its
   severity is still open, so that there is never more than one open alert for a breach. -/
namespace AstraPort.Rebalancing

/-- The notifications about an alert that the registered webhooks of its portfolio get. -/
def DriftCalculatorService.notificationsOf (service : DriftCalculatorService) (alert : DriftAlert) :
    List DriftNotification :=
  (((service.webhooks.get alert.portfolioId).getD []).filter fun subscription =>
    subscription.events.contains alert.severity.event).map fun subscription =>
      ⟨subscription.webhookUrl, alert.severity.event, alert⟩

namespace DriftCalculatorService

def raise (service : DriftCalculatorService) (alert : DriftAlert) : DriftCalculatorService :=
  { service with
    alerts := service.alerts.set alert.alertId alert,
    notifications := service.notifications ++ service.notificationsOf alert }

/-- The alert that an asset beyond a threshold raises. -/
def raisedAlert (alertId : String) (snapshot : DriftStatus) (warning critical : Rat)
    (asset : AssetDrift) (severity : AlertSeverity) : DriftAlert :=
  let threshold := if severity = .critical then critical else warning
  { alertId := alertId,
    portfolioId := snapshot.portfolioId,
    severity := severity,
    affectedAsset := asset.symbol,
    currentDrift := asset.absoluteDrift,
    threshold := threshold,
    message := alertMessage asset.symbol asset.absoluteDrift threshold,
    triggeredAt := snapshot.timestamp,
    acknowledged := false,
    acknowledgedAt := none,
    acknowledgedBy := none }

/-- An alert of this severity is open for the asset. -/
def HasOpen (service : DriftCalculatorService) (portfolioId symbol : String)
    (severity : AlertSeverity) : Prop :=
  ∃ alert ∈ service.alerts.values, isDuplicate portfolioId symbol severity alert = true

/-- The loop over the assets of a snapshot, with the alerts it raises in their order. -/
inductive Raising (portfolioId : String) : DriftCalculatorService → List AssetDrift →
    List DriftAlert → DriftCalculatorService → Prop where
  | done (service : DriftCalculatorService) : Raising portfolioId service [] [] service
  | quiet {service after : DriftCalculatorService} {asset : AssetDrift} {rest : List AssetDrift}
      {created : List DriftAlert}
      (covered : ∀ severity, asset.status.severity = some severity →
        service.HasOpen portfolioId asset.symbol severity)
      (tail : Raising portfolioId service rest created after) :
      Raising portfolioId service (asset :: rest) created after
  | raised {service after : DriftCalculatorService} {asset : AssetDrift} {rest : List AssetDrift}
      {alert : DriftAlert} {created : List DriftAlert}
      (breach : asset.status.severity = some alert.severity)
      (about : isDuplicate portfolioId asset.symbol alert.severity alert = true)
      (uncovered : ¬ service.HasOpen portfolioId asset.symbol alert.severity)
      (fresh : service.alerts.get alert.alertId = none)
      (tail : Raising portfolioId (service.raise alert) rest created after) :
      Raising portfolioId service (asset :: rest) (alert :: created) after

section Duplicates
variable {portfolioId symbol : String} {severity : AlertSeverity} {alert : DriftAlert}

theorem isDuplicate_iff : isDuplicate portfolioId symbol severity alert = true ↔
    alert.portfolioId = portfolioId ∧ alert.affectedAsset = symbol ∧ alert.severity = severity ∧
      alert.acknowledged = false := by
  simp only [isDuplicate, Bool.and_eq_true, decide_eq_true_eq, Bool.not_eq_true', and_assoc]

theorem hasOpen_iff (service : DriftCalculatorService) : service.HasOpen portfolioId symbol severity ↔
    service.alerts.values.any (isDuplicate portfolioId symbol severity) = true :=
  List.any_eq_true.symm

end Duplicates

/- One pass of the loop: the asset is quiet, or its alert is raised. -/
theorem generateAlert_cases (service : DriftCalculatorService) (alertId : String)
    (snapshot : DriftStatus) (warning critical : Rat) (asset : AssetDrift) :
    (service.generateAlert alertId snapshot warning critical asset = service ∧
      ∀ severity, asset.status.severity = some severity →
        service.HasOpen snapshot.portfolioId asset.symbol severity) ∨
    ∃ alert : DriftAlert, alert.alertId = alertId ∧ asset.status.severity = some alert.severity ∧
      isDuplicate snapshot.portfolioId asset.symbol alert.severity alert = true ∧
      ¬ service.HasOpen snapshot.portfolioId asset.symbol alert.severity ∧
      service.generateAlert alertId snapshot warning critical asset = service.raise alert := by
  unfold generateAlert
  cases breach : asset.status.severity with
  | none => exact Or.inl ⟨rfl, fun severity impossible => absurd impossible (by simp)⟩
  | some severity =>
    simp only []
    by_cases open_alert : service.alerts.values.any
        (isDuplicate snapshot.portfolioId asset.symbol severity) = true
    · rw [if_pos open_alert]
      refine Or.inl ⟨rfl, fun other same => ?_⟩
      rw [← Option.some.inj same]
      exact (hasOpen_iff service).mpr open_alert
    · rw [if_neg open_alert]
      refine Or.inr ⟨raisedAlert alertId snapshot warning critical asset severity, rfl, rfl,
        isDuplicate_iff.mpr ⟨rfl, rfl, rfl, rfl⟩, ?_, rfl⟩
      exact fun covered => open_alert ((hasOpen_iff service).mp covered)

/-- The alert ids a snapshot draws are new and differ from each other. -/
structure FreshIds (service : DriftCalculatorService) (alertId : Nat → String) (first count : Nat) :
    Prop where
  unused : ∀ i, first ≤ i → i < first + count → service.alerts.get (alertId i) = none
  apart : ∀ i j, first ≤ i → i < j → j < first + count → alertId j ≠ alertId i

theorem FreshIds.rest {service : DriftCalculatorService} {alertId : Nat → String}
    {first count : Nat} (fresh : FreshIds service alertId first (count + 1)) :
    FreshIds service alertId (first + 1) count where
  unused i from_next below := fresh.unused i (by omega) (by omega)
  apart i j from_next ordered below := fresh.apart i j (by omega) ordered (by omega)

theorem FreshIds.raise {service : DriftCalculatorService} {alertId : Nat → String}
    {first count : Nat} (fresh : FreshIds service alertId first (count + 1)) {alert : DriftAlert}
    (drawn : alert.alertId = alertId first) :
    FreshIds (service.raise alert) alertId (first + 1) count where
  unused i from_next below := by
    have ne : alertId i ≠ alert.alertId := by
      rw [drawn]
      exact fresh.apart first i le_rfl (by omega) (by omega)
    rw [DriftCalculatorService.raise, InsertionMap.get_set_ne _ _ ne]
    exact fresh.unused i (by omega) (by omega)
  apart := fresh.rest.apart

/- The loop of the code, from any position of it. -/
theorem raising_of_fold (alertId : Nat → String) (snapshot : DriftStatus) (warning critical : Rat)
    (assets : List AssetDrift) (first : Nat) (service : DriftCalculatorService)
    (fresh : FreshIds service alertId first assets.length) :
    ∃ created, Raising snapshot.portfolioId service assets created
      ((assets.zipIdx first).foldl (fun service asset =>
        service.generateAlert (alertId asset.2) snapshot warning critical asset.1) service) := by
  induction assets generalizing first service with
  | nil => exact ⟨[], .done service⟩
  | cons asset rest ih =>
    rw [List.zipIdx_cons, List.foldl_cons]
    rcases generateAlert_cases service (alertId first) snapshot warning critical asset with
      ⟨same, covered⟩ | ⟨alert, drawn, breach, about, uncovered, moved⟩
    · rw [same]
      obtain ⟨created, tail⟩ := ih (first + 1) service fresh.rest
      exact ⟨created, .quiet covered tail⟩
    · rw [moved]
      obtain ⟨created, tail⟩ := ih (first + 1) (service.raise alert) (fresh.raise drawn)
      refine ⟨alert :: created, .raised breach about uncovered ?_ tail⟩
      rw [drawn]
      exact fresh.unused first le_rfl (by simp)

/- A snapshot leaves the alerts to the loop. -/
theorem calculateDrift_raising {service : DriftCalculatorService} {host : SnapshotReadings}
    (portfolioId : String) {assets : List AssetAllocation}
    (fresh : FreshIds service host.alertId 0 assets.length) :
    ∃ created, Raising portfolioId
      (service.persistSnapshot host.snapshotId (service.calculateDrift host portfolioId assets).2)
      (service.calculateDrift host portfolioId assets).2.assets created
      (service.calculateDrift host portfolioId assets).1 := by
  have length : (service.calculateDrift host portfolioId assets).2.assets.length = assets.length :=
    List.length_map _
  refine raising_of_fold host.alertId (service.calculateDrift host portfolioId assets).2
    (service.warningThreshold portfolioId) (service.criticalThreshold portfolioId)
    (service.calculateDrift host portfolioId assets).2.assets 0 _ ?_
  rw [length]
  exact ⟨fresh.unused, fresh.apart⟩

/-- The number of open alerts of this severity for the asset. -/
def openAlerts (service : DriftCalculatorService) (portfolioId symbol : String)
    (severity : AlertSeverity) : Nat :=
  service.alerts.values.countP (isDuplicate portfolioId symbol severity)

/-- Alerts are stored under their ids, and no breach has two open ones. -/
structure AlertsSound (service : DriftCalculatorService) : Prop where
  own : ∀ key alert, service.alerts.get key = some alert → alert.alertId = key
  alone : ∀ portfolioId symbol severity, service.openAlerts portfolioId symbol severity ≤ 1

section Loop
variable {portfolioId : String} {service after : DriftCalculatorService} {assets : List AssetDrift}
  {created : List DriftAlert}

theorem Raising.values (raising : Raising portfolioId service assets created after) :
    after.alerts.values = service.alerts.values ++ created := by
  induction raising with
  | done service => exact (List.append_nil _).symm
  | quiet covered tail ih => exact ih
  | raised breach about uncovered fresh tail ih =>
    rw [ih, raise, InsertionMap.values_set_fresh _ _ fresh, List.append_assoc]
    rfl

theorem Raising.keeps_open (raising : Raising portfolioId service assets created after)
    {other symbol : String} {severity : AlertSeverity}
    (held : service.HasOpen other symbol severity) : after.HasOpen other symbol severity := by
  obtain ⟨alert, member, duplicate⟩ := held
  exact ⟨alert, by rw [raising.values]; exact List.mem_append_left _ member, duplicate⟩

theorem raise_opens {alert : DriftAlert} {symbol : String} {severity : AlertSeverity}
    (about : isDuplicate portfolioId symbol severity alert = true) :
    (service.raise alert).HasOpen portfolioId symbol severity :=
  ⟨alert, (InsertionMap.mem_values _).mpr ⟨_, InsertionMap.get_set_self _ _ _⟩, about⟩

/- After the loop every asset beyond a threshold has an open alert. -/
theorem Raising.covers (raising : Raising portfolioId service assets created after) :
    ∀ asset ∈ assets, ∀ severity, asset.status.severity = some severity →
      after.HasOpen portfolioId asset.symbol severity := by
  induction raising with
  | done service => simp
  | quiet covered tail ih =>
    intro asset member severity breach
    rcases List.mem_cons.mp member with rfl | later
    · exact tail.keeps_open (covered severity breach)
    · exact ih asset later severity breach
  | raised breach about uncovered fresh tail ih =>
    intro asset member severity same
    rcases List.mem_cons.mp member with rfl | later
    · rw [breach] at same
      rw [← Option.some.inj same]
      exact tail.keeps_open (raise_opens about)
    · exact ih asset later severity same

theorem openAlerts_none {symbol : String} {severity : AlertSeverity}
    (uncovered : ¬ service.HasOpen portfolioId symbol severity) :
    service.openAlerts portfolioId symbol severity = 0 := by
  apply List.countP_eq_zero.mpr
  intro alert member duplicate
  exact uncovered ⟨alert, member, duplicate⟩

theorem openAlerts_pos {symbol : String} {severity : AlertSeverity}
    (held : service.HasOpen portfolioId symbol severity) :
    0 < service.openAlerts portfolioId symbol severity := by
  apply List.countP_pos_iff.mpr
  exact held

/- A raised alert is the only open one about its breach. -/
theorem AlertsSound.raise (sound : AlertsSound service) {alert : DriftAlert} {symbol : String}
    (about : isDuplicate portfolioId symbol alert.severity alert = true)
    (uncovered : ¬ service.HasOpen portfolioId symbol alert.severity)
    (fresh : service.alerts.get alert.alertId = none) : AlertsSound (service.raise alert) where
  own := InsertionMap.get_set_all rfl sound.own
  alone other asset severity := by
    have count : (service.raise alert).openAlerts other asset severity =
        service.openAlerts other asset severity +
          if isDuplicate other asset severity alert then 1 else 0 := by
      rw [openAlerts, DriftCalculatorService.raise, InsertionMap.values_set_fresh _ _ fresh,
        List.countP_append, List.countP_singleton]
      rfl
    rw [count]
    by_cases same : isDuplicate other asset severity alert = true
    · obtain ⟨rfl, rfl, rfl, _⟩ := isDuplicate_iff.mp same
      obtain ⟨rfl, rfl, _, _⟩ := isDuplicate_iff.mp about
      rw [openAlerts_none uncovered, if_pos same]
    · rw [if_neg same]
      exact sound.alone other asset severity

theorem Raising.sound (raising : Raising portfolioId service assets created after)
    (sound : AlertsSound service) : AlertsSound after := by
  induction raising with
  | done service => exact sound
  | quiet covered tail ih => exact ih sound
  | raised breach about uncovered fresh tail ih => exact ih (sound.raise about uncovered fresh)

end Loop

section Acknowledged
variable {service service' : DriftCalculatorService} {alertId : String}
  {acknowledgedBy : Option String} {now : Rat} {alert : DriftAlert}

/- Among the open alerts exactly the acknowledged one goes. -/
theorem filter_acknowledged (sound : AlertsSound service)
    (closed : service.acknowledgeAlert alertId acknowledgedBy now = .ok (service', alert))
    (wanted : DriftAlert → Bool)
    (only_open : ∀ alert, wanted alert = true → alert.acknowledged = false) :
    service'.alerts.values.filter wanted =
      (service.alerts.values.filter wanted).filter fun other => other.alertId ≠ alertId := by
  obtain ⟨before, found, closed_alert, rfl⟩ := acknowledgeAlert_ok closed
  have acknowledged : alert.acknowledged = true := by rw [closed_alert]
  have own_after : ∀ key other, (service.alerts.set alertId alert).get key = some other →
      other.alertId = key := by
    apply InsertionMap.get_set_all _ sound.own
    rw [closed_alert]
    exact sound.own alertId before found
  have narrowed : (service.alerts.set alertId alert).values.filter wanted =
      (service.alerts.set alertId alert).values.filter fun other =>
        wanted other && decide (other.alertId ≠ alertId) := by
    apply List.filter_congr
    intro other member
    cases picked : wanted other with
    | false => rfl
    | true =>
      obtain ⟨key, held⟩ := (InsertionMap.mem_values _).mp member
      rcases InsertionMap.get_set_cases held with ⟨rfl, rfl⟩ | ⟨ne, kept⟩
      · simp [only_open other picked] at acknowledged
      · simpa [sound.own key other kept] using ne
  have agree : InsertionMap.Agree (fun key => decide (key ≠ alertId))
      (service.alerts.set alertId alert) service.alerts :=
    InsertionMap.agree_set_hidden _ _ (by simp)
  rw [narrowed, agree.values, List.filter_filter]
  · simp only [Bool.and_comm]
  · intro key other held picked
    rw [own_after key other held] at picked
    exact (Bool.and_eq_true_iff.mp picked).2
  · intro key other held picked
    rw [sound.own key other held] at picked
    exact (Bool.and_eq_true_iff.mp picked).2

theorem AlertsSound.acknowledge (sound : AlertsSound service)
    (closed : service.acknowledgeAlert alertId acknowledgedBy now = .ok (service', alert)) :
    AlertsSound service' where
  own := by
    obtain ⟨before, found, closed_alert, rfl⟩ := acknowledgeAlert_ok closed
    apply InsertionMap.get_set_all _ sound.own
    rw [closed_alert]
    exact sound.own alertId before found
  alone portfolioId symbol severity := by
    have fewer := filter_acknowledged sound closed (isDuplicate portfolioId symbol severity)
      fun other duplicate => (isDuplicate_iff.mp duplicate).2.2.2
    have before := sound.alone portfolioId symbol severity
    rw [openAlerts, List.countP_eq_length_filter] at before ⊢
    rw [fewer]
    exact (List.length_filter_le _ _).trans before

/- The list of active alerts loses the acknowledged alert and no other. -/
theorem getActiveAlerts_acknowledged (sound : AlertsSound service)
    (closed : service.acknowledgeAlert alertId acknowledgedBy now = .ok (service', alert))
    (portfolioId : Option String) : service'.getActiveAlerts portfolioId =
      (service.getActiveAlerts portfolioId).filter fun other => other.alertId ≠ alertId := by
  have all := filter_acknowledged sound closed (fun other => !other.acknowledged)
    fun other unacknowledged => by simpa using unacknowledged
  unfold getActiveAlerts
  cases portfolioId with
  | none => exact all
  | some portfolioId =>
    simp only [all]
    split
    · rfl
    · exact List.filter_comm _ _ _

end Acknowledged

/-- Every snapshot draws new ids for the alerts it may raise. -/
def FreshAlerts : Machine.Permit DriftCalculatorService DriftCall DriftAnswer :=
  fun _ service call => ∀ host portfolioId assets, call.takes = some (host, portfolioId, assets) →
    FreshIds service host.alertId 0 assets.length

section Runs
variable {service service' : DriftCalculatorService} {past : List (DriftCall × DriftAnswer)}
  {call : DriftCall} {answer : DriftAnswer}

theorem step_sound (sound : AlertsSound service) (fresh : FreshAlerts past service call)
    (moves : Moves service call answer service') : AlertsSound service' := by
  cases moves with
  | snapshot taken shown =>
    obtain ⟨created, raising⟩ := calculateDrift_raising _ (fresh _ _ _ taken)
    exact raising.sound ⟨sound.own, sound.alone⟩
  | configured untaken portfolioId config => exact ⟨sound.own, sound.alone⟩
  | acknowledged closed => exact sound.acknowledge closed
  | registered => exact ⟨sound.own, sound.alone⟩
  | unchanged untaken => exact sound

theorem sound_of_run (run : machine.Run FreshAlerts past service) : AlertsSound service := by
  apply run.invariant (fun _ service => AlertsSound service)
  · exact ⟨by simp [machine, initial], by simp [machine, initial, openAlerts, InsertionMap.values,
      InsertionMap.empty]⟩
  · intro past service call service' answer _ sound fresh moved
    exact step_sound sound fresh (step_moves moved)

end Runs

/-- In every reachable state no breach has two open alerts; after a snapshot each of its assets
beyond a threshold has exactly one; an acknowledgement takes exactly its alert from the list. -/
theorem one_open_alert_per_breach {past : List (DriftCall × DriftAnswer)}
    {service : DriftCalculatorService} (run : machine.Run FreshAlerts past service) :
    (∀ portfolioId symbol severity, service.openAlerts portfolioId symbol severity ≤ 1) ∧
      (∀ call answer earlier host portfolioId assets snapshot, past = (call, answer) :: earlier →
        call.takes = some (host, portfolioId, assets) → answer.snapshot = some snapshot →
        ∀ asset ∈ snapshot.assets, ∀ severity, asset.status.severity = some severity →
          service.openAlerts portfolioId asset.symbol severity = 1) ∧
      ∀ alertId acknowledgedBy now service' alert,
        service.acknowledgeAlert alertId acknowledgedBy now = .ok (service', alert) →
        ∀ portfolioId, service'.getActiveAlerts portfolioId =
          (service.getActiveAlerts portfolioId).filter fun other => other.alertId ≠ alertId := by
  have sound := sound_of_run run
  refine ⟨sound.alone, ?_, fun _ _ _ _ _ closed => getActiveAlerts_acknowledged sound closed⟩
  intro call answer earlier host portfolioId assets snapshot newest taken shown
  rw [newest] at run
  obtain ⟨before, _, fresh, moved⟩ := run.newest
  intro asset member severity breach
  have covered : service.HasOpen portfolioId asset.symbol severity := by
    cases step_moves moved with
    | snapshot same_taken same_shown =>
      rw [taken] at same_taken
      obtain ⟨rfl, rfl, rfl⟩ := Option.some.inj same_taken
      rw [shown] at same_shown
      obtain rfl := Option.some.inj same_shown
      obtain ⟨created, raising⟩ := calculateDrift_raising portfolioId (fresh _ _ _ taken)
      exact raising.covers asset member severity breach
    | configured untaken _ _ => simp [untaken] at taken
    | acknowledged closed => simp [DriftCall.takes] at taken
    | registered => simp [DriftCall.takes] at taken
    | unchanged untaken => simp [untaken] at taken
  have some_alert := openAlerts_pos covered
  have at_most_one := sound.alone portfolioId asset.symbol severity
  omega

/-- A snapshot of one asset that has drifted by a fifth. -/
def criticalCall : DriftCall := .calculateDrift (readingsAt 0) "p" (driftedBy (1 / 5))

theorem criticalCall_fresh : FreshAlerts [] initial criticalCall := by
  intro host portfolioId assets taken
  obtain ⟨rfl, rfl, rfl⟩ := Option.some.inj taken
  exact ⟨fun i _ _ => rfl, fun i j from_first ordered below => by simp [driftedBy] at below; omega⟩

theorem one_open_alert_for_bitcoin : ∃ past service,
    machine.Run FreshAlerts past service ∧ service.openAlerts "p" "BTC" .critical = 1 := by
  have start : machine.Run FreshAlerts [] machine.init := Machine.Run.start
  have run := start.next (i := criticalCall) criticalCall_fresh rfl
  refine ⟨_, _, run, ?_⟩
  exact (one_open_alert_per_breach run).2.1 criticalCall _ [] _ _ _ _ rfl rfl rfl _
    List.mem_cons_self .critical (by decide +kernel)

end DriftCalculatorService
end AstraPort.Rebalancing
