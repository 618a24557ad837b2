import AstraPort.Monitoring.AlertHistory

/- The history of alerts when test alerts are triggered between evaluations. A fired alert makes
   room for itself; a test alert is only put in front. -/
namespace AstraPort.Monitoring
open AlertingService

namespace AlertingService

def testAlert (now : Int) : FiredAlert where
  ruleId := "test-ops-alert"
  firedAt := now
  value := .finite 1
  threshold := 1
  resolvedAt := none

def triggerTestAlert (service : AlertingService) (now : Int) : AlertingService × FiredAlert :=
  ({ service with firedAlertsHistory := testAlert now :: service.firedAlertsHistory },
    testAlert now)

/-- The alert the block of one rule announces to the ops listeners, if it fires one. -/
def announced (measured : Measurements) (service : AlertingService) (evaluation : Evaluation) :
    Option FiredAlert :=
  match service.rules.get evaluation.ruleId with
  | none => none
  | some rule =>
    if rule.enabled ∧ evaluation.fires rule.threshold then
      some ⟨rule.id, measured.actedAt rule.id, evaluation.value, rule.threshold, none⟩
    else none

/-- Those of one run of the rules, the last one first. -/
def announcedBy (measured : Measurements) :
    List Evaluation → AlertingService → List FiredAlert
  | [], _ => []
  | evaluation :: rest, service =>
    announcedBy measured rest (evaluate measured service evaluation) ++
      (announced measured service evaluation).toList

end AlertingService

inductive AlertCall where
  | evaluateRules (measured : Option Measurements)
  | triggerTestAlert (now : Int)

/-- A call and the alerts it announces. -/
def alertStep (service : AlertingService) : AlertCall → AlertingService × List FiredAlert
  | .evaluateRules none => (service.evaluateRules none, [])
  | .evaluateRules (some measured) =>
    (service.evaluateRules (some measured), announcedBy measured measured.evaluations service)
  | .triggerTestAlert now =>
    ((service.triggerTestAlert now).1, [(service.triggerTestAlert now).2])

def testedAlertingMachine : Machine AlertingService AlertCall (List FiredAlert) :=
  ⟨AlertingService.initial, fun service call => some (alertStep service call)⟩

abbrev AlertPast := List (AlertCall × List FiredAlert)

/-- Everything announced, newest first. -/
def allFired (past : AlertPast) : List FiredAlert := past.flatMap Prod.snd

/-- An alert as it was when it was fired. -/
def asFired (alert : FiredAlert) : FiredAlert := { alert with resolvedAt := none }

/-- The history is within its bound, and holds the most recent alerts, newest first. -/
structure HoldsRecent (past : AlertPast) (service : AlertingService) : Prop where
  bounded : service.firedAlertsHistory.length ≤ maxAlertHistory
  recent : service.firedAlertsHistory.map asFired = (allFired past).take maxAlertHistory

/-- A test alert finds room in the history. -/
def HasRoom (service : AlertingService) : AlertCall → Prop
  | .evaluateRules _ => True
  | .triggerTestAlert _ => service.firedAlertsHistory.length < maxAlertHistory

theorem resolveNewest_asFired (ruleId : String) (now : Int) (history : List FiredAlert) :
    (resolveNewest ruleId now history).map asFired = history.map asFired :=
  resolveNewest_map (fun _ _ => rfl) history

theorem asFired_bounded {service : AlertingService} {fired : List FiredAlert}
    (recent : service.firedAlertsHistory.map asFired = fired.take maxAlertHistory) :
    service.firedAlertsHistory.length ≤ maxAlertHistory := by
  have lengths := congrArg List.length recent
  rw [List.length_map] at lengths
  exact lengths.trans_le (List.length_take_le _ _)

section Evaluating
variable {service : AlertingService} {fired : List FiredAlert}

/- What the block of one rule does to the history. -/
theorem evaluate_recent
    (recent : service.firedAlertsHistory.map asFired = fired.take maxAlertHistory)
    (measured : Measurements) (evaluation : Evaluation) :
    (evaluate measured service evaluation).firedAlertsHistory.map asFired =
      ((announced measured service evaluation).toList ++ fired).take maxAlertHistory := by
  unfold evaluate announced
  cases service.rules.get evaluation.ruleId with
  | none => exact recent
  | some rule =>
    dsimp only
    by_cases enabled : rule.enabled = true
    · by_cases fires : evaluation.fires rule.threshold = true
      · rw [if_pos enabled, if_pos fires, if_pos ⟨enabled, fires⟩, fireAlert,
          unshift_take _ (asFired_bounded recent), List.map_take, List.map_cons, recent, push_take]
        rfl
      · have quiet : ¬ (rule.enabled = true ∧ evaluation.fires rule.threshold = true) :=
          fun both => fires both.2
        rw [if_pos enabled, if_neg fires, if_neg quiet]
        split
        · exact (resolveNewest_asFired _ _ _).trans recent
        · exact recent
    · rw [if_neg enabled, if_neg fun both => enabled both.1]
      exact recent

theorem evaluations_recent
    (recent : service.firedAlertsHistory.map asFired = fired.take maxAlertHistory)
    (measured : Measurements) (evaluations : List Evaluation) :
    (evaluations.foldl (evaluate measured) service).firedAlertsHistory.map asFired =
      (announcedBy measured evaluations service ++ fired).take maxAlertHistory := by
  induction evaluations generalizing service fired with
  | nil => exact recent
  | cons evaluation rest ih =>
    rw [List.foldl_cons, announcedBy, List.append_assoc]
    exact ih (evaluate_recent recent measured evaluation)

/- In front of a history that holds the most recent ones a test alert keeps it so exactly when
   there is room. -/
theorem test_alert_recent_iff {past : AlertPast} (holds : HoldsRecent past service) (now : Int) :
    HoldsRecent ((.triggerTestAlert now, [testAlert now]) :: past) (service.triggerTestAlert now).1 ↔
      service.firedAlertsHistory.length < maxAlertHistory := by
  have all : allFired ((.triggerTestAlert now, [testAlert now]) :: past) =
      testAlert now :: allFired past := rfl
  have history : (service.triggerTestAlert now).1.firedAlertsHistory =
      testAlert now :: service.firedAlertsHistory := rfl
  constructor
  · intro after
    have bounded := after.bounded
    rw [history, List.length_cons] at bounded
    omega
  · intro room
    have few : (allFired past).length < maxAlertHistory := by
      have lengths := congrArg List.length holds.recent
      rw [List.length_map, List.length_take] at lengths
      omega
    constructor
    · rw [history, List.length_cons]
      exact room
    · have whole := holds.recent
      rw [List.take_of_length_le few.le] at whole
      rw [all, history, List.take_of_length_le (by rw [List.length_cons]; omega), List.map_cons, whole]
      rfl

theorem alert_step_recent_iff {past : AlertPast} (holds : HoldsRecent past service)
    (call : AlertCall) :
    HoldsRecent ((call, (alertStep service call).2) :: past) (alertStep service call).1 ↔
      HasRoom service call := by
  cases call with
  | evaluateRules measured =>
    refine iff_of_true ?_ trivial
    have recent : (alertStep service (.evaluateRules measured)).1.firedAlertsHistory.map asFired =
        (allFired ((.evaluateRules measured, (alertStep service (.evaluateRules measured)).2) ::
          past)).take maxAlertHistory := by
      cases measured with
      | none => exact holds.recent
      | some measured => exact evaluations_recent holds.recent measured measured.evaluations
    exact ⟨asFired_bounded recent, recent⟩
  | triggerTestAlert now => exact test_alert_recent_iff holds now

end Evaluating

/-- In every run the history stays within its bound and holds the most recent alerts exactly when
    no test alert is triggered while the history is full. -/
theorem alert_history_recent_iff {past : AlertPast} {service : AlertingService}
    (run : testedAlertingMachine.Run Machine.anything past service) :
    testedAlertingMachine.Always Machine.anything HoldsRecent past ↔
      testedAlertingMachine.Each Machine.anything
        (fun before call _ _ => HasRoom before call) past := by
  refine run.always_iff_each ⟨Nat.zero_le _, rfl⟩ ?_
  intro past service call after answer _ holds _ moved
  obtain ⟨rfl, rfl⟩ := Prod.mk.inj (Option.some.inj moved)
  exact alert_step_recent_iff holds call

/-- A test alert between two evaluations, the first of which fires. -/
theorem alert_history_recent_tested :
    ∃ past service, past.reverse.map (fun e => e.2.map FiredAlert.ruleId) =
        [["high-latency-p95"], ["test-ops-alert"], []] ∧
      testedAlertingMachine.Run Machine.anything past service ∧
      testedAlertingMachine.Always Machine.anything HoldsRecent past := by
  have first : testedAlertingMachine.Run Machine.anything _ _ :=
    Machine.Run.start.next (i := .evaluateRules (some (latencyOf 2000 0))) trivial rfl
  have second := first.next (i := .triggerTestAlert 4000) trivial rfl
  have third := second.next (i := .evaluateRules (some (latencyOf 100 10000))) trivial rfl
  refine ⟨_, _, by decide +kernel, third, (alert_history_recent_iff third).mpr ?_⟩
  refine (second.each_cons trivial rfl).mpr ⟨trivial, ?_⟩
  refine (first.each_cons trivial rfl).mpr ⟨?_, ?_⟩
  · have one : (alertStep AlertingService.initial
        (.evaluateRules (some (latencyOf 2000 0)))).1.firedAlertsHistory.length = 1 := by
      decide +kernel
    exact one.trans_lt (by decide)
  · exact (Machine.Run.start.each_cons trivial rfl).mpr ⟨trivial, Machine.each_nil⟩

/- Nothing stops test alerts from piling up. -/
theorem test_alerts_pile_up (count : Nat) :
    ∃ past service, testedAlertingMachine.Run Machine.anything past service ∧
      service.firedAlertsHistory.length = count := by
  induction count with
  | zero => exact ⟨_, _, Machine.Run.start, rfl⟩
  | succ count ih =>
    obtain ⟨past, service, run, length⟩ := ih
    refine ⟨_, _, run.next (i := .triggerTestAlert 0) trivial rfl, ?_⟩
    exact congrArg (· + 1) length

/-- 501 test alerts. -/
theorem test_alerts_exceed_history :
    ¬ ∀ past service, testedAlertingMachine.Run Machine.anything past service →
      HoldsRecent past service := by
  intro always
  obtain ⟨past, service, run, length⟩ := test_alerts_pile_up 501
  have bounded := (always past service run).bounded
  rw [length] at bounded
  exact absurd bounded (by decide)

end AstraPort.Monitoring
