import Mathlib.Tactic.NormNum
import AstraPort.Foundation.Rounding
import AstraPort.Rebalancing.Drift

/- What the history keeps of the snapshots of a portfolio, and the window that getHistory cuts
   from it. A limit of zero becomes slice(-0), which is the whole history. -/
namespace AstraPort.Rebalancing

/-- The snapshot a call takes: its readings, its portfolio and its assets. -/
def DriftCall.takes : DriftCall → Option (SnapshotReadings × String × List AssetAllocation)
  | .calculateDrift host portfolioId assets => some (host, portfolioId, assets)
  | .analysePortfolio host portfolioId assets _ _ => some (host, portfolioId, assets)
  | _ => none

def DriftAnswer.snapshot : DriftAnswer → Option DriftStatus
  | .status snapshot => some snapshot
  | .analysed analysis => some analysis.currentStatus
  | _ => none

namespace DriftCalculatorService

/-- All that a call can do to the service. -/
inductive Moves (service : DriftCalculatorService) :
    DriftCall → DriftAnswer → DriftCalculatorService → Prop where
  | snapshot {call : DriftCall} {answer : DriftAnswer} {host : SnapshotReadings}
      {portfolioId : String} {assets : List AssetAllocation}
      (taken : call.takes = some (host, portfolioId, assets))
      (shown : answer.snapshot = some (service.calculateDrift host portfolioId assets).2) :
      Moves service call answer (service.calculateDrift host portfolioId assets).1
  | configured {call : DriftCall} {answer : DriftAnswer} (untaken : call.takes = none)
      (portfolioId : String) (config : DriftConfig) :
      Moves service call answer { service with configs := service.configs.set portfolioId config }
  | acknowledged {alertId : String} {acknowledgedBy : Option String} {now : Rat}
      {answer : DriftAnswer} {service' : DriftCalculatorService} {alert : DriftAlert}
      (closed : service.acknowledgeAlert alertId acknowledgedBy now = .ok (service', alert)) :
      Moves service (.acknowledgeAlert alertId acknowledgedBy now) answer service'
  | registered {webhookId : String} {dto : DriftWebhookRegistration} {now : Rat}
      {answer : DriftAnswer} :
      Moves service (.registerWebhook webhookId dto now) answer
        (service.registerWebhook webhookId dto now).1
  | unchanged {call : DriftCall} {answer : DriftAnswer} (untaken : call.takes = none) :
      Moves service call answer service

theorem step_moves {service service' : DriftCalculatorService} {call : DriftCall}
    {answer : DriftAnswer} (moved : service.step call = some (service', answer)) :
    Moves service call answer service' := by
  cases call with
  | calculateDrift host portfolioId assets =>
    obtain ⟨rfl, rfl⟩ := Prod.mk.inj (Option.some.inj moved)
    exact .snapshot rfl rfl
  | analysePortfolio host portfolioId assets periodDays analysedAt =>
    obtain ⟨rfl, rfl⟩ := Prod.mk.inj (Option.some.inj moved)
    exact .snapshot rfl rfl
  | createConfig dto now =>
    obtain ⟨rfl, rfl⟩ := Prod.mk.inj (Option.some.inj moved)
    exact .configured rfl dto.portfolioId _
  | updateConfig portfolioId dto now =>
    simp only [step, updateConfig] at moved
    cases found : service.configs.get portfolioId with
    | none =>
      rw [found] at moved
      obtain ⟨rfl, rfl⟩ := Prod.mk.inj (Option.some.inj moved)
      exact .unchanged rfl
    | some existing =>
      rw [found] at moved
      obtain ⟨rfl, rfl⟩ := Prod.mk.inj (Option.some.inj moved)
      exact .configured rfl portfolioId _
  | getHistory portfolioId limit =>
    obtain ⟨rfl, rfl⟩ := Prod.mk.inj (Option.some.inj moved)
    exact .unchanged rfl
  | getActiveAlerts portfolioId =>
    obtain ⟨rfl, rfl⟩ := Prod.mk.inj (Option.some.inj moved)
    exact .unchanged rfl
  | acknowledgeAlert alertId acknowledgedBy now =>
    simp only [step] at moved
    cases closed : service.acknowledgeAlert alertId acknowledgedBy now with
    | error thrown =>
      rw [closed] at moved
      obtain ⟨rfl, rfl⟩ := Prod.mk.inj (Option.some.inj moved)
      exact .unchanged rfl
    | ok updated =>
      rw [closed] at moved
      obtain ⟨rfl, rfl⟩ := Prod.mk.inj (Option.some.inj moved)
      exact .acknowledged closed
  | registerWebhook webhookId dto now =>
    obtain ⟨rfl, rfl⟩ := Prod.mk.inj (Option.some.inj moved)
    exact .registered

/- An acknowledged alert is stored again under the same id, and nothing else changes. -/
theorem acknowledgeAlert_ok {service service' : DriftCalculatorService} {alertId : String}
    {acknowledgedBy : Option String} {now : Rat} {alert : DriftAlert}
    (closed : service.acknowledgeAlert alertId acknowledgedBy now = .ok (service', alert)) :
    ∃ before, service.alerts.get alertId = some before ∧
      alert = { before with acknowledged := true, acknowledgedAt := some now,
                            acknowledgedBy := some (acknowledgedBy.getD "system") } ∧
      service' = { service with alerts := service.alerts.set alertId alert } := by
  unfold acknowledgeAlert at closed
  cases found : service.alerts.get alertId with
  | none => simp [found] at closed
  | some before =>
    simp only [found, Except.ok.injEq, Prod.mk.injEq] at closed
    obtain ⟨rfl, rfl⟩ := closed
    exact ⟨before, rfl, rfl, rfl⟩

/-- The history entry of a call that takes a snapshot of the portfolio. -/
def entryTaken (portfolioId : String) (e : DriftCall × DriftAnswer) : Option DriftHistoryEntry :=
  match e.1.takes, e.2.snapshot with
  | some (host, other, _), some snapshot =>
    if other = portfolioId then some (historyEntry host.snapshotId snapshot) else none
  | _, _ => none

/-- The snapshots taken of a portfolio, in time order. -/
def entriesTaken (portfolioId : String) (past : List (DriftCall × DriftAnswer)) :
    List DriftHistoryEntry :=
  past.reverse.filterMap (entryTaken portfolioId)

theorem entriesTaken_cons (portfolioId : String) (e : DriftCall × DriftAnswer)
    (past : List (DriftCall × DriftAnswer)) : entriesTaken portfolioId (e :: past) =
      entriesTaken portfolioId past ++ (entryTaken portfolioId e).toList := by
  unfold entriesTaken
  rw [List.reverse_cons, List.filterMap_append]
  cases taken : entryTaken portfolioId e <;> simp [taken]

section History
variable {service service' : DriftCalculatorService} {call : DriftCall} {answer : DriftAnswer}
  {past : List (DriftCall × DriftAnswer)}

theorem snapshotOf_portfolioId (service : DriftCalculatorService) (timestamp : Rat)
    (portfolioId : String) (assets : List AssetAllocation) :
    (service.snapshotOf timestamp portfolioId assets).portfolioId = portfolioId := rfl

theorem generateAlert_history (service : DriftCalculatorService) (alertId : String)
    (snapshot : DriftStatus) (warning critical : Rat) (asset : AssetDrift) :
    (service.generateAlert alertId snapshot warning critical asset).history = service.history := by
  unfold generateAlert
  split
  · rfl
  · simp only []
    split <;> rfl

theorem generateAlerts_history (service : DriftCalculatorService) (alertId : Nat → String)
    (snapshot : DriftStatus) (warning critical : Rat) :
    (service.generateAlerts alertId snapshot warning critical).history = service.history := by
  unfold generateAlerts
  generalize snapshot.assets.zipIdx = listed
  induction listed generalizing service with
  | nil => rfl
  | cons asset rest ih => rw [List.foldl_cons, ih, generateAlert_history]

/- A snapshot is appended to the history of its own portfolio. -/
theorem calculateDrift_snapshots (service : DriftCalculatorService) (host : SnapshotReadings)
    (portfolioId other : String) (assets : List AssetAllocation) :
    (service.calculateDrift host portfolioId assets).1.snapshots other =
      if other = portfolioId then sliceFrom (-historyLimit) (service.snapshots portfolioId ++
        [historyEntry host.snapshotId (service.calculateDrift host portfolioId assets).2])
      else service.snapshots other := by
  simp only [calculateDrift, snapshots, generateAlerts_history, persistSnapshot,
    InsertionMap.get_set, snapshotOf_portfolioId]
  by_cases same : other = portfolioId
  · simp only [if_pos same, Option.getD_some]
  · simp only [if_neg same]

theorem entryTaken_none (portfolioId : String) (untaken : call.takes = none) :
    entryTaken portfolioId (call, answer) = none := by
  simp only [entryTaken, untaken]

theorem kept_untaken {portfolioId : String} {stored : List DriftHistoryEntry}
    (untaken : call.takes = none)
    (known : stored = sliceFrom (-historyLimit) (entriesTaken portfolioId past)) :
    stored = sliceFrom (-historyLimit) (entriesTaken portfolioId ((call, answer) :: past)) := by
  rw [entriesTaken_cons, entryTaken_none portfolioId untaken, Option.toList_none, List.append_nil]
  exact known

/- The history is the window of the last snapshots: one call keeps it so. -/
theorem step_history {portfolioId : String}
    (known : service.snapshots portfolioId =
      sliceFrom (-historyLimit) (entriesTaken portfolioId past))
    (moves : Moves service call answer service') : service'.snapshots portfolioId =
      sliceFrom (-historyLimit) (entriesTaken portfolioId ((call, answer) :: past)) := by
  cases moves with
  | snapshot taken shown =>
    rename_i host other assets
    rw [calculateDrift_snapshots, entriesTaken_cons]
    simp only [entryTaken, taken, shown]
    by_cases same : other = portfolioId
    · subst same
      rw [if_pos rfl, if_pos rfl, known]
      exact sliceFrom_append (by decide) _ _
    · rw [if_neg (Ne.symm same), if_neg same, known, Option.toList_none, List.append_nil]
  | configured untaken _ _ => exact kept_untaken untaken known
  | acknowledged closed =>
    obtain ⟨before, _, _, rfl⟩ := acknowledgeAlert_ok closed
    exact kept_untaken rfl known
  | registered => exact kept_untaken rfl known
  | unchanged untaken => exact kept_untaken untaken known

theorem history_of_run (run : machine.Run Machine.anything past service) (portfolioId : String) :
    service.snapshots portfolioId = sliceFrom (-historyLimit) (entriesTaken portfolioId past) := by
  apply run.invariant (fun past service => service.snapshots portfolioId =
    sliceFrom (-historyLimit) (entriesTaken portfolioId past)) (sliceFrom_nil _).symm
  intro past service call service' answer _ known _ moved
  exact step_history known (step_moves moved)

end History

section Window
variable {Element : Type}

/- Slicing from a negative position keeps the newest elements. -/
theorem sliceFrom_newest {last : Nat} (some_last : 0 < last) (elements : List Element) :
    (sliceFrom (-last) elements).reverse = elements.reverse.take last := by
  have negative : (-(last : Int)) < 0 := by omega
  rw [sliceFrom, if_pos negative, Int.natAbs_neg, Int.natAbs_natCast, List.reverse_drop]
  by_cases fits : last ≤ elements.length
  · congr 1
    omega
  · have length : elements.reverse.length = elements.length := List.length_reverse
    rw [List.take_of_length_le (by omega), List.take_of_length_le (by omega)]

theorem truncate_neg (limit : Nat) : truncate (-(limit : Rat)) = -(limit : Int) := by
  have whole : (-(limit : Rat)) = ((-(limit : Int) : Int) : Rat) := by push_cast; rfl
  unfold truncate
  rw [whole, Int.ceil_intCast, Int.floor_intCast, ite_self]

end Window

theorem getHistory_newest (service : DriftCalculatorService) (portfolioId : String) {limit : Nat}
    (some_limit : 0 < limit) :
    service.getHistory portfolioId limit = (service.snapshots portfolioId).reverse.take limit := by
  rw [getHistory, truncate_neg]
  exact sliceFrom_newest some_limit _

theorem getHistory_zero (service : DriftCalculatorService) (portfolioId : String) :
    service.getHistory portfolioId (0 : Nat) = (service.snapshots portfolioId).reverse := by
  rw [getHistory, truncate_neg]
  rfl

/-- The answer to a history request is the newest snapshots, as many as asked for and kept. -/
def WindowExact (past : List (DriftCall × DriftAnswer)) (service : DriftCalculatorService)
    (portfolioId : String) (limit : Nat) : Prop :=
  service.getHistory portfolioId limit = (entriesTaken portfolioId past).reverse.take
    (min limit (min (entriesTaken portfolioId past).length 1000))

section Exact
variable {service : DriftCalculatorService} {past : List (DriftCall × DriftAnswer)}

/- What is kept of the snapshots, newest first. -/
theorem kept_of_run (run : machine.Run Machine.anything past service) (portfolioId : String) :
    (service.snapshots portfolioId).reverse = (entriesTaken portfolioId past).reverse.take 1000 := by
  rw [history_of_run run portfolioId]
  exact sliceFrom_newest (by decide : 0 < 1000) _

theorem window_of_positive (run : machine.Run Machine.anything past service) (portfolioId : String)
    {limit : Nat} (some_limit : 0 < limit) : WindowExact past service portfolioId limit := by
  unfold WindowExact
  rw [getHistory_newest service portfolioId some_limit, kept_of_run run portfolioId, List.take_take]
  apply List.take_eq_take_iff.mpr
  rw [List.length_reverse]
  omega

theorem window_of_zero (run : machine.Run Machine.anything past service) (portfolioId : String) :
    WindowExact past service portfolioId 0 ↔ entriesTaken portfolioId past = [] := by
  unfold WindowExact
  rw [getHistory_zero, kept_of_run run portfolioId, Nat.zero_min, List.take_zero,
    List.take_eq_nil_iff, List.reverse_eq_nil_iff]
  simp

/-- A history request is answered exactly unless its limit is zero and there are snapshots. -/
theorem history_window_exact_iff (run : machine.Run Machine.anything past service)
    (portfolioId : String) (limit : Nat) : WindowExact past service portfolioId limit ↔
      limit ≠ 0 ∨ entriesTaken portfolioId past = [] := by
  rcases Nat.eq_zero_or_pos limit with rfl | some_limit
  · rw [window_of_zero run portfolioId]
    simp
  · have exact_window := window_of_positive run portfolioId some_limit
    simp only [exact_window, true_iff]
    exact Or.inl some_limit.ne'

end Exact

/-- One asset whose weight has drifted from one half by the given amount. -/
def driftedBy (drift : Rat) : List AssetAllocation := [⟨"BTC", 1 / 2 + drift, 1 / 2, 1000⟩]

def readingsAt (timestamp : Rat) : SnapshotReadings := ⟨timestamp, "snap", fun _ => "alert"⟩

/-- A single snapshot of a portfolio without assets. -/
def oneSnapshot : DriftCall := .calculateDrift (readingsAt 0) "p" []

theorem run_of_one_snapshot : ∃ answer service,
    machine.Run Machine.anything [(oneSnapshot, answer)] service ∧
      entriesTaken "p" [(oneSnapshot, answer)] ≠ [] :=
  ⟨_, _, Machine.Run.start.next trivial rfl, by decide +kernel⟩

theorem history_window_of_one_snapshot : ∃ past service,
    machine.Run Machine.anything past service ∧
      (WindowExact past service "p" 1 ↔ 1 ≠ 0 ∨ entriesTaken "p" past = []) := by
  obtain ⟨answer, service, run, _⟩ := run_of_one_snapshot
  exact ⟨_, service, run, history_window_exact_iff run "p" 1⟩

/- With a limit of zero the whole history comes back. -/
theorem history_window_unbounded : ¬ ∀ past service, machine.Run Machine.anything past service →
    ∀ portfolioId limit, WindowExact past service portfolioId limit := by
  intro exact_window
  obtain ⟨answer, service, run, some_entry⟩ := run_of_one_snapshot
  exact some_entry ((window_of_zero run "p").mp (exact_window _ service run "p" 0))

end DriftCalculatorService
end AstraPort.Rebalancing
