import Mathlib.Tactic.NormNum
import AstraPort.Foundation.Rounding
import AstraPort.Rebalancing.DriftHistory

/- The direction of the reported drift. The trend takes the second half of the history for the
   later one, but getHistory puts the newest snapshot first, so the sign comes out reversed. -/
namespace AstraPort.Rebalancing.DriftCalculatorService

/-- The overallDrift of the snapshots of a portfolio, in time order. -/
def snapshotOverall (portfolioId : String) : DriftCall × DriftAnswer → Option Rat
  | (.calculateDrift _ other _, .status snapshot) =>
    if other = portfolioId then some snapshot.overallDrift else none
  | (.analysePortfolio _ other _ _ _, .analysed analysis) =>
    if other = portfolioId then some analysis.currentStatus.overallDrift else none
  | _ => none

def snapshotsTaken (portfolioId : String) (past : List (DriftCall × DriftAnswer)) : List Rat :=
  past.reverse.filterMap (snapshotOverall portfolioId)

section History
variable {service service' : DriftCalculatorService} {call : DriftCall} {answer : DriftAnswer}

theorem snapshotsTaken_cons (portfolioId : String) (e : DriftCall × DriftAnswer)
    (past : List (DriftCall × DriftAnswer)) : snapshotsTaken portfolioId (e :: past) =
      snapshotsTaken portfolioId past ++ (snapshotOverall portfolioId e).toList := by
  unfold snapshotsTaken
  rw [List.reverse_cons, List.filterMap_append]
  cases taken : snapshotOverall portfolioId e <;> simp [taken]

/- The drift that a call reports is the one its history entry holds. -/
theorem snapshotOverall_of_step (portfolioId : String)
    (moved : service.step call = some (service', answer)) :
    snapshotOverall portfolioId (call, answer) =
      (entryTaken portfolioId (call, answer)).map DriftHistoryEntry.overallDrift := by
  cases call with
  | calculateDrift host other assets | analysePortfolio host other assets periodDays analysedAt =>
    obtain ⟨rfl, rfl⟩ := Prod.mk.inj (Option.some.inj moved)
    simp only [snapshotOverall, entryTaken, DriftCall.takes, DriftAnswer.snapshot]
    split <;> rfl
  | createConfig dto now | updateConfig other dto now | getHistory other limit
  | getActiveAlerts other | acknowledgeAlert alertId acknowledgedBy now
  | registerWebhook webhookId dto now => rfl

theorem snapshotsTaken_entries {past : List (DriftCall × DriftAnswer)}
    (run : machine.Run Machine.anything past service) (portfolioId : String) :
    snapshotsTaken portfolioId past =
      (entriesTaken portfolioId past).map DriftHistoryEntry.overallDrift := by
  apply run.invariant (fun past _ => snapshotsTaken portfolioId past =
    (entriesTaken portfolioId past).map DriftHistoryEntry.overallDrift) rfl
  intro past service call service' answer _ known _ moved
  rw [snapshotsTaken_cons, entriesTaken_cons, known, snapshotOverall_of_step portfolioId moved,
    List.map_append, Option.toList_map]

/- The history holds the drifts of the last snapshots, in time order. -/
theorem history_follows_snapshots {past : List (DriftCall × DriftAnswer)}
    (run : machine.Run Machine.anything past service) (portfolioId : String) :
    (service.snapshots portfolioId).map DriftHistoryEntry.overallDrift =
      sliceFrom (-historyLimit) (snapshotsTaken portfolioId past) := by
  rw [history_of_run run portfolioId, map_sliceFrom, snapshotsTaken_entries run portfolioId]

end History

section Trend

/- A history that comes newest first is cut into a newer and an older half. -/
theorem halves_ordered {values : List Rat} (enough : ¬ values.reverse.length < 4)
    {order : Rat → Rat → Prop} (ordered : values.Pairwise order) :
    values.reverse.take (values.reverse.length / 2) ≠ [] ∧
      values.reverse.drop (values.reverse.length / 2) ≠ [] ∧
      ∀ newer ∈ values.reverse.take (values.reverse.length / 2),
        ∀ older ∈ values.reverse.drop (values.reverse.length / 2), order older newer := by
  have split_order := List.pairwise_append.mp
    ((List.take_append_drop (values.reverse.length / 2) values.reverse).symm ▸
      List.pairwise_reverse.mpr ordered)
  refine ⟨?_, ?_, split_order.2.2⟩
  · rw [Ne, List.take_eq_nil_iff]
    rintro (none_taken | empty)
    · omega
    · simp [empty] at enough
  · rw [Ne, List.drop_eq_nil_iff]
    omega

theorem trend_of_rising {values : List Rat} (rising : values.Pairwise (· < ·)) :
    calculateTrend values.reverse ≤ 0 := by
  unfold calculateTrend
  split
  · exact le_refl _
  · rename_i enough
    obtain ⟨some_newer, some_older, ordered⟩ := halves_ordered enough rising
    rw [sub_nonpos]
    exact average_le_average some_older some_newer fun newer in_newer older in_older =>
      (ordered newer in_newer older in_older).le

theorem trend_of_falling {values : List Rat} (falling : values.Pairwise (· > ·)) :
    0 ≤ calculateTrend values.reverse := by
  unfold calculateTrend
  split
  · exact le_refl _
  · rename_i enough
    obtain ⟨some_newer, some_older, ordered⟩ := halves_ordered enough falling
    rw [sub_nonneg]
    exact average_le_average some_newer some_older fun older in_older newer in_newer =>
      (ordered newer in_newer older in_older).le

/- The analysis of a portfolio none of whose snapshots is dropped or out of its period. -/
theorem trend_of_snapshots {past : List (DriftCall × DriftAnswer)}
    {service : DriftCalculatorService} (run : machine.Run Machine.anything past service)
    {host : SnapshotReadings} {portfolioId : String} {assets : List AssetAllocation}
    {periodDays analysedAt : Rat} {analysis : DriftAnalysis}
    {earlier : List (DriftCall × DriftAnswer)}
    (analysed : past = (.analysePortfolio host portfolioId assets periodDays analysedAt,
      .analysed analysis) :: earlier)
    (kept : (snapshotsTaken portfolioId past).length ≤ historyLimit)
    (covered : (snapshotsTaken portfolioId past).length ≤ periodDays * 24) :
    analysis.driftTrend = toFixed 4 (calculateTrend (snapshotsTaken portfolioId past).reverse) := by
  have stored := history_follows_snapshots run portfolioId
  rw [analysed] at run
  obtain ⟨before, _, _, moved⟩ := run.newest
  obtain ⟨same_after, same_analysis⟩ := Prod.mk.inj (Option.some.inj moved)
  rw [sliceFrom_all (by omega)] at stored
  have count : (service.snapshots portfolioId).length =
      (snapshotsTaken portfolioId past).length := by
    rw [← stored, List.length_map]
  have reach : truncate (-(periodDays * 24)) ≤ -((service.snapshots portfolioId).length : Int) := by
    rw [count]
    unfold truncate
    split
    · exact Int.ceil_le.mpr (by push_cast; linarith)
    · exact Int.floor_le_iff.mpr (by push_cast; linarith)
  have history : service.getHistory portfolioId (periodDays * 24) =
      (service.snapshots portfolioId).reverse := by
    unfold getHistory
    rw [sliceFrom_all reach]
  subst same_after
  rw [← DriftAnswer.analysed.inj same_analysis]
  simp only [analysePortfolio] at history stored ⊢
  rw [history, List.map_reverse, stored]

end Trend

/-- What the trend is to say of snapshots in time order. -/
def TrendFollows (snapshots : List Rat) (driftTrend : Rat) : Prop :=
  (snapshots.Pairwise (· < ·) → 0 < driftTrend) ∧ (snapshots.Pairwise (· > ·) → driftTrend < 0)

/-- After any calls, an analysis that covers the snapshots of its portfolio, at least four and
    none of them dropped. -/
def AnalysisFollows : Prop :=
  ∀ past service, machine.Run Machine.anything past service →
    ∀ host portfolioId assets periodDays analysedAt analysis earlier,
      past = (.analysePortfolio host portfolioId assets periodDays analysedAt,
        .analysed analysis) :: earlier →
      4 ≤ (snapshotsTaken portfolioId past).length →
      (snapshotsTaken portfolioId past).length ≤ historyLimit →
      (snapshotsTaken portfolioId past).length ≤ periodDays * 24 →
      TrendFollows (snapshotsTaken portfolioId past) analysis.driftTrend

/-- The trend is never positive when the drift has been rising and never negative when it has
been falling. -/
theorem trend_opposes_drift {past : List (DriftCall × DriftAnswer)}
    {service : DriftCalculatorService} (run : machine.Run Machine.anything past service)
    {host : SnapshotReadings} {portfolioId : String} {assets : List AssetAllocation}
    {periodDays analysedAt : Rat} {analysis : DriftAnalysis}
    {earlier : List (DriftCall × DriftAnswer)}
    (analysed : past = (.analysePortfolio host portfolioId assets periodDays analysedAt,
      .analysed analysis) :: earlier)
    (kept : (snapshotsTaken portfolioId past).length ≤ historyLimit)
    (covered : (snapshotsTaken portfolioId past).length ≤ periodDays * 24) :
    ((snapshotsTaken portfolioId past).Pairwise (· < ·) → ¬ 0 < analysis.driftTrend) ∧
      ((snapshotsTaken portfolioId past).Pairwise (· > ·) → ¬ analysis.driftTrend < 0) := by
  rw [trend_of_snapshots run analysed kept covered, not_lt, not_lt]
  exact ⟨fun rising => toFixed_nonpos (trend_of_rising rising) 4,
    fun falling => toFixed_nonneg (trend_of_falling falling) 4⟩

/-- Three snapshots, one percent more in each. -/
def risingCalls : List DriftCall :=
  [.calculateDrift (readingsAt 0) "p" (driftedBy (1 / 100)),
    .calculateDrift (readingsAt 1) "p" (driftedBy (2 / 100)),
    .calculateDrift (readingsAt 2) "p" (driftedBy (3 / 100))]

/-- The fourth snapshot, taken by the analysis, continues the rise. -/
def fourthCall : DriftCall :=
  .analysePortfolio (readingsAt 3) "p" (driftedBy (4 / 100)) 30 3

theorem four_rising_snapshots : ∃ past service analysis earlier,
    machine.Run Machine.anything past service ∧ past = (fourthCall, .analysed analysis) :: earlier ∧
      snapshotsTaken "p" past = [1 / 100, 2 / 100, 3 / 100, 4 / 100] := by
  have seen : ∃ moment ∈ machine.play Machine.anything ⟨[], machine.init⟩ risingCalls,
      snapshotsTaken "p" moment.past = [1 / 100, 2 / 100, 3 / 100] ∧
        (moment.state.analysePortfolio (readingsAt 3) "p" (driftedBy (4 / 100)) 30
          3).2.currentStatus.overallDrift = 4 / 100 := by decide +kernel
  obtain ⟨moment, played, before, fourth⟩ := seen
  have run := (Machine.play_run played).next (i := fourthCall) trivial rfl
  refine ⟨_, _, _, _, run, rfl, ?_⟩
  rw [snapshotsTaken_cons, before]
  simp only [fourthCall, snapshotOverall, if_true, fourth]
  rfl

theorem trend_opposes_four_snapshots : ∃ past service analysis,
    machine.Run Machine.anything past service ∧
      past.head? = some (fourthCall, .analysed analysis) ∧
      snapshotsTaken "p" past = [1 / 100, 2 / 100, 3 / 100, 4 / 100] ∧
      ¬ 0 < analysis.driftTrend := by
  obtain ⟨past, service, analysis, earlier, run, last, taken⟩ := four_rising_snapshots
  have opposes := trend_opposes_drift run last (by rw [taken]; decide) (by rw [taken]; norm_num)
  refine ⟨past, service, analysis, run, by rw [last]; rfl, taken, opposes.1 ?_⟩
  rw [taken]
  decide +kernel

/- Four snapshots that rise get no positive trend. -/
theorem rising_drift_reported_falling : ¬ AnalysisFollows := by
  intro follows
  obtain ⟨past, service, analysis, earlier, run, last, taken⟩ := four_rising_snapshots
  have rising : (snapshotsTaken "p" past).Pairwise (· < ·) := by
    rw [taken]
    decide +kernel
  have positive := (follows past service run _ "p" _ 30 3 analysis earlier last
    (by rw [taken]; decide) (by rw [taken]; decide) (by rw [taken]; norm_num)).1 rising
  have trend := trend_of_snapshots run last (by rw [taken]; decide) (by rw [taken]; norm_num)
  have nonpositive : analysis.driftTrend ≤ 0 := by
    rw [trend]
    exact toFixed_nonpos (trend_of_rising rising) 4
  linarith

end AstraPort.Rebalancing.DriftCalculatorService
