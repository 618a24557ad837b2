import AstraPort.Rebalancing.DriftHistory

/- The status of a portfolio against the statuses of its assets. The assets are judged by their
   drift as it is, the portfolio by the largest drift after rounding to four digits. -/
namespace AstraPort.Rebalancing.DriftCalculatorService

section Largest

theorem le_foldl_max (bound first : Rat) (rest : List Rat) :
    bound ≤ rest.foldl max first ↔ bound ≤ first ∨ ∃ v ∈ rest, bound ≤ v := by
  induction rest generalizing first with
  | nil => simp
  | cons v rest ih =>
    rw [List.foldl_cons, ih, le_max_iff, List.exists_mem_cons_iff, or_assoc]

/- A positive bound is reached by the largest value when one of the values reaches it. -/
theorem le_maxOr {bound : Rat} (positive : 0 < bound) (values : List Rat) :
    bound ≤ maxOr 0 values ↔ ∃ v ∈ values, bound ≤ v := by
  cases values with
  | nil => simp [maxOr, positive]
  | cons first rest => rw [maxOr, le_foldl_max, List.exists_mem_cons_iff]

theorem foldl_max_rounded (digits : Nat) {first : Rat} (nonnegative : 0 ≤ first) {rest : List Rat}
    (all_nonnegative : ∀ v ∈ rest, 0 ≤ v) :
    (rest.map (toFixed digits)).foldl max (toFixed digits first) =
      toFixed digits (rest.foldl max first) := by
  induction rest generalizing first with
  | nil => rfl
  | cons v rest ih =>
    have here : 0 ≤ v := all_nonnegative v List.mem_cons_self
    have later : ∀ w ∈ rest, 0 ≤ w := fun w member =>
      all_nonnegative w (List.mem_cons_of_mem v member)
    have larger : max (toFixed digits first) (toFixed digits v) = toFixed digits (max first v) := by
      rcases le_total first v with order | order
      · rw [max_eq_right order, max_eq_right (toFixed_le_toFixed nonnegative order digits)]
      · rw [max_eq_left order, max_eq_left (toFixed_le_toFixed here order digits)]
    rw [List.map_cons, List.foldl_cons, List.foldl_cons, larger]
    exact ih (nonnegative.trans (le_max_left first v)) later

/- The largest rounded value is the largest value, rounded. -/
theorem maxOr_rounded (digits : Nat) {values : List Rat}
    (all_nonnegative : ∀ v ∈ values, 0 ≤ v) :
    maxOr 0 (values.map (toFixed digits)) = toFixed digits (maxOr 0 values) := by
  cases values with
  | nil =>
    have zero := le_antisymm (toFixed_nonpos (le_refl 0) digits) (toFixed_nonneg (le_refl 0) digits)
    exact zero.symm
  | cons first rest =>
    exact foldl_max_rounded digits (all_nonnegative first List.mem_cons_self) fun v member =>
      all_nonnegative v (List.mem_cons_of_mem first member)

end Largest

def rawDrift (asset : AssetAllocation) : Rat := |asset.currentWeight - asset.targetWeight|

/-- The largest drift of the assets before any rounding. -/
def worstDrift (assets : List AssetAllocation) : Rat := maxOr 0 (assets.map rawDrift)

theorem le_worstDrift {bound : Rat} (positive : 0 < bound) (assets : List AssetAllocation) :
    bound ≤ worstDrift assets ↔ ∃ asset ∈ assets, bound ≤ rawDrift asset := by
  rw [worstDrift, le_maxOr positive]
  simp only [List.mem_map, exists_exists_and_eq_and]

/-- The portfolio has the status of its worst asset, and is to be rebalanced when an alert is due
    for one of its assets. -/
def StatusIsWorst (snapshot : DriftStatus) : Prop :=
  (snapshot.status = .critical ↔ ∃ asset ∈ snapshot.assets, asset.status = .critical) ∧
    (snapshot.status = .warning ↔ (¬ ∃ asset ∈ snapshot.assets, asset.status = .critical) ∧
      ∃ asset ∈ snapshot.assets, asset.status = .warning) ∧
    (snapshot.status = .healthy ↔ ∀ asset ∈ snapshot.assets, asset.status = .onTarget) ∧
    (snapshot.rebalancingRecommended = true ↔
      ∃ asset ∈ snapshot.assets, asset.status.severity ≠ none)

/-- Rounding to four digits moves a drift across neither threshold. -/
def RoundingAgrees (warning critical drift : Rat) : Prop :=
  (critical ≤ toFixed 4 drift ↔ critical ≤ drift) ∧ (warning ≤ toFixed 4 drift ↔ warning ≤ drift)

section Status
variable {warning critical : Rat}

theorem assetStatus_critical (drift : Rat) :
    assetStatus drift warning critical = .critical ↔ critical ≤ drift := by
  unfold assetStatus
  split
  · simp [*]
  · split <;> simp [*]

theorem assetStatus_onTarget (ordered : warning ≤ critical) (drift : Rat) :
    assetStatus drift warning critical = .onTarget ↔ ¬ warning ≤ drift := by
  unfold assetStatus
  split
  · rename_i reached
    simp [ordered.trans reached]
  · split <;> simp [*]

theorem portfolioStatus_critical (drift : Rat) :
    portfolioStatus drift warning critical = .critical ↔ critical ≤ drift := by
  unfold portfolioStatus
  split
  · simp [*]
  · split <;> simp [*]

theorem portfolioStatus_healthy (ordered : warning ≤ critical) (drift : Rat) :
    portfolioStatus drift warning critical = .healthy ↔ ¬ warning ≤ drift := by
  unfold portfolioStatus
  split
  · rename_i reached
    simp [ordered.trans reached]
  · split <;> simp [*]

end Status

section Snapshot
variable (service : DriftCalculatorService) (timestamp : Rat) (portfolioId : String)
  (assets : List AssetAllocation)

/- The status of a snapshot is decided by the largest drift, rounded. -/
theorem snapshotOf_status : (service.snapshotOf timestamp portfolioId assets).status =
    portfolioStatus (toFixed 4 (worstDrift assets)) (service.warningThreshold portfolioId)
      (service.criticalThreshold portfolioId) := by
  have nonnegative : ∀ v ∈ assets.map rawDrift, 0 ≤ v := by
    intro v member
    obtain ⟨asset, _, rfl⟩ := List.mem_map.mp member
    exact abs_nonneg _
  rw [worstDrift, ← maxOr_rounded 4 nonnegative, List.map_map]
  simp only [snapshotOf, List.map_map]
  rfl

/- The assets of a snapshot are judged one by one. -/
theorem exists_asset_iff (good : AssetStatus → Prop) :
    (∃ asset ∈ (service.snapshotOf timestamp portfolioId assets).assets, good asset.status) ↔
      ∃ asset ∈ assets, good (assetStatus (rawDrift asset) (service.warningThreshold portfolioId)
        (service.criticalThreshold portfolioId)) := by
  simp only [snapshotOf, List.mem_map, exists_exists_and_eq_and]
  rfl

theorem some_critical_iff (positive : 0 < service.criticalThreshold portfolioId) :
    (∃ asset ∈ (service.snapshotOf timestamp portfolioId assets).assets,
      asset.status = .critical) ↔ service.criticalThreshold portfolioId ≤ worstDrift assets := by
  rw [exists_asset_iff service timestamp portfolioId assets (· = .critical),
    le_worstDrift positive]
  simp only [assetStatus_critical]

theorem some_breach_iff (positive : 0 < service.warningThreshold portfolioId)
    (ordered : service.warningThreshold portfolioId ≤ service.criticalThreshold portfolioId) :
    (∃ asset ∈ (service.snapshotOf timestamp portfolioId assets).assets,
      asset.status ≠ .onTarget) ↔ service.warningThreshold portfolioId ≤ worstDrift assets := by
  rw [exists_asset_iff service timestamp portfolioId assets (· ≠ .onTarget),
    le_worstDrift positive]
  simp only [ne_eq, assetStatus_onTarget ordered, not_not]

end Snapshot

theorem severity_ne_none (status : AssetStatus) :
    status.severity ≠ none ↔ status ≠ .onTarget := by
  cases status <;> simp [AssetStatus.severity]

/- What the status of a snapshot says of its assets, in the two comparisons that decide it. -/
theorem status_is_worst_iff {snapshot : DriftStatus}
    (recommended : snapshot.rebalancingRecommended = decide (snapshot.status ≠ .healthy)) :
    StatusIsWorst snapshot ↔
      (snapshot.status = .critical ↔ ∃ asset ∈ snapshot.assets, asset.status = .critical) ∧
        (snapshot.status ≠ .healthy ↔ ∃ asset ∈ snapshot.assets, asset.status ≠ .onTarget) := by
  have breached : (∃ asset ∈ snapshot.assets, asset.status ≠ .onTarget) ↔
      (∃ asset ∈ snapshot.assets, asset.status = .critical) ∨
        ∃ asset ∈ snapshot.assets, asset.status = .warning := by
    constructor
    · intro some_breach
      obtain ⟨asset, member, off⟩ := some_breach
      cases status : asset.status with
      | onTarget => exact absurd status off
      | warning => exact Or.inr ⟨asset, member, status⟩
      | critical => exact Or.inl ⟨asset, member, status⟩
    · intro found
      rcases found with ⟨asset, member, status⟩ | ⟨asset, member, status⟩
      · exact ⟨asset, member, by simp [status]⟩
      · exact ⟨asset, member, by simp [status]⟩
  have none_breached : (∀ asset ∈ snapshot.assets, asset.status = .onTarget) ↔
      ¬ ∃ asset ∈ snapshot.assets, asset.status ≠ .onTarget := by
    push Not
    rfl
  unfold StatusIsWorst
  simp only [recommended, decide_eq_true_iff, severity_ne_none, none_breached, breached]
  generalize (∃ asset ∈ snapshot.assets, asset.status = .critical) = some_critical
  generalize (∃ asset ∈ snapshot.assets, asset.status = .warning) = some_warning
  cases snapshot.status with
  | healthy | warning | critical =>
    by_cases critical : some_critical
    all_goals by_cases warning : some_warning
    all_goals simp [critical, warning]

/-- A snapshot gives the portfolio the status of its worst asset exactly when rounding the largest
drift to four digits moves it across neither threshold. -/
theorem portfolio_status_worst_iff (service : DriftCalculatorService) (host : SnapshotReadings)
    (portfolioId : String) (assets : List AssetAllocation)
    (positive : 0 < service.warningThreshold portfolioId)
    (ordered : service.warningThreshold portfolioId ≤ service.criticalThreshold portfolioId) :
    StatusIsWorst (service.calculateDrift host portfolioId assets).2 ↔
      RoundingAgrees (service.warningThreshold portfolioId)
        (service.criticalThreshold portfolioId) (worstDrift assets) := by
  simp only [calculateDrift]
  rw [status_is_worst_iff rfl, snapshotOf_status, portfolioStatus_critical, Ne,
    portfolioStatus_healthy ordered, not_not,
    some_critical_iff service host.timestamp portfolioId assets (positive.trans_le ordered),
    some_breach_iff service host.timestamp portfolioId assets positive ordered]
  rfl

theorem status_of_six_percent :
    StatusIsWorst (initial.calculateDrift (readingsAt 0) "p" (driftedBy (6 / 100))).2 :=
  (portfolio_status_worst_iff initial (readingsAt 0) "p" (driftedBy (6 / 100)) (by decide +kernel)
    (by decide +kernel)).mpr (by unfold RoundingAgrees; decide +kernel)

/- A drift of 4.996 % is reported as 5 %: the portfolio is in warning, its only asset on target. -/
theorem portfolio_warns_without_asset : ¬ ∀ (service : DriftCalculatorService)
    (host : SnapshotReadings) (portfolioId : String) (assets : List AssetAllocation),
    0 < service.warningThreshold portfolioId →
    service.warningThreshold portfolioId ≤ service.criticalThreshold portfolioId →
    StatusIsWorst (service.calculateDrift host portfolioId assets).2 := by
  intro worst
  have snapshot := worst initial (readingsAt 0) "p" (driftedBy (4996 / 100000)) (by decide +kernel)
    (by decide +kernel)
  have crossed : ¬ StatusIsWorst
      (initial.calculateDrift (readingsAt 0) "p" (driftedBy (4996 / 100000))).2 := by
    unfold StatusIsWorst
    decide +kernel
  exact crossed snapshot

end AstraPort.Rebalancing.DriftCalculatorService
