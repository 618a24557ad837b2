import Mathlib.Algebra.BigOperators.Ring.List
import AstraPort.Foundation.Rounding
import AstraPort.Staking.CachedViews

/- The allocations of a portfolio view. Positions are grouped by asset in one pass; every share
   is a part of a total that is never zero, and rounding moves the columns by at most half a
   hundredth for each asset. -/
namespace AstraPort.Staking
namespace PortfolioService

/-- Division that answers nothing where the divisor is zero. -/
def divide (dividend divisor : Rat) : Option Rat :=
  if divisor = 0 then none else some (dividend / divisor)

/-- The allocations with every division checked. -/
def rebalanceChecked (positions : List InternalPosition) : Option (List Allocation) :=
  let totalValue := totalStaked positions
  let held := allocations positions
  held.entries.mapM fun e => do
    let share ← divide e.2 totalValue
    let equal ← divide 1 held.size
    return { assetId := e.1, currentAllocation := toFixed 2 (share * 100),
             targetAllocation := toFixed 2 (equal * 100) }

/-- A column of allocations adds up to 100, but for the rounding of its entries. -/
def AddsUp (column : List Rat) : Prop := |column.sum - 100| ≤ 1 / 200 * column.length

/-- No division by zero, each asset held listed once, shares between 0 and 100, and both columns
    that of a whole. -/
structure AllocatesSafely (positions : List InternalPosition)
    (rebalance : List Allocation) : Prop where
  no_zero_divisor : rebalanceChecked positions = some rebalance
  each_once : (rebalance.map Allocation.assetId).Nodup
  those_held : ∀ asset, asset ∈ rebalance.map Allocation.assetId ↔
    ∃ position ∈ positions, position.assetId = asset
  in_range : ∀ allocation ∈ rebalance,
    0 ≤ allocation.currentAllocation ∧ allocation.currentAllocation ≤ 100
  current_adds_up : positions ≠ [] → AddsUp (rebalance.map Allocation.currentAllocation)
  target_adds_up : positions ≠ [] → AddsUp (rebalance.map Allocation.targetAllocation)

section Grouping

/-- One position added to the amounts by asset. -/
def addTo (acc : InsertionMap String Rat) (position : InternalPosition) : InsertionMap String Rat :=
  acc.set position.assetId ((acc.get position.assetId).getD 0 + position.stakedAmount)

def sumOf (acc : InsertionMap String Rat) : Rat := acc.total fun _ amount => amount

theorem sumOf_addTo (acc : InsertionMap String Rat) (position : InternalPosition) :
    sumOf (addTo acc position) = sumOf acc + position.stakedAmount := by
  unfold sumOf addTo
  cases held : acc.get position.assetId with
  | none =>
    rw [InsertionMap.total_set_fresh acc _ _ held, Option.getD_none, zero_add]
  | some amount =>
    have replaced := InsertionMap.total_set_present acc (fun _ amount => amount)
      (amount + position.stakedAmount) held
    rw [Option.getD_some]
    linarith

theorem allocations_sum (positions : List InternalPosition) (acc : InsertionMap String Rat) :
    sumOf (positions.foldl addTo acc) = sumOf acc + totalStaked positions := by
  induction positions generalizing acc with
  | nil => simp [totalStaked]
  | cons position rest ih =>
    have total : totalStaked (position :: rest) = position.stakedAmount + totalStaked rest :=
      List.sum_cons
    rw [List.foldl_cons, ih, sumOf_addTo, total, add_assoc]

theorem mem_keys_addTo (acc : InsertionMap String Rat) (position : InternalPosition)
    (asset : String) :
    asset ∈ (addTo acc position).keys ↔ asset ∈ acc.keys ∨ position.assetId = asset := by
  have absent := InsertionMap.get_none_iff (addTo acc position) (k := asset)
  have absent_before := InsertionMap.get_none_iff acc (k := asset)
  by_cases same : asset = position.assetId
  · subst asset
    simp only [addTo, InsertionMap.get_set_self, reduceCtorEq, false_iff, not_not] at absent
    exact iff_of_true absent (Or.inr rfl)
  · rw [addTo, InsertionMap.get_set_ne _ _ same] at absent
    have unchanged := not_iff_not.mp (absent.symm.trans absent_before)
    rw [addTo, unchanged]
    exact (or_iff_left (Ne.symm same)).symm

theorem allocations_keys (positions : List InternalPosition) (acc : InsertionMap String Rat)
    (asset : String) : asset ∈ (positions.foldl addTo acc).keys ↔
      asset ∈ acc.keys ∨ ∃ position ∈ positions, position.assetId = asset := by
  induction positions generalizing acc with
  | nil => simp
  | cons position rest ih =>
    rw [List.foldl_cons, ih, mem_keys_addTo, or_assoc]
    simp

theorem allocations_positive {positions : List InternalPosition} (positive : AllPositive positions)
    {acc : InsertionMap String Rat} (before : ∀ asset amount, acc.get asset = some amount → 0 < amount) :
    ∀ asset amount, (positions.foldl addTo acc).get asset = some amount → 0 < amount := by
  induction positions generalizing acc with
  | nil => exact before
  | cons position rest ih =>
    have own := positive position List.mem_cons_self
    refine ih (fun p member => positive p (List.mem_cons_of_mem _ member)) ?_
    apply InsertionMap.get_set_all _ before
    cases held : acc.get position.assetId with
    | none => simpa using own
    | some amount =>
      have some_held := before position.assetId amount held
      rw [Option.getD_some]
      linarith

theorem allocations_eq (positions : List InternalPosition) :
    allocations positions = positions.foldl addTo InsertionMap.empty := rfl

end Grouping

section Shares

/- A loop none of whose steps fails. -/
theorem mapM_some {Item Image : Type} {f : Item → Option Image} {g : Item → Image}
    {items : List Item} (each : ∀ item ∈ items, f item = some (g item)) :
    items.mapM f = some (items.map g) := by
  induction items with
  | nil => rfl
  | cons item rest ih =>
    have later := ih fun other member => each other (List.mem_cons_of_mem _ member)
    rw [List.mapM_cons, each item List.mem_cons_self, later]
    rfl

variable {positions : List InternalPosition}

theorem amounts_positive (positive : AllPositive positions) :
    ∀ e ∈ (allocations positions).entries, 0 < e.2 := by
  intro e member
  have none_before : ∀ asset amount, (InsertionMap.empty : InsertionMap String Rat).get asset =
      some amount → 0 < amount := by
    intro asset amount held
    cases held
  rw [allocations_eq] at member
  exact allocations_positive positive none_before e.1 e.2 ((InsertionMap.get_iff_mem _).mpr member)

theorem amounts_sum (positions : List InternalPosition) :
    ((allocations positions).entries.map Prod.snd).sum = totalStaked positions := by
  have sum := allocations_sum positions InsertionMap.empty
  have nothing : sumOf InsertionMap.empty = 0 := rfl
  rw [nothing, zero_add] at sum
  exact sum

theorem amount_le_total (positive : AllPositive positions) :
    ∀ e ∈ (allocations positions).entries, e.2 ≤ totalStaked positions := by
  intro e member
  rw [← amounts_sum]
  refine List.single_le_sum ?_ e.2 (List.mem_map_of_mem member)
  intro amount listed
  obtain ⟨other, other_member, rfl⟩ := List.mem_map.mp listed
  exact (amounts_positive positive other other_member).le

theorem total_positive (positive : AllPositive positions) {e : String × Rat}
    (member : e ∈ (allocations positions).entries) : 0 < totalStaked positions :=
  (amounts_positive positive e member).trans_le (amount_le_total positive e member)

theorem size_positive {e : String × Rat} (member : e ∈ (allocations positions).entries) :
    (0 : Rat) < (allocations positions).size := by
  exact_mod_cast List.length_pos_of_mem member

theorem listed (positions : List InternalPosition) :
    (optimizePortfolio positions).recommendedRebalance.map Allocation.assetId =
      (allocations positions).keys := by
  simp only [optimizePortfolio, List.map_map, Function.comp_def]
  rfl

theorem checked_divisions (positive : AllPositive positions) :
    rebalanceChecked positions = some (optimizePortfolio positions).recommendedRebalance := by
  have total (e : String × Rat) (member : e ∈ (allocations positions).entries) :=
    (total_positive positive member).ne'
  have size (e : String × Rat) (member : e ∈ (allocations positions).entries) :=
    (size_positive member).ne'
  apply mapM_some
  intro e member
  simp [divide, total e member, size e member]

/- The exact columns sum to 100. -/
theorem shares_sum (positive : AllPositive positions) (some_held : positions ≠ []) :
    ((allocations positions).entries.map fun e => e.2 / totalStaked positions * 100).sum = 100 := by
  obtain ⟨first, rest, rfl⟩ := List.exists_cons_of_ne_nil some_held
  have key : first.assetId ∈ (allocations (first :: rest)).keys := by
    rw [allocations_eq, allocations_keys]
    exact Or.inr ⟨first, List.mem_cons_self, rfl⟩
  obtain ⟨e, member, _⟩ := List.mem_map.mp key
  have total := (total_positive positive member).ne'
  have scaled : ((allocations (first :: rest)).entries.map fun e =>
      e.2 / totalStaked (first :: rest) * 100).sum =
        ((allocations (first :: rest)).entries.map Prod.snd).sum *
          (100 / totalStaked (first :: rest)) := by
    rw [← List.sum_map_mul_right]
    congr 1
    apply List.map_congr_left
    intro entry _
    ring
  rw [scaled, amounts_sum, mul_div_cancel₀ _ total]

theorem equal_sum (some_held : positions ≠ []) :
    ((allocations positions).entries.map fun _ =>
      1 / ((allocations positions).size : Rat) * 100).sum = 100 := by
  obtain ⟨first, rest, rfl⟩ := List.exists_cons_of_ne_nil some_held
  have key : first.assetId ∈ (allocations (first :: rest)).keys := by
    rw [allocations_eq, allocations_keys]
    exact Or.inr ⟨first, List.mem_cons_self, rfl⟩
  obtain ⟨e, member, _⟩ := List.mem_map.mp key
  have size := (size_positive member).ne'
  rw [List.map_const', List.sum_replicate, nsmul_eq_mul]
  have same : ((allocations (first :: rest)).entries.length : Rat) =
    (allocations (first :: rest)).size := rfl
  rw [same, ← mul_assoc, mul_one_div_cancel size, one_mul]

theorem rounded_adds_up {values : List Rat} (whole : values.sum = 100) :
    AddsUp (values.map (toFixed 2)) := by
  have error (x : Rat) : |toFixed 2 x - x| ≤ 1 / 200 := by
    have off := toFixed_error 2 x
    norm_num at off ⊢
    exact off
  have off := sum_rounded error values
  rw [whole] at off
  rw [AddsUp, List.length_map]
  exact off

theorem allocates_safely (positive : AllPositive positions) :
    AllocatesSafely positions (optimizePortfolio positions).recommendedRebalance := by
  constructor
  · exact checked_divisions positive
  · rw [listed]
    exact (allocations positions).distinct
  · intro asset
    rw [listed, allocations_eq, allocations_keys]
    exact or_iff_right (List.not_mem_nil)
  · intro allocation member
    obtain ⟨e, held, rfl⟩ := List.mem_map.mp member
    have total := total_positive positive held
    have share_nonneg : 0 ≤ e.2 / totalStaked positions * 100 :=
      mul_nonneg (div_nonneg (amounts_positive positive e held).le total.le) (by norm_num)
    have share_le : e.2 / totalStaked positions * 100 ≤ 100 := by
      have part := (div_le_one total).mpr (amount_le_total positive e held)
      linarith
    constructor
    · exact toFixed_nonneg share_nonneg 2
    · exact_mod_cast toFixed_le (lt_of_le_of_lt share_le (by norm_num)) share_nonneg
        (by exact_mod_cast share_le : _ ≤ ((100 : Nat) : Rat)) 2
  · intro some_held
    have rounded := rounded_adds_up (shares_sum positive some_held)
    simp only [optimizePortfolio, List.map_map, Function.comp_def] at rounded ⊢
    exact rounded
  · intro some_held
    have rounded := rounded_adds_up (equal_sum some_held)
    simp only [optimizePortfolio, List.map_map, Function.comp_def] at rounded ⊢
    exact rounded

end Shares

/-- In every reachable state the allocations computed for a staker, and those of any view shown,
    are safe. -/
theorem portfolio_allocations_safe {past : List (PortfolioCall × PortfolioAnswer)}
    {service : PortfolioService} (run : portfolioMachine.Run Machine.anything past service)
    (staker : String) :
    (∀ positions, service.portfolioData.get staker = some positions →
      AllocatesSafely positions (optimizePortfolio positions).recommendedRebalance) ∧
    ∀ now view, (service.getPortfolioView staker now).2 = .ok (.view view) →
      AllocatesSafely view.positions view.optimizedAllocation.recommendedRebalance := by
  have safe : ∀ positions, service.portfolioData.get staker = some positions →
      AllocatesSafely positions (optimizePortfolio positions).recommendedRebalance := by
    intro positions stored
    apply allocates_safely
    have positive := (conserved_always run staker).1
    rw [positionsOf, stored] at positive
    exact positive
  refine ⟨safe, ?_⟩
  intro now view shown
  obtain ⟨positions, stored, same⟩ := (cached_views_coherent run staker now).1 _ shown
  obtain rfl := CachedValue.view.inj same
  exact safe positions stored

/-- Two assets staked in one request. -/
def stakeTwoAssets : MultiAssetStakeRequest :=
  ⟨"alice", [⟨"ASTR", 10, 30⟩, ⟨"USDC", 50, 30⟩, ⟨"ASTR", 20, 30⟩]⟩

theorem portfolio_allocations_safe_two_assets :
    let staked := initial.stakeMulti stakeTwoAssets 0
    ∀ positions, staked.1.portfolioData.get "alice" = some positions →
      AllocatesSafely positions (optimizePortfolio positions).recommendedRebalance := by
  intro staked
  have run : portfolioMachine.Run Machine.anything
      [(.stakeMulti stakeTwoAssets 0, answering (.staked "alice") staked.2)] staked.1 :=
    Machine.Run.start.next trivial rfl
  exact (portfolio_allocations_safe run "alice").1

end PortfolioService
end AstraPort.Staking
