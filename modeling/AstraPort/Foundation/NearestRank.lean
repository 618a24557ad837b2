import Mathlib.Data.List.Basic
import Mathlib.Order.Lattice

/- Nearest-rank percentiles of a list of values, counted, and where they stand when the values are
   in order. -/
namespace AstraPort
variable {Value : Type} [LinearOrder Value]

/-- The smallest of the values that at least so many percent of them do not exceed. -/
structure NearestRank (percent : Nat) (values : List Value) (d : Value) : Prop where
  attained : d ∈ values
  enough : percent * values.length ≤ 100 * values.countP fun v => v ≤ d
  least : ∀ e ∈ values, percent * values.length ≤ (100 * values.countP fun v => v ≤ e) → d ≤ e

namespace NearestRank
variable {values others : List Value} {d e : Value} {percent higher : Nat}

theorem perm (rank : NearestRank percent values d) (same : values.Perm others) :
    NearestRank percent others d := by
  constructor
  · exact same.subset rank.attained
  · rw [← same.length_eq, ← same.countP_eq]
    exact rank.enough
  · intro e member enough
    rw [← same.length_eq, ← same.countP_eq] at enough
    exact rank.least e (same.symm.subset member) enough

/- A higher percentage asks for no smaller a value. -/
theorem mono (low : NearestRank percent values d) (high : NearestRank higher values e)
    (ordered : percent ≤ higher) : d ≤ e := by
  apply low.least e high.attained
  exact Nat.le_trans (Nat.mul_le_mul_right values.length ordered) high.enough

end NearestRank

section Sorted
variable {values : List Value} (sorted : values.Pairwise (· ≤ ·))
include sorted

theorem place_le_place {i j : Nat} (ordered : i ≤ j) (bound : j < values.length) :
    values[i] ≤ values[j] := by
  rcases Nat.lt_or_eq_of_le ordered with less | rfl
  · exact List.pairwise_iff_getElem.mp sorted i j (by omega) bound less
  · exact le_refl _

/- The value at a place is reached by all up to it. -/
theorem place_lt_count {place : Nat} (bound : place < values.length) :
    place < values.countP fun v => v ≤ values[place] := by
  have upto : ∀ v ∈ values.take (place + 1), v ≤ values[place] := by
    intro v member
    obtain ⟨i, inside, rfl⟩ := List.getElem_of_mem member
    rw [List.length_take] at inside
    rw [List.getElem_take]
    exact place_le_place sorted (by omega) bound
  have counted : (values.take (place + 1)).countP (fun v => v ≤ values[place]) = place + 1 := by
    rw [List.countP_eq_length.mpr fun v member => decide_eq_true (upto v member),
      List.length_take]
    omega
  have sublist := (List.take_sublist (place + 1) values).countP_le (p := fun v => v ≤ values[place])
  omega

/- A value below that at a place is reached by fewer. -/
theorem count_le_place {place : Nat} (bound : place < values.length) {e : Value}
    (below : e < values[place]) : (values.countP fun v => v ≤ e) ≤ place := by
  have beyond : (values.drop place).countP (fun v => v ≤ e) = 0 := by
    rw [List.countP_eq_zero]
    intro v member reached
    obtain ⟨i, inside, rfl⟩ := List.getElem_of_mem member
    rw [List.length_drop] at inside
    rw [List.getElem_drop, decide_eq_true_eq] at reached
    have ordered : values[place] ≤ values[place + i] :=
      place_le_place sorted (Nat.le_add_right place i) (by omega)
    exact absurd (lt_of_lt_of_le below ordered) (not_lt.mpr reached)
  have front := List.countP_le_length (p := fun v => decide (v ≤ e)) (l := values.take place)
  rw [List.length_take] at front
  rw [← List.take_append_drop place values, List.countP_append, beyond]
  omega

/- Where a percentile stands. -/
theorem nearestRank_at {percent place : Nat} (bound : place < values.length)
    (above : percent * values.length ≤ 100 * (place + 1))
    (below : 100 * place < percent * values.length) :
    NearestRank percent values values[place] := by
  constructor
  · exact List.getElem_mem bound
  · have count := place_lt_count sorted bound
    omega
  · intro e member enough
    by_contra less
    have few := count_le_place sorted bound (not_le.mp less)
    omega

end Sorted
end AstraPort
