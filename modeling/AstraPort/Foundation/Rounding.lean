import Mathlib.Tactic.Linarith
import Mathlib.Tactic.Positivity
import AstraPort.Foundation.Host

/- Facts about the number and array functions of the host. -/
namespace AstraPort

theorem toFixed_nonneg {x : Rat} (nonnegative : 0 ≤ x) (digits : Nat) : 0 ≤ toFixed digits x := by
  unfold toFixed
  split
  · exact nonnegative
  · have scaled : 0 ≤ ⌊x * 10 ^ digits + 1 / 2⌋ := Int.floor_nonneg.mpr (by positivity)
    rw [if_neg (not_lt.mpr nonnegative)]
    exact div_nonneg (by exact_mod_cast scaled) (by positivity)

theorem toFixed_nonpos {x : Rat} (nonpositive : x ≤ 0) (digits : Nat) : toFixed digits x ≤ 0 := by
  rcases nonpositive.eq_or_lt with rfl | negative
  · norm_num [toFixed]
  · unfold toFixed
    split
    · exact nonpositive
    · have opposite : 0 ≤ -x := by linarith
      have scaled : 0 ≤ ⌊-x * 10 ^ digits + 1 / 2⌋ := Int.floor_nonneg.mpr (by positivity)
      rw [neg_nonpos]
      exact div_nonneg (by exact_mod_cast scaled) (by positivity)

/- Rounding to a multiple of 10^-digits is off by at most half of it. -/
theorem toFixed_error (digits : Nat) (x : Rat) :
    |toFixed digits x - x| ≤ 1 / (2 * 10 ^ digits) := by
  have scale : (0 : Rat) < 10 ^ digits := by positivity
  have nearest (y : Rat) : |(⌊y * 10 ^ digits + 1 / 2⌋ : Rat) / 10 ^ digits - y| ≤
      1 / (2 * 10 ^ digits) := by
    have below := Int.floor_le (y * 10 ^ digits + 1 / 2)
    have above := Int.lt_floor_add_one (y * 10 ^ digits + 1 / 2)
    have scaled : (⌊y * 10 ^ digits + 1 / 2⌋ : Rat) / 10 ^ digits - y =
        ((⌊y * 10 ^ digits + 1 / 2⌋ : Rat) - y * 10 ^ digits) / 10 ^ digits := by
      rw [sub_div, mul_div_cancel_right₀ y scale.ne']
    have half : (1 : Rat) / (2 * 10 ^ digits) = 1 / 2 / 10 ^ digits := by rw [div_div]
    rw [scaled, half, abs_div, abs_of_pos scale]
    apply div_le_div_of_nonneg_right _ scale.le
    rw [abs_le]
    constructor
    · linarith
    · linarith
  unfold toFixed
  split
  · rw [sub_self, abs_zero]
    positivity
  · split
    · have opposite := nearest (-x)
      rw [neg_mul] at opposite
      rw [neg_mul, ← abs_neg]
      convert opposite using 2
      ring
    · exact nearest x

/- Rounded summands are off by at most the sum of their errors. -/
theorem sum_rounded {round : Rat → Rat} {error : Rat} (close : ∀ x, |round x - x| ≤ error)
    (values : List Rat) : |(values.map round).sum - values.sum| ≤ error * values.length := by
  induction values with
  | nil => simp
  | cons x rest ih =>
    have first := close x
    have split : ((x :: rest).map round).sum - (x :: rest).sum =
        (round x - x) + ((rest.map round).sum - rest.sum) := by
      rw [List.map_cons, List.sum_cons, List.sum_cons]
      ring
    have together := abs_add_le (round x - x) ((rest.map round).sum - rest.sum)
    rw [split, List.length_cons]
    push_cast
    linarith

/- Whole bounds survive the rounding. -/
theorem toFixed_le {x : Rat} {bound : Nat} (small : x < 10 ^ 21) (nonnegative : 0 ≤ x)
    (below : x ≤ bound) (digits : Nat) : toFixed digits x ≤ bound := by
  have scale : (0 : Rat) < 10 ^ digits := by positivity
  have in_range : ¬ (10 : Rat) ^ 21 ≤ |x| := by
    rw [abs_of_nonneg nonnegative]
    exact not_le.mpr small
  rw [toFixed, if_neg in_range, if_neg (not_lt.mpr nonnegative), div_le_iff₀ scale]
  have scaled := mul_le_mul_of_nonneg_right below scale.le
  have under : x * 10 ^ digits + 1 / 2 < ((bound * 10 ^ digits : Nat) : Int) + 1 := by
    push_cast
    linarith
  have floor := Int.floor_lt.mpr (by exact_mod_cast under : x * 10 ^ digits + 1 / 2 <
    (((bound * 10 ^ digits : Nat) : Int) + 1 : Int))
  have whole : ⌊x * 10 ^ digits + 1 / 2⌋ ≤ ((bound * 10 ^ digits : Nat) : Int) := by omega
  exact_mod_cast whole

/- On numbers that are not negative rounding keeps the order. -/
theorem toFixed_le_toFixed {x y : Rat} (nonnegative : 0 ≤ x) (ordered : x ≤ y) (digits : Nat) :
    toFixed digits x ≤ toFixed digits y := by
  by_cases large : (10 : Rat) ^ 21 ≤ y
  · have kept : toFixed digits y = y := by
      rw [toFixed, if_pos (large.trans (le_abs_self y))]
    rw [kept]
    by_cases both : (10 : Rat) ^ 21 ≤ x
    · rw [toFixed, if_pos (both.trans (le_abs_self x))]
      exact ordered
    · have whole : x ≤ ((10 ^ 21 : Nat) : Rat) := by
        push_cast
        exact (not_le.mp both).le
      have below := toFixed_le (not_le.mp both) nonnegative whole digits
      push_cast at below
      exact below.trans large
  · have scale : (0 : Rat) < 10 ^ digits := by positivity
    have small (z : Rat) (from_zero : 0 ≤ z) (to_y : z ≤ y) : ¬ (10 : Rat) ^ 21 ≤ |z| := by
      rw [abs_of_nonneg from_zero]
      exact fun reached => large (reached.trans to_y)
    have positive : 0 ≤ y := nonnegative.trans ordered
    rw [toFixed, toFixed, if_neg (small x nonnegative ordered), if_neg (small y positive le_rfl),
      if_neg (not_lt.mpr nonnegative), if_neg (not_lt.mpr positive)]
    apply div_le_div_of_nonneg_right _ scale.le
    have scaled : x * 10 ^ digits + 1 / 2 ≤ y * 10 ^ digits + 1 / 2 := by
      have product := mul_le_mul_of_nonneg_right ordered scale.le
      linarith
    have floors := Int.floor_le_floor scaled
    exact_mod_cast floors

theorem toFixed_of_lt {x : Rat} (nonnegative : 0 ≤ x) (small : x < 10 ^ 21) (digits : Nat) :
    toFixed digits x = ⌊x * 10 ^ digits + 1 / 2⌋ / 10 ^ digits := by
  have in_range : ¬ (10 : Rat) ^ 21 ≤ |x| := by
    rw [abs_of_nonneg nonnegative]
    exact not_le.mpr small
  rw [toFixed, if_neg in_range, if_neg (not_lt.mpr nonnegative)]

/- Two numbers are rounded alike when they have the same nearest multiple. -/
theorem toFixed_eq_iff {x y : Rat} (hx : 0 ≤ x) (hy : 0 ≤ y) (small : x < 10 ^ 21)
    (small' : y < 10 ^ 21) (digits : Nat) : toFixed digits x = toFixed digits y ↔
      ⌊x * 10 ^ digits + 1 / 2⌋ = ⌊y * 10 ^ digits + 1 / 2⌋ := by
  have scale : (10 : Rat) ^ digits ≠ 0 := by positivity
  rw [toFixed_of_lt hx small, toFixed_of_lt hy small', div_left_inj' scale, Int.cast_inj]

/- A rounded number exceeds a bound from the middle of the first step above the bound on. -/
theorem lt_toFixed_iff (bound : Rat) {x : Rat} (nonnegative : 0 ≤ x) (small : x < 10 ^ 21)
    (digits : Nat) : bound < toFixed digits x ↔
      (⌊bound * 10 ^ digits⌋ : Rat) + 1 / 2 ≤ x * 10 ^ digits := by
  have scale : (0 : Rat) < 10 ^ digits := by positivity
  rw [toFixed_of_lt nonnegative small, lt_div_iff₀ scale, ← Int.floor_lt, ← Int.add_one_le_iff,
    Int.le_floor]
  push_cast
  constructor
  · intro above
    linarith
  · intro above
    linarith

theorem le_average {values : List Rat} {bound : Rat} (some_value : values ≠ [])
    (below : ∀ v ∈ values, bound ≤ v) : bound ≤ average values := by
  have count : (0 : Rat) < values.length := by exact_mod_cast List.length_pos_iff.mpr some_value
  have sum := List.card_nsmul_le_sum values bound below
  rw [nsmul_eq_mul] at sum
  rw [average, le_div_iff₀ count]
  linarith

theorem average_le {values : List Rat} {bound : Rat} (some_value : values ≠ [])
    (above : ∀ v ∈ values, v ≤ bound) : average values ≤ bound := by
  have count : (0 : Rat) < values.length := by exact_mod_cast List.length_pos_iff.mpr some_value
  have sum := List.sum_le_card_nsmul values bound above
  rw [nsmul_eq_mul] at sum
  rw [average, div_le_iff₀ count]
  linarith

theorem average_le_average {lower upper : List Rat} (some_lower : lower ≠ [])
    (some_upper : upper ≠ []) (ordered : ∀ u ∈ upper, ∀ l ∈ lower, l ≤ u) :
    average lower ≤ average upper :=
  le_average some_upper fun u member => average_le some_lower (ordered u member)

theorem sliceFrom_nil {Element : Type} (start : Int) :
    sliceFrom start ([] : List Element) = [] := by
  unfold sliceFrom
  split <;> exact List.drop_nil

theorem sliceFrom_all {Element : Type} {elements : List Element} {start : Int}
    (reaches : start ≤ -elements.length) : sliceFrom start elements = elements := by
  unfold sliceFrom
  split
  · rw [show elements.length - start.natAbs = 0 by omega, List.drop_zero]
  · have none_left : elements.length = 0 := by omega
    rw [show start.toNat = 0 by omega, List.drop_zero]

theorem map_sliceFrom {Element Image : Type} (f : Element → Image) (start : Int)
    (elements : List Element) :
    (sliceFrom start elements).map f = sliceFrom start (elements.map f) := by
  unfold sliceFrom
  split <;> simp [List.map_drop]

theorem sliceFrom_append {Element : Type} {last : Nat} (some_last : 0 < last)
    (elements more : List Element) :
    sliceFrom (-last) (sliceFrom (-last) elements ++ more) =
      sliceFrom (-last) (elements ++ more) := by
  have negative : (-(last : Int)) < 0 := by omega
  simp only [sliceFrom, if_pos negative, Int.natAbs_neg, Int.natAbs_natCast, List.length_append,
    List.length_drop, List.drop_append, List.drop_drop]
  congr 2 <;> omega

end AstraPort
