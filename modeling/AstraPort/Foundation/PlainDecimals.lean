import AstraPort.Foundation.Magnitudes
import Mathlib.Algebra.Order.Field.Power
import Mathlib.Tactic.Linarith
import Mathlib.Tactic.Positivity
import Mathlib.Tactic.Ring

/- Numbers in full decimal notation, without an exponent; where Number::toString writes them
   so, told by what they are worth. -/
namespace AstraPort.JsNumber

/-- The digits before the decimal point, a zero if there are none. -/
def wholeDigits (x : JsNumber) : List (Fin 10) :=
  if x.point ≤ 0 then [0]
  else x.digits.take x.point.toNat ++ List.replicate (x.point.toNat - x.digits.length) 0

def fractionDigits (x : JsNumber) : List (Fin 10) :=
  if x.point ≤ 0 then List.replicate (-x.point).toNat 0 ++ x.digits
  else x.digits.drop x.point.toNat

def plainText (x : JsNumber) : List Char :=
  (if x.negative then ['-'] else []) ++ (x.wholeDigits.map digitChar ++
    if x.fractionDigits = [] then [] else '.' :: x.fractionDigits.map digitChar)

section Notation
variable {x : JsNumber}

theorem of_no_digits (none : x.digits = []) : x = zero := by
  have normal := x.normal
  rw [if_pos none] at normal
  obtain ⟨negative, digits, point, _⟩ := x
  simp only at none normal
  obtain ⟨rfl, rfl⟩ := normal
  subst none
  rfl

theorem wholeDigits_ne_nil (x : JsNumber) : x.wholeDigits ≠ [] := by
  unfold wholeDigits
  split
  · simp
  · intro empty
    have size := congrArg List.length empty
    rw [List.length_append, List.length_take, List.length_replicate, List.length_nil] at size
    omega

/- The parts of a number that begins at or behind the decimal point. -/
theorem parts_small (small : x.point ≤ 0) : x.wholeDigits = [0] ∧
    x.fractionDigits = List.replicate (-x.point).toNat 0 ++ x.digits := by
  rw [wholeDigits, fractionDigits, if_pos small, if_pos small]
  exact ⟨rfl, rfl⟩

theorem parts_whole (begun : 0 < x.point) (reaches : x.digits.length ≤ x.point) :
    x.wholeDigits = x.digits ++ List.replicate (x.point.toNat - x.digits.length) 0 ∧
      x.fractionDigits = [] := by
  rw [wholeDigits, fractionDigits, if_neg (by omega), if_neg (by omega),
    List.take_of_length_le (by omega), List.drop_of_length_le (by omega)]
  exact ⟨rfl, rfl⟩

theorem parts_split (begun : 0 < x.point) (within : x.point < x.digits.length) :
    x.wholeDigits = x.digits.take x.point.toNat ∧
      x.fractionDigits = x.digits.drop x.point.toNat := by
  rw [wholeDigits, fractionDigits, if_neg (by omega), if_neg (by omega),
    show x.point.toNat - x.digits.length = 0 by omega, List.replicate_zero, List.append_nil]
  exact ⟨rfl, rfl⟩

/- A number that is near the decimal point is written in full. -/
theorem text_plain (near : x = zero ∨ (-6 < x.point ∧ x.point ≤ 21)) : x.text = x.plainText := by
  by_cases none : x.digits = []
  · rw [of_no_digits none]
    rfl
  · have near := near.resolve_left fun isZero => none (by rw [isZero]; rfl)
    have some : 0 < x.digits.length := List.length_pos_of_ne_nil none
    have zero : digitChar 0 = '0' := rfl
    unfold text plainText magnitudeText
    rw [if_neg none]
    congr 1
    rw [List.length_map]
    by_cases small : x.point ≤ 0
    · obtain ⟨whole, fraction⟩ := parts_small small
      rw [if_neg (by omega), if_neg (by omega), if_pos ⟨by omega, small⟩, whole, fraction,
        if_neg (by simp [none])]
      simp [zero]
    · by_cases reaches : x.digits.length ≤ x.point
      · obtain ⟨whole, fraction⟩ := parts_whole (by omega) reaches
        rw [if_pos ⟨reaches, near.2⟩, whole, fraction, if_pos rfl]
        simp [zero]
      · have begun : 0 < x.point := by omega
        obtain ⟨whole, fraction⟩ := parts_split begun (by omega)
        have more : x.digits.drop x.point.toNat ≠ [] := by
          rw [Ne, List.drop_eq_nil_iff]
          omega
        rw [if_neg (by omega), if_pos ⟨by omega, near.2⟩, whole, fraction, if_neg more]
        simp

/- Any other number is written with an exponent. -/
theorem text_exponent (far : ¬ (x = zero ∨ (-6 < x.point ∧ x.point ≤ 21))) : 'e' ∈ x.text := by
  obtain ⟨nonzero, range⟩ := not_or.mp far
  have some : x.digits ≠ [] := fun none => nonzero (of_no_digits none)
  have size : 0 < x.digits.length := List.length_pos_of_ne_nil some
  have notWhole : ¬ ((x.digits.length : Int) ≤ x.point ∧ x.point ≤ 21) := by omega
  have notSplit : ¬ (0 < x.point ∧ x.point ≤ 21) := by omega
  have notSmall : ¬ (-6 < x.point ∧ x.point ≤ 0) := by omega
  unfold text magnitudeText
  rw [if_neg some, List.length_map, if_neg notWhole, if_neg notSplit, if_neg notSmall]
  simp

/- Read without its exponent, a number is itself. -/
theorem ofDigits_plain (x : JsNumber) :
    ofDigits x.negative (x.wholeDigits ++ x.fractionDigits) x.wholeDigits.length = x := by
  by_cases none : x.digits = []
  · rw [of_no_digits none]
    rfl
  · by_cases small : x.point ≤ 0
    · obtain ⟨whole, fraction⟩ := parts_small small
      have padded := ofDigits_padded x (1 + (-x.point).toNat) 0 none
      have width : x.point + ((1 + (-x.point).toNat : Nat) : Int) = 1 := by omega
      rw [width, List.replicate_add] at padded
      rw [whole, fraction]
      simpa using padded
    · by_cases reaches : x.digits.length ≤ x.point
      · obtain ⟨whole, fraction⟩ := parts_whole (by omega) reaches
        have padded := ofDigits_padded x 0 (x.point.toNat - x.digits.length) none
        have width : ((x.digits.length + (x.point.toNat - x.digits.length) : Nat) : Int) =
            x.point := by omega
        rw [whole, fraction, List.append_nil, List.length_append, List.length_replicate, width]
        simpa using padded
      · have begun : 0 < x.point := by omega
        obtain ⟨whole, fraction⟩ := parts_split begun (by omega)
        have padded := ofDigits_padded x 0 0 none
        have width : ((min x.point.toNat x.digits.length : Nat) : Int) = x.point := by omega
        rw [whole, fraction, List.take_append_drop, List.length_take, width]
        simpa using padded

/-- How many digits stand behind the decimal point. -/
def decimals (x : JsNumber) : Nat := x.fractionDigits.length

end Notation
section Worth

theorem digitsValue_cons (d : Fin 10) (ds : List (Fin 10)) :
    digitsValue (d :: ds) = d.val * 10 ^ ds.length + digitsValue ds := by
  have from_any (ds : List (Fin 10)) (n : Nat) : ds.foldl (fun n d => 10 * n + d.val) n =
      n * 10 ^ ds.length + digitsValue ds := by
    induction ds generalizing n with
    | nil => simp [digitsValue]
    | cons d ds ih =>
      rw [digitsValue, List.foldl_cons, List.foldl_cons, ih, ih (10 * 0 + d.val), List.length_cons,
        pow_succ]
      ring
  rw [digitsValue, List.foldl_cons, from_any, Nat.mul_zero, Nat.zero_add]

theorem digitsValue_append (ds es : List (Fin 10)) :
    digitsValue (ds ++ es) = digitsValue ds * 10 ^ es.length + digitsValue es := by
  induction ds with
  | nil => simp [digitsValue]
  | cons d ds ih =>
    rw [List.cons_append, digitsValue_cons, digitsValue_cons, ih, List.length_append, pow_add]
    ring

theorem digitsValue_zeros {zeros : List (Fin 10)} (all : ∀ d ∈ zeros, d = 0) :
    digitsValue zeros = 0 := by
  induction zeros with
  | nil => rfl
  | cons d zeros ih =>
    obtain ⟨rfl, others⟩ := List.forall_mem_cons.mp all
    rw [digitsValue_cons, ih others, Fin.val_zero, Nat.zero_mul]

/- Zeros in front say nothing, zeros behind a power of ten. -/
theorem digitsValue_dropWhile (digits : List (Fin 10)) :
    digitsValue digits = digitsValue (digits.dropWhile fun d => decide (d = 0)) := by
  have zeros : ∀ d ∈ digits.takeWhile fun d => decide (d = 0), d = 0 := by
    intro d member
    simpa using List.mem_takeWhile_imp member
  have parts := List.takeWhile_append_dropWhile (p := fun d => decide (d = 0)) (l := digits)
  calc digitsValue digits = digitsValue (digits.takeWhile (fun d => decide (d = 0)) ++
        digits.dropWhile fun d => decide (d = 0)) := by rw [parts]
    _ = _ := by rw [digitsValue_append, digitsValue_zeros zeros, Nat.zero_mul, Nat.zero_add]

theorem digitsValue_rdropWhile (digits : List (Fin 10)) :
    ∃ k, digits.length = (digits.rdropWhile fun d => decide (d = 0)).length + k ∧
      digitsValue digits = digitsValue (digits.rdropWhile fun d => decide (d = 0)) * 10 ^ k := by
  induction digits using List.reverseRecOn with
  | nil => exact ⟨0, rfl, rfl⟩
  | append_singleton digits d ih =>
    by_cases zero : d = 0
    · obtain ⟨k, length, worth⟩ := ih
      refine ⟨k + 1, ?_, ?_⟩
      · rw [List.rdropWhile_concat_pos _ _ _ (by simp [zero]), List.length_append, length]
        rfl
      · rw [List.rdropWhile_concat_pos _ _ _ (by simp [zero]), digitsValue_append, worth, zero,
          show digitsValue [0] = 0 from rfl, List.length_singleton, pow_one, Nat.add_zero,
          Nat.mul_assoc, ← pow_succ]
    · rw [List.rdropWhile_concat_neg _ _ _ (by simp [zero])]
      exact ⟨0, rfl, by rw [pow_zero, mul_one]⟩

theorem digitsValue_lt (ds : List (Fin 10)) : digitsValue ds < 10 ^ ds.length := by
  induction ds with
  | nil => simp [digitsValue]
  | cons d ds ih =>
    have digit := d.isLt
    rw [digitsValue_cons, List.length_cons, pow_succ]
    nlinarith

theorem le_digitsValue {d : Fin 10} (ds : List (Fin 10)) (lead : d ≠ 0) :
    10 ^ ds.length ≤ digitsValue (d :: ds) := by
  have positive : 1 ≤ d.val := Nat.one_le_iff_ne_zero.mpr fun none => lead (Fin.ext none)
  rw [digitsValue_cons]
  calc 10 ^ ds.length ≤ d.val * 10 ^ ds.length := Nat.le_mul_of_pos_left _ positive
    _ ≤ d.val * 10 ^ ds.length + digitsValue ds := Nat.le_add_right _ _

variable {x : JsNumber}

theorem abs_value (x : JsNumber) :
    |x.value| = digitsValue x.digits * (10 : Rat) ^ (x.point - x.digits.length) := by
  have positive : 0 ≤ (digitsValue x.digits : Rat) * (10 : Rat) ^ (x.point - x.digits.length) := by
    positivity
  rw [value, mul_assoc, abs_mul, abs_of_nonneg positive]
  cases x.negative with
  | false => simp
  | true => simp

/- The point tells what a number is worth up to a factor of ten. -/
theorem value_bounds (some : x.digits ≠ []) :
    (10 : Rat) ^ (x.point - 1) ≤ |x.value| ∧ |x.value| < 10 ^ x.point := by
  obtain ⟨d, ds, digits⟩ := List.exists_cons_of_ne_nil some
  have normal := x.normal
  rw [if_neg some, digits] at normal
  have lead : d ≠ 0 := fun zero => normal.1 (by rw [zero]; rfl)
  have least : (10 : Rat) ^ ds.length ≤ digitsValue x.digits := by
    rw [digits]
    exact_mod_cast le_digitsValue ds lead
  have most : (digitsValue x.digits : Rat) < 10 ^ x.digits.length := by
    exact_mod_cast digitsValue_lt x.digits
  have scale : (0 : Rat) < 10 ^ (x.point - x.digits.length) := by positivity
  have size : x.digits.length = ds.length + 1 := by rw [digits, List.length_cons]
  rw [abs_value]
  constructor
  · calc (10 : Rat) ^ (x.point - 1)
        = 10 ^ ds.length * 10 ^ (x.point - x.digits.length) := by
          rw [← zpow_natCast, ← zpow_add₀ (by norm_num), size]
          congr 1
          push_cast
          ring
      _ ≤ _ := mul_le_mul_of_nonneg_right least scale.le
  · calc (digitsValue x.digits : Rat) * 10 ^ (x.point - x.digits.length)
        < 10 ^ x.digits.length * 10 ^ (x.point - x.digits.length) :=
          mul_lt_mul_of_pos_right most scale
      _ = 10 ^ x.point := by
          rw [← zpow_natCast, ← zpow_add₀ (by norm_num)]
          congr 1
          ring

/- Whatever zeros stand around its digits, a number is worth what they write. -/
theorem value_ofDigits (negative : Bool) (digits : List (Fin 10)) (point : Int) :
    (ofDigits negative digits point).value =
      (if negative then -1 else 1) * digitsValue digits * 10 ^ (point - digits.length) := by
  have shorter := (List.dropWhile_sublist (l := digits) fun d => decide (d = 0)).length_le
  obtain ⟨k, length, worth⟩ :=
    digitsValue_rdropWhile (digits.dropWhile fun d => decide (d = 0))
  rw [digitsValue_dropWhile digits, worth]
  unfold ofDigits
  dsimp only
  split
  · rename_i none
    simp [none, digitsValue, value, zero]
  · have exponent : point -
        ((digits.length - (digits.dropWhile fun d => decide (d = 0)).length : Nat) : Int) -
        ((digits.dropWhile fun d => decide (d = 0)).rdropWhile fun d => decide (d = 0)).length =
          k + (point - digits.length) := by omega
    rw [value]
    dsimp only
    rw [exponent, zpow_add₀ (by norm_num), zpow_natCast]
    push_cast
    ring

/-- Every natural number is what a number is worth. -/
theorem exists_value (n : Nat) : ∃ x : JsNumber, x.value = n := by
  have digits : ∃ ds, digitsValue ds = n := by
    induction n using Nat.strongRecOn with
    | ind n ih =>
      by_cases small : n < 10
      · exact ⟨[⟨n, small⟩], by simp [digitsValue]⟩
      · obtain ⟨ds, front⟩ := ih (n / 10) (by omega)
        refine ⟨ds ++ [⟨n % 10, by omega⟩], ?_⟩
        rw [digitsValue_append, front, List.length_singleton, pow_one]
        simpa [digitsValue] using Nat.div_add_mod' n 10
  obtain ⟨ds, worth⟩ := digits
  refine ⟨ofDigits false ds ds.length, ?_⟩
  rw [value_ofDigits, worth, Int.sub_self, zpow_zero]
  simp

/- Near the decimal point are zero and the numbers from 10⁻⁶ up to 10²¹. -/
theorem near_iff : (x = zero ∨ (-6 < x.point ∧ x.point ≤ 21)) ↔
    (x = zero ∨ ((1 : Rat) / 10 ^ 6 ≤ |x.value| ∧ |x.value| < 10 ^ 21)) := by
  by_cases isZero : x = zero
  · simp [isZero]
  · obtain ⟨least, most⟩ := value_bounds fun none => isZero (of_no_digits none)
    have small : (1 : Rat) / 10 ^ 6 = 10 ^ (-6 : Int) := by norm_num
    have large : (10 : Rat) ^ 21 = 10 ^ (21 : Int) := by norm_num
    have ten : (1 : Rat) < 10 := by norm_num
    rw [or_iff_right isZero, or_iff_right isZero, small, large]
    constructor
    · intro range
      constructor
      · exact ((zpow_le_zpow_iff_right₀ ten).mpr (by omega)).trans least
      · exact most.trans_le ((zpow_le_zpow_iff_right₀ ten).mpr range.2)
    · intro range
      have above := (zpow_lt_zpow_iff_right₀ ten).mp (range.1.trans_lt most)
      have below := (zpow_lt_zpow_iff_right₀ ten).mp (least.trans_lt range.2)
      omega

end Worth
end AstraPort.JsNumber
