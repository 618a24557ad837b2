import AstraPort.Foundation.JsValue
import Mathlib.Algebra.Order.Field.Rat

/- What numbers are worth: exact rationals, the infinities and NaN, and how ECMAScript
   compares them. -/
namespace AstraPort

inductive Magnitude where
  | finite (value : Rat)
  | infinity (negative : Bool)
  | nan
  deriving DecidableEq

/-- The operator <. -/
def Magnitude.less : Magnitude → Magnitude → Bool
  | .finite a, .finite b => decide (a < b)
  | .finite _, .infinity negative => !negative
  | .infinity negative, .finite _ => negative
  | .infinity negative, .infinity negative' => negative && !negative'
  | _, _ => false

/-- The operator <=, which NaN is never in. -/
def Magnitude.atMost (a b : Magnitude) : Bool := a ≠ .nan && b ≠ .nan && !b.less a

theorem Magnitude.atMost_iff {a b : Magnitude} :
    a.atMost b = true ↔ a ≠ .nan ∧ b ≠ .nan ∧ b.less a = false := by
  simp [atMost, and_assoc]

/- Where a number is not above the greater of two, it is not above the smaller. -/
theorem Magnitude.less_of_le {m : Magnitude} {a b : Rat} (le : a ≤ b)
    (within : m.less (.finite b) = false) : m.less (.finite a) = false := by
  cases m with
  | finite c =>
    simp only [less, decide_eq_false_iff_not, not_lt] at within ⊢
    exact le.trans within
  | infinity negative => exact within
  | nan => rfl

/-- The natural number that decimal digits write. -/
def digitsValue (digits : List (Fin 10)) : Nat := digits.foldl (fun n d => 10 * n + d.val) 0

def JsNumber.value (x : JsNumber) : Rat :=
  (if x.negative then -1 else 1) * digitsValue x.digits * 10 ^ (x.point - x.digits.length)

def JsNumeric.magnitude : JsNumeric → Magnitude
  | .finite x => .finite x.value
  | .negativeZero => .finite 0
  | .nan => .nan
  | .infinity negative => .infinity negative

end AstraPort
