import Mathlib.Data.List.Basic

/- Bounded lists of the newest elements, the newest first. -/
namespace AstraPort
variable {Element : Type} {bound : Nat}

theorem take_append_take (k : Nat) (front back : List Element) :
    (front ++ back.take k).take k = (front ++ back).take k := by
  rw [List.take_append, List.take_append, List.take_take, Nat.min_eq_left (Nat.sub_le _ _)]

/- Adding one and dropping the last when there are too many keeps the newest. -/
theorem push_recent (newest : Element) {elements : List Element}
    (bounded : elements.length ≤ bound) :
    (if bound < (newest :: elements).length then (newest :: elements).dropLast
    else newest :: elements) = (newest :: elements).take bound := by
  split
  · rename_i exceeds
    have full : (newest :: elements).length - 1 = bound := by
      rw [List.length_cons] at exceeds ⊢
      omega
    rw [List.dropLast_eq_take, full]
  · rename_i fits
    exact (List.take_of_length_le (Nat.le_of_not_lt fits)).symm

/- The same on top of a list that was cut to the bound before. -/
theorem push_take (newest : Element) (elements : List Element) :
    (newest :: elements.take bound).take bound = (newest :: elements).take bound :=
  take_append_take bound [newest] elements

end AstraPort
