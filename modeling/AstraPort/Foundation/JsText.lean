import AstraPort.Foundation.JsValue
import AstraPort.Foundation.Text
import Mathlib.Data.List.DropRight

/- Texts of UTF-16 units: how numbers are printed, and String.prototype.trim. -/
namespace AstraPort

/-- The units of a text of characters. -/
def unitsOf (text : List Char) : JsString := text.flatMap codeUnits

def printed (x : JsNumeric) : JsString := unitsOf x.text

def isBlankUnit (u : UInt16) : Bool := isBlank (Char.ofNat u.toNat)

namespace JsString

def trim (text : JsString) : JsString := (text.dropWhile isBlankUnit).rdropWhile isBlankUnit

/-- Neither the first nor the last unit is white space. -/
def Trimmed (text : JsString) : Prop :=
  (∀ u ∈ text.head?, isBlankUnit u = false) ∧ ∀ u ∈ text.getLast?, isBlankUnit u = false

theorem trim_trimmed (text : JsString) : Trimmed (trim text) := by
  constructor
  · intro u first
    obtain ⟨rest, parts⟩ := List.rdropWhile_prefix isBlankUnit (l := text.dropWhile isBlankUnit)
    have head : (text.dropWhile isBlankUnit).head? = some u := by
      have inside : ((text.dropWhile isBlankUnit).rdropWhile isBlankUnit).head? = some u := first
      rw [← parts, List.head?_append, inside]
      rfl
    have solid := List.head?_dropWhile_not isBlankUnit text
    rw [head] at solid
    simpa using solid
  · intro u last
    have some : trim text ≠ [] := by
      intro none
      rw [none] at last
      cases last
    have solid := List.rdropWhile_last_not isBlankUnit (text.dropWhile isBlankUnit) some
    rw [List.getLast?_eq_some_getLast some] at last
    cases last
    exact Bool.not_eq_true _ ▸ solid

theorem trim_of_trimmed {text : JsString} (trimmed : Trimmed text) : trim text = text := by
  have front : text.dropWhile isBlankUnit = text := by
    cases text with
    | nil => rfl
    | cons u units => rw [List.dropWhile_cons, trimmed.1 u rfl]; rfl
  rw [trim, front, List.rdropWhile_eq_self_iff]
  intro some
  simpa using trimmed.2 _ (List.getLast?_eq_some_getLast some)

end JsString
end AstraPort
