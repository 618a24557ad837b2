import AstraPort.Foundation.JsString

/- toLowerCase and toUpperCase: the mapping of ASCII letters, and the host's for all text, of
   which no more is known than that it maps ASCII text so. -/
namespace AstraPort

def lowerLetters (text : JsString) : JsString :=
  text.map fun u => if 65 ≤ u ∧ u ≤ 90 then u + 32 else u

/-- String.prototype.toLowerCase. -/
structure Casing where
  toLowerCase : JsString → JsString
  ascii : ∀ text : JsString, (∀ u ∈ text, u < 128) → toLowerCase text = lowerLetters text

/-- The casing that leaves all other text alone. -/
def asciiCasing : Casing := ⟨lowerLetters, fun _ _ => rfl⟩

theorem Casing.lower (casing : Casing) {text : JsString}
    (small : text.all (fun u => u < 128 ∧ ¬ (65 ≤ u ∧ u ≤ 90)) = true) :
    casing.toLowerCase text = text := by
  have units : ∀ u ∈ text, u < 128 ∧ ¬ (65 ≤ u ∧ u ≤ 90) := by
    simpa only [List.all_eq_true, decide_eq_true_eq] using small
  rw [casing.ascii text fun u member => (units u member).1, lowerLetters]
  nth_rewrite 2 [← List.map_id text]
  exact List.map_congr_left fun u member => if_neg (units u member).2

def upperLetters (text : JsString) : JsString :=
  text.map fun u => if 97 ≤ u ∧ u ≤ 122 then u - 32 else u

/-- String.prototype.toUpperCase. -/
structure UpperCasing where
  toUpperCase : JsString → JsString
  ascii : ∀ text : JsString, (∀ u ∈ text, u < 128) → toUpperCase text = upperLetters text

def asciiUpperCasing : UpperCasing := ⟨upperLetters, fun _ _ => rfl⟩

end AstraPort
