import Mathlib.Data.List.Basic
import Mathlib.Data.Char

/- Strings of ECMAScript: sequences of 16-bit code units, in which a character beyond the
   basic plane is a pair of surrogates and a surrogate may stand alone. -/
namespace AstraPort

abbrev JsString := List UInt16

instance jsString_lawful : LawfulBEq JsString := inferInstanceAs (LawfulBEq (List UInt16))

def isHighSurrogate (u : UInt16) : Bool := decide (0xD800 ≤ u.toNat ∧ u.toNat < 0xDC00)

def isLowSurrogate (u : UInt16) : Bool := decide (0xDC00 ≤ u.toNat ∧ u.toNat < 0xE000)

/-- The character of a surrogate pair. -/
def pairedChar (high low : UInt16) : Char :=
  Char.ofNat (0x10000 + (high.toNat - 0xD800) * 0x400 + (low.toNat - 0xDC00))

/-- The character of a code unit that is no surrogate. -/
def plainChar (u : UInt16) : Char := Char.ofNat u.toNat

/-- The code units of a character: one, or a pair of surrogates. -/
def codeUnits (c : Char) : JsString :=
  if c.toNat < 0x10000 then [UInt16.ofNat c.toNat]
  else [UInt16.ofNat (0xD800 + (c.toNat - 0x10000) / 0x400),
        UInt16.ofNat (0xDC00 + (c.toNat - 0x10000) % 0x400)]

def JsString.ofString (text : String) : JsString := text.toList.flatMap codeUnits

theorem toNat_ofNat_char {n : Nat} (valid : n.isValidChar) : (Char.ofNat n).toNat = n := by
  rw [Char.ofNat, dif_pos valid]
  rfl

theorem plainChar_toNat {u : UInt16} (high : isHighSurrogate u = false)
    (low : isLowSurrogate u = false) : (plainChar u).toNat = u.toNat := by
  have bound := u.toNat_lt
  simp only [isHighSurrogate, isLowSurrogate, decide_eq_false_iff_not, not_and, not_lt] at high low
  apply toNat_ofNat_char
  unfold Nat.isValidChar
  omega

theorem pairedChar_toNat {high low : UInt16} (isHigh : isHighSurrogate high = true)
    (isLow : isLowSurrogate low = true) :
    (pairedChar high low).toNat =
      0x10000 + (high.toNat - 0xD800) * 0x400 + (low.toNat - 0xDC00) := by
  simp only [isHighSurrogate, isLowSurrogate, decide_eq_true_eq] at isHigh isLow
  apply toNat_ofNat_char
  unfold Nat.isValidChar
  omega

theorem pairedChar_astral {high low : UInt16} (isHigh : isHighSurrogate high = true)
    (isLow : isLowSurrogate low = true) : 0x10000 ≤ (pairedChar high low).toNat := by
  rw [pairedChar_toNat isHigh isLow]
  omega

theorem codeUnits_plain {u : UInt16} (high : isHighSurrogate u = false)
    (low : isLowSurrogate u = false) : codeUnits (plainChar u) = [u] := by
  have bound := u.toNat_lt
  rw [codeUnits, plainChar_toNat high low, if_pos bound, UInt16.ofNat_toNat]

theorem codeUnits_paired {high low : UInt16} (isHigh : isHighSurrogate high = true)
    (isLow : isLowSurrogate low = true) : codeUnits (pairedChar high low) = [high, low] := by
  have astral := pairedChar_astral isHigh isLow
  have number := pairedChar_toNat isHigh isLow
  simp only [isHighSurrogate, isLowSurrogate, decide_eq_true_eq] at isHigh isLow
  have first : 0xD800 + ((pairedChar high low).toNat - 0x10000) / 0x400 = high.toNat := by omega
  have second : 0xDC00 + ((pairedChar high low).toNat - 0x10000) % 0x400 = low.toNat := by omega
  rw [codeUnits, if_neg (by omega), first, second, UInt16.ofNat_toNat, UInt16.ofNat_toNat]

theorem char_ranges (c : Char) : c.toNat < 0xD800 ∨ 0xDFFF < c.toNat ∧ c.toNat < 0x110000 := c.valid

theorem ofNat_unit_inj {m n : Nat} (small : m < 0x10000) (small' : n < 0x10000)
    (same : UInt16.ofNat m = UInt16.ofNat n) : m = n := by
  have same := congrArg UInt16.toNat same
  rwa [UInt16.toNat_ofNat', UInt16.toNat_ofNat', Nat.mod_eq_of_lt small,
    Nat.mod_eq_of_lt small'] at same

/- No character's units begin those of another. -/
theorem codeUnits_append_inj {c d : Char} {rest rest' : JsString}
    (same : codeUnits c ++ rest = codeUnits d ++ rest') : c = d ∧ rest = rest' := by
  have rangeC := char_ranges c
  have rangeD := char_ranges d
  suffices numbers : c.toNat = d.toNat ∧ rest = rest' from ⟨Char.toNat_inj.mp numbers.1, numbers.2⟩
  unfold codeUnits at same
  split at same <;> split at same
  · obtain ⟨units, rests⟩ := List.cons.inj same
    exact ⟨ofNat_unit_inj (by omega) (by omega) units, rests⟩
  · -- a character of the basic plane is no surrogate
    obtain ⟨units, -⟩ := List.cons.inj same
    have := ofNat_unit_inj (by omega) (by omega) units
    omega
  · obtain ⟨units, -⟩ := List.cons.inj same
    have := ofNat_unit_inj (by omega) (by omega) units
    omega
  · obtain ⟨highs, more⟩ := List.cons.inj same
    obtain ⟨lows, rests⟩ := List.cons.inj more
    have highs := ofNat_unit_inj (by omega) (by omega) highs
    have lows := ofNat_unit_inj (by omega) (by omega) lows
    exact ⟨by omega, rests⟩

theorem codeUnits_ne_nil (c : Char) : codeUnits c ≠ [] := by
  unfold codeUnits
  split <;> exact List.cons_ne_nil _ _

theorem flatMap_codeUnits_inj {cs ds : List Char}
    (same : cs.flatMap codeUnits = ds.flatMap codeUnits) : cs = ds := by
  induction cs generalizing ds with
  | nil =>
    cases ds with
    | nil => rfl
    | cons d ds => simp [codeUnits_ne_nil] at same
  | cons c cs ih =>
    cases ds with
    | nil => simp [codeUnits_ne_nil] at same
    | cons d ds =>
      rw [List.flatMap_cons, List.flatMap_cons] at same
      obtain ⟨rfl, rests⟩ := codeUnits_append_inj same
      rw [ih rests]

/- A text is known by its code units. -/
theorem JsString.ofString_inj {text text' : String} :
    JsString.ofString text = JsString.ofString text' ↔ text = text' :=
  ⟨fun same => String.toList_inj.mp (flatMap_codeUnits_inj same), fun same => by rw [same]⟩

end AstraPort
