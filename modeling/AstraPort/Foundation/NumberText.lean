import Mathlib.Tactic.Positivity
import AstraPort.Foundation.JsText
import AstraPort.Foundation.Magnitudes

/- Number and parseFloat on texts: the numeric literals they take, what these are worth exactly, and
   the double nearest to it. -/
namespace AstraPort

/-- The double nearest to a number that is not negative; none where it is infinite. -/
abbrev Nearest := Rat → Option Rat

/-- A numeric literal in a text. -/
inductive NumericLiteral where
  | whole (value : Nat)
  | decimal (negative : Bool) (value : Rat)
  | infinity (negative : Bool)
  deriving DecidableEq

def toDouble (nearest : Nearest) (negative : Bool) (value : Rat) : Magnitude :=
  match nearest value with
  | none => .infinity negative
  | some double => .finite (if negative then -double else double)

def NumericLiteral.worth (nearest : Nearest) : NumericLiteral → Magnitude
  | .whole value => toDouble nearest false value
  | .decimal negative value => toDouble nearest negative value
  | .infinity negative => .infinity negative

def isDecimalUnit (u : UInt16) : Bool := decide (48 ≤ u.toNat ∧ u.toNat ≤ 57)

/-- The natural number that decimal digits write. -/
def digitsNumber (digits : JsString) : Nat := digits.foldl (fun n u => 10 * n + (u.toNat - 48)) 0

def readSignUnit (text : JsString) : Bool × JsString :=
  if text.head? = some 45 then (true, text.tail)
  else if text.head? = some 43 then (false, text.tail)
  else (false, text)

/-- A point and the digits behind it, perhaps none. -/
def readPoint (text : JsString) : JsString × JsString :=
  if text.head? = some 46 then
    (text.tail.takeWhile isDecimalUnit, text.tail.dropWhile isDecimalUnit)
  else ([], text)

/-- The exponent; a letter e that no digits follow is not one. -/
def readPower (text : JsString) : Int × JsString :=
  let signed := readSignUnit text.tail
  let digits := signed.2.takeWhile isDecimalUnit
  if (text.head? = some 69 ∨ text.head? = some 101) ∧ digits ≠ [] then
    (if signed.1 then -digitsNumber digits else digitsNumber digits,
      signed.2.dropWhile isDecimalUnit)
  else (0, text)

/-- The longest StrUnsignedDecimalLiteral in front, Infinity apart, and the text behind it. -/
def readDecimal (text : JsString) : Option (Rat × JsString) :=
  let whole := text.takeWhile isDecimalUnit
  let fraction := readPoint (text.dropWhile isDecimalUnit)
  let power := readPower fraction.2
  if whole ++ fraction.1 = [] then none
  else some (digitsNumber (whole ++ fraction.1) * 10 ^ (power.1 - fraction.1.length), power.2)

def infinityWord : JsString := .ofString "Infinity"

/-- The longest StrDecimalLiteral in front. -/
def readStrDecimal (text : JsString) : Option (NumericLiteral × JsString) :=
  let signed := readSignUnit text
  if infinityWord.isPrefixOf signed.2 then
    some (.infinity signed.1, signed.2.drop infinityWord.length)
  else (readDecimal signed.2).map fun found => (.decimal signed.1 found.1, found.2)

/-- The value of a digit of any base up to sixteen. -/
def digitValue (u : UInt16) : Nat :=
  if u.toNat < 58 then u.toNat - 48 else if u.toNat < 91 then u.toNat - 55 else u.toNat - 87

def isDigitOf (base : Nat) (u : UInt16) : Bool :=
  decide (digitValue u < base ∧ (48 ≤ u.toNat ∧ u.toNat ≤ 57 ∨ 65 ≤ u.toNat ∧ u.toNat ≤ 70 ∨
    97 ≤ u.toNat ∧ u.toNat ≤ 102))

/-- The base that 0x, 0o or 0b announces. -/
def announcedBase (text : JsString) : Option Nat :=
  if text.head? ≠ some 48 then none
  else if text[1]? = some 88 ∨ text[1]? = some 120 then some 16
  else if text[1]? = some 79 ∨ text[1]? = some 111 then some 8
  else if text[1]? = some 66 ∨ text[1]? = some 98 then some 2
  else none

/-- A text that is a StringNumericLiteral as a whole; none of it stands for zero. -/
def readNumber (text : JsString) : Option NumericLiteral :=
  let text := JsString.trim text
  if text = [] then some (.whole 0)
  else match announcedBase text with
    | some base =>
      let digits := text.drop 2
      if digits ≠ [] ∧ digits.all (isDigitOf base) then
        some (.whole (digits.foldl (fun n u => base * n + digitValue u) 0))
      else none
    | none =>
      match readStrDecimal text with
      | some (literal, []) => some literal
      | _ => none

/-- The global function parseFloat. -/
def parseFloat (nearest : Nearest) (text : JsString) : Magnitude :=
  match readStrDecimal (text.dropWhile isBlankUnit) with
  | some (literal, _) => literal.worth nearest
  | none => .nan

/-- The function Number on a text. -/
def numberOf (nearest : Nearest) (text : JsString) : Magnitude :=
  match readNumber text with
  | some literal => literal.worth nearest
  | none => .nan

/-- Digits with at most one point and at least one digit, and the number they write. -/
inductive Numeral : JsString → Rat → Prop where
  | whole {digits : JsString} (given : digits ≠ []) (all : ∀ u ∈ digits, isDecimalUnit u = true) :
      Numeral digits (digitsNumber digits)
  | pointed {whole fraction : JsString} (given : whole ++ fraction ≠ [])
      (all : ∀ u ∈ whole ++ fraction, isDecimalUnit u = true) :
      Numeral (whole ++ 46 :: fraction) (digitsNumber (whole ++ fraction) / 10 ^ fraction.length)

theorem worth_ne_nan (nearest : Nearest) (literal : NumericLiteral) :
    literal.worth nearest ≠ .nan := by
  have double (negative : Bool) (value : Rat) : toDouble nearest negative value ≠ .nan := by
    unfold toDouble
    split
    · simp
    · simp
  cases literal with
  | whole value => exact double false value
  | decimal negative value => exact double negative value
  | infinity negative => simp [NumericLiteral.worth]

theorem numberOf_nan_iff (nearest : Nearest) (text : JsString) :
    numberOf nearest text = .nan ↔ readNumber text = none := by
  unfold numberOf
  cases readNumber text with
  | none => simp
  | some literal => simpa using worth_ne_nan nearest literal

theorem readDecimal_numeral {text : JsString} {v : Rat} (numeral : Numeral text v) :
    readDecimal text = some (v, []) := by
  cases numeral with
  | whole given all =>
    have span := span_exact [] all (by simp)
    rw [List.append_nil] at span
    have point : readPoint [] = ([], []) := rfl
    have power : readPower [] = (0, []) := by decide
    simp [readDecimal, span.1, span.2, point, power, given]
  | @pointed whole fraction given all =>
    have wholes : ∀ u ∈ whole, isDecimalUnit u = true :=
      fun u member => all u (List.mem_append_left _ member)
    have fractions : ∀ u ∈ fraction, isDecimalUnit u = true :=
      fun u member => all u (List.mem_append_right _ member)
    have span := span_exact (46 :: fraction) wholes (by simp [isDecimalUnit])
    have behind := span_exact [] fractions (by simp)
    rw [List.append_nil] at behind
    have point : readPoint (46 :: fraction) = (fraction, []) := by
      simp [readPoint, behind.1, behind.2]
    have power : readPower [] = (0, []) := by decide
    simp only [readDecimal, span.1, span.2, point, power, if_neg given, Option.some.injEq,
      Prod.mk.injEq, and_true]
    rw [zero_sub, zpow_neg, zpow_natCast, div_eq_mul_inv]

theorem Numeral.first {text : JsString} {v : Rat} (numeral : Numeral text v) :
    ∃ u rest, text = u :: rest ∧ (u = 46 ∨ isDecimalUnit u = true) := by
  cases numeral with
  | whole given all =>
    cases text with
    | nil => exact absurd rfl given
    | cons u rest => exact ⟨u, rest, rfl, Or.inr (all u List.mem_cons_self)⟩
  | @pointed whole fraction given all =>
    cases whole with
    | nil => exact ⟨46, fraction, rfl, Or.inl rfl⟩
    | cons u rest => exact ⟨u, rest ++ 46 :: fraction, rfl, Or.inr (all u (by simp))⟩

theorem Numeral.nonneg {text : JsString} {v : Rat} (numeral : Numeral text v) : 0 ≤ v := by
  cases numeral with
  | whole given all => exact Nat.cast_nonneg _
  | pointed given all => positivity

/- What a numeral is made of. -/
theorem Numeral.units {text : JsString} {v : Rat} (numeral : Numeral text v) :
    ∀ u ∈ text, u = 46 ∨ isDecimalUnit u = true := by
  cases numeral with
  | whole given all => exact fun u member => Or.inr (all u member)
  | pointed given all =>
    intro u member
    rcases List.mem_append.mp member with before | behind
    · exact Or.inr (all u (List.mem_append_left _ before))
    · rcases List.mem_cons.mp behind with rfl | after
      · exact Or.inl rfl
      · exact Or.inr (all u (List.mem_append_right _ after))

theorem digit_not_point {u : UInt16} (digit : isDecimalUnit u = true) : u ≠ 46 := by
  rintro rfl
  cases digit

theorem Numeral.one_point {text : JsString} {v : Rat} (numeral : Numeral text v) :
    text.count 46 ≤ 1 := by
  have pointless {digits : JsString} (all : ∀ u ∈ digits, isDecimalUnit u = true) :
      digits.count 46 = 0 :=
    List.count_eq_zero.mpr fun inside => digit_not_point (all 46 inside) rfl
  cases numeral with
  | whole given all => exact (pointless all).le.trans (Nat.zero_le 1)
  | pointed given all =>
    rw [List.count_append, List.count_cons_self,
      pointless fun u member => all u (List.mem_append_left _ member),
      pointless fun u member => all u (List.mem_append_right _ member)]

theorem Numeral.some_digit {text : JsString} {v : Rat} (numeral : Numeral text v) :
    ∃ u ∈ text, isDecimalUnit u = true := by
  cases numeral with
  | whole given all =>
    obtain ⟨u, rest, rfl⟩ := List.exists_cons_of_ne_nil given
    exact ⟨u, List.mem_cons_self, all u List.mem_cons_self⟩
  | @pointed whole fraction given all =>
    obtain ⟨u, rest, split⟩ := List.exists_cons_of_ne_nil given
    have member : u ∈ whole ++ fraction := split ▸ List.mem_cons_self
    refine ⟨u, ?_, all u member⟩
    rcases List.mem_append.mp member with before | behind
    · exact List.mem_append_left _ before
    · exact List.mem_append_right _ (List.mem_cons_of_mem _ behind)

/- Digits and points are a numeral when there is a digit and no second point. -/
theorem numeral_of_units {text : JsString} (units : ∀ u ∈ text, u = 46 ∨ isDecimalUnit u = true)
    (one : text.count 46 ≤ 1) (digit : ∃ u ∈ text, isDecimalUnit u = true) : ∃ v, Numeral text v := by
  have digits (part : JsString) (inside : ∀ u ∈ part, u ∈ text) (pointless : part.count 46 = 0) :
      ∀ u ∈ part, isDecimalUnit u = true := by
    intro u member
    rcases units u (inside u member) with rfl | found
    · exact absurd member (List.count_eq_zero.mp pointless)
    · exact found
  obtain ⟨d, place, isDigit⟩ := digit
  by_cases point : 46 ∈ text
  · obtain ⟨whole, fraction, rfl⟩ := List.append_of_mem point
    rw [List.count_append, List.count_cons_self] at one
    have before := digits whole (by simp +contextual) (by omega)
    have behind := digits fraction (by simp +contextual) (by omega)
    refine ⟨_, .pointed ?_ ?_⟩
    · rintro nothing
      obtain ⟨rfl, rfl⟩ := List.append_eq_nil_iff.mp nothing
      obtain rfl := List.mem_singleton.mp place
      exact digit_not_point isDigit rfl
    · intro u member
      exact (List.mem_append.mp member).elim (before u) (behind u)
  · refine ⟨_, .whole (List.ne_nil_of_mem place) (digits text (fun u member => member) ?_)⟩
    exact List.count_eq_zero.mpr point

/-- The number a numeral in front writes. -/
def decimalValue (text : JsString) : Rat := ((readDecimal text).map Prod.fst).getD 0

theorem Numeral.value {text : JsString} {v : Rat} (numeral : Numeral text v) :
    decimalValue text = v := by
  rw [decimalValue, readDecimal_numeral numeral]
  rfl

theorem digit_not_blank {u : UInt16} (digit : isDecimalUnit u = true) : isBlankUnit u = false := by
  have solid : ∀ n < 58, 48 ≤ n → isBlank (Char.ofNat n) = false := by decide
  simp only [isDecimalUnit, decide_eq_true_eq] at digit
  exact solid _ (by omega) digit.1

theorem Numeral.trimmed {text : JsString} {v : Rat} (numeral : Numeral text v) :
    JsString.Trimmed text := by
  have solid : ∀ u ∈ text, isBlankUnit u = false := by
    intro u member
    rcases numeral.units u member with rfl | digit
    · decide
    · exact digit_not_blank digit
  exact ⟨fun u first => solid u (List.mem_of_mem_head? first),
    fun u last => solid u (List.mem_of_mem_getLast? last)⟩

theorem readStrDecimal_numeral {text : JsString} {v : Rat} (numeral : Numeral text v) :
    readStrDecimal text = some (.decimal false v, []) := by
  have read := readDecimal_numeral numeral
  obtain ⟨u, rest, rfl, first⟩ := numeral.first
  have plain : u ≠ 45 ∧ u ≠ 43 ∧ u ≠ 73 := by
    rcases first with rfl | digit
    · decide
    · refine ⟨?_, ?_, ?_⟩
      · rintro rfl
        cases digit
      · rintro rfl
        cases digit
      · rintro rfl
        cases digit
  have unsigned : readSignUnit (u :: rest) = (false, u :: rest) := by
    simp [readSignUnit, plain.1, plain.2.1]
  have word : infinityWord.isPrefixOf (u :: rest) = false := by
    have letters : infinityWord = 73 :: infinityWord.tail := rfl
    rw [letters, List.isPrefixOf, Bool.and_eq_false_iff]
    exact Or.inl (beq_false_of_ne plain.2.2.symm)
  simp only [readStrDecimal, unsigned, word, read]
  rfl

theorem parseFloat_numeral (nearest : Nearest) {text : JsString} {v : Rat}
    (numeral : Numeral text v) : parseFloat nearest text = toDouble nearest false v := by
  have front : text.dropWhile isBlankUnit = text := by
    obtain ⟨u, rest, rfl, -⟩ := numeral.first
    exact List.dropWhile_cons_of_neg (by simp [numeral.trimmed.1 u rfl])
  rw [parseFloat, front, readStrDecimal_numeral numeral]
  rfl

/- No base is announced where there are only digits and points. -/
theorem announcedBase_numeral {text : JsString} {v : Rat} (numeral : Numeral text v) :
    announcedBase text = none := by
  have none_of {letter : UInt16} (other : letter ≠ 46) (nonDigit : isDecimalUnit letter = false) :
      text[1]? ≠ some letter := by
    intro second
    rcases numeral.units letter (List.mem_of_getElem? second) with rfl | digit
    · exact other rfl
    · rw [digit] at nonDigit
      cases nonDigit
  unfold announcedBase
  split
  · rfl
  · rw [if_neg, if_neg, if_neg]
    · exact not_or.mpr ⟨none_of (by decide) (by decide), none_of (by decide) (by decide)⟩
    · exact not_or.mpr ⟨none_of (by decide) (by decide), none_of (by decide) (by decide)⟩
    · exact not_or.mpr ⟨none_of (by decide) (by decide), none_of (by decide) (by decide)⟩

theorem readNumber_numeral {text : JsString} {v : Rat} (numeral : Numeral text v) :
    readNumber text = some (.decimal false v) := by
  have given : text ≠ [] := by
    obtain ⟨u, rest, rfl, -⟩ := numeral.first
    exact List.cons_ne_nil u rest
  simp only [readNumber, JsString.trim_of_trimmed numeral.trimmed, if_neg given,
    announcedBase_numeral numeral, readStrDecimal_numeral numeral]

end AstraPort
