import AstraPort.Foundation.JsText
import AstraPort.Foundation.PlainDecimals

/- currencyAmount: a text or a number, judged by the text of it. -/
namespace AstraPort.Validation

/-- What the schema reports; a number of the union that is NaN fits none of its members. -/
inductive AmountIssue where
  | custom (message : JsString)
  | tooSmall (minimum : JsNumeric) (message : JsString)
  | tooBig (maximum : JsNumeric) (message : JsString)
  | invalidUnion
  deriving DecidableEq

structure CurrencyAmountOptions where
  min : Option JsNumeric := none
  max : Option JsNumeric := none
  maxDecimals : Option JsNumeric := none
  allowZero : Option Bool := none

namespace CurrencyAmountOptions
variable (options : CurrencyAmountOptions)

def lowest : JsNumeric := options.min.getD (.finite .zero)

def precision : JsNumeric := options.maxDecimals.getD (.finite (.ofDigits false [7] 1))

def zeroAllowed : Bool := options.allowZero.getD true

end CurrencyAmountOptions

inductive AmountInput where
  | text (val : JsString)
  | number (val : JsNumeric)

def isDigitUnit (u : UInt16) : Bool := 48 ≤ u && u ≤ 57

def unitDigit (u : UInt16) : Fin 10 := Fin.ofNat 10 (u.toNat - 48)

/-- The parts of a text that matches /^-?\d+(\.\d+)?$/. -/
structure AmountText where
  negative : Bool
  whole : JsString
  fraction : JsString

def matchAmount (strVal : JsString) : Option AmountText :=
  let negative := decide (strVal.head? = some 45)
  let body := if negative then strVal.tail else strVal
  let whole := body.takeWhile isDigitUnit
  if whole = [] then none
  else match body.dropWhile isDigitUnit with
    | [] => some ⟨negative, whole, []⟩
    | u :: fraction =>
      if u = 46 ∧ fraction ≠ [] ∧ fraction.all isDigitUnit then some ⟨negative, whole, fraction⟩
      else none

/-- The number that the matched text writes. -/
def AmountText.number (amount : AmountText) : JsNumber :=
  .ofDigits amount.negative ((amount.whole ++ amount.fraction).map unitDigit) amount.whole.length

def checkBounds (options : CurrencyAmountOptions) (num : Magnitude) : Except AmountIssue Unit :=
  if options.zeroAllowed = false ∧ num = .finite 0 then
    .error (.custom (.ofString "Amount must be strictly greater than zero"))
  else if num.less options.lowest.magnitude then
    .error (.tooSmall options.lowest
      (.ofString "Amount must be at least " ++ printed options.lowest))
  else match options.max.filter fun max => max.magnitude.less num with
    | some max => .error (.tooBig max (.ofString "Amount cannot exceed " ++ printed max))
    | none => .ok ()

def checkPrecision (options : CurrencyAmountOptions) (strVal : JsString) :
    Except AmountIssue Unit :=
  match strVal.splitOn 46 with
  | [_, decimals] =>
    if options.precision.magnitude.less (.finite decimals.length) then
      .error (.custom (.ofString "Amount exceeds maximum allowed precision of " ++
        printed options.precision ++ .ofString " decimal places"))
    else .ok ()
  | _ => .ok ()

/-- The transformation. Number is NaN on no text that the pattern matches; it gives the number
    nearest to the one written. -/
def judge (nearest : JsNumber → JsNumeric) (options : CurrencyAmountOptions)
    (strVal : JsString) : Except AmountIssue JsString :=
  match matchAmount strVal with
  | none => .error (.custom (.ofString "Amount must be a valid numeric value"))
  | some amount => do
    checkBounds options (nearest amount.number).magnitude
    checkPrecision options strVal
    .ok strVal

def currencyAmount (nearest : JsNumber → JsNumeric) (options : CurrencyAmountOptions) :
    AmountInput → Except AmountIssue JsString
  | .text val => judge nearest options val.trim
  | .number .nan => .error .invalidUnion
  | .number val => judge nearest options (printed val)

section Matching

/-- The units that digits are printed as. -/
def digitUnits (ds : List (Fin 10)) : JsString := ds.map fun d => UInt16.ofNat (48 + d.val)

theorem digit_printed : ∀ d : Fin 10,
    codeUnits (JsNumber.digitChar d) = [UInt16.ofNat (48 + d.val)] := by decide

theorem digit_recognized : ∀ d : Fin 10, isDigitUnit (UInt16.ofNat (48 + d.val)) = true := by
  decide

theorem digit_read : ∀ d : Fin 10, unitDigit (UInt16.ofNat (48 + d.val)) = d := by decide

theorem unitsOf_digits (ds : List (Fin 10)) :
    unitsOf (ds.map JsNumber.digitChar) = digitUnits ds := by
  rw [unitsOf, List.flatMap_map, digitUnits, List.map_eq_flatMap]
  simp only [digit_printed]

theorem digitUnits_recognized (ds : List (Fin 10)) : ∀ u ∈ digitUnits ds, isDigitUnit u = true := by
  intro u member
  obtain ⟨d, -, rfl⟩ := List.mem_map.mp member
  exact digit_recognized d

theorem digitUnits_read (ds : List (Fin 10)) : (digitUnits ds).map unitDigit = ds := by
  rw [digitUnits, List.map_map]
  exact (List.map_congr_left fun d _ => digit_read d).trans ds.map_id

theorem digitUnits_eq_nil {ds : List (Fin 10)} : digitUnits ds = [] ↔ ds = [] :=
  List.map_eq_nil_iff

/-- A text of a sign, digits, and a point with more digits if there are any. -/
def amountUnits (negative : Bool) (whole fraction : JsString) : JsString :=
  (if negative then [45] else []) ++ (whole ++ if fraction = [] then [] else 46 :: fraction)

theorem unitsOf_plain (x : JsNumber) : unitsOf x.plainText =
    amountUnits x.negative (digitUnits x.wholeDigits) (digitUnits x.fractionDigits) := by
  have sign : unitsOf (if x.negative then ['-'] else []) = if x.negative then [45] else [] := by
    cases x.negative with
    | false => rfl
    | true => rfl
  have append (cs ds : List Char) : unitsOf (cs ++ ds) = unitsOf cs ++ unitsOf ds :=
    List.flatMap_append
  rw [JsNumber.plainText, append, append, sign, unitsOf_digits, amountUnits]
  by_cases none : x.fractionDigits = []
  · rw [if_pos none, if_pos (digitUnits_eq_nil.mpr none)]
    rfl
  · rw [if_neg none, if_neg fun empty => none (digitUnits_eq_nil.mp empty),
      ← unitsOf_digits x.fractionDigits]
    rfl

variable {negative : Bool} {whole fraction : JsString}

theorem matchAmount_parts (nonempty : whole ≠ []) (digits : ∀ u ∈ whole, isDigitUnit u = true)
    (digits' : ∀ u ∈ fraction, isDigitUnit u = true) :
    matchAmount (amountUnits negative whole fraction) = some ⟨negative, whole, fraction⟩ := by
  obtain ⟨u, us, rfl⟩ := List.exists_cons_of_ne_nil nonempty
  have signless : u ≠ 45 := by
    rintro rfl
    exact absurd (digits 45 List.mem_cons_self) (by decide)
  have sign : decide ((amountUnits negative (u :: us) fraction).head? = some 45) = negative := by
    cases negative with
    | false => simp [amountUnits, signless]
    | true => simp [amountUnits]
  have body : (if negative then (amountUnits negative (u :: us) fraction).tail
      else amountUnits negative (u :: us) fraction) =
        u :: us ++ if fraction = [] then [] else 46 :: fraction := by
    cases negative with
    | false => rfl
    | true => rfl
  unfold matchAmount
  dsimp only
  rw [sign, body, List.takeWhile_append_of_pos digits, List.dropWhile_append_of_pos digits]
  by_cases none : fraction = []
  · simp [none]
  · have dot : isDigitUnit 46 = false := by decide
    simpa [none, dot] using digits'

theorem split_parts (digits : ∀ u ∈ whole, isDigitUnit u = true)
    (digits' : ∀ u ∈ fraction, isDigitUnit u = true) :
    (amountUnits negative whole fraction).splitOn 46 =
      ((if negative then [45] else []) ++ whole) :: if fraction = [] then [] else [fraction] := by
  have pointless {units : JsString} (recognized : ∀ u ∈ units, isDigitUnit u = true) :
      ∀ u ∈ units, (u == 46) = false := by
    intro u member
    rw [beq_eq_false_iff_ne]
    rintro rfl
    exact absurd (recognized 46 member) (by decide)
  have front : ∀ u ∈ (if negative then [45] else []) ++ whole, (u == 46) = false := by
    intro u member
    rcases List.mem_append.mp member with sign | digit
    · cases negative with
      | false => cases sign
      | true => simpa using fun same => absurd (same ▸ List.mem_singleton.mp sign) (by decide)
    · exact pointless digits u digit
  rw [amountUnits, ← List.append_assoc]
  by_cases none : fraction = []
  · rw [if_pos none, if_pos none, List.append_nil, List.splitOn, List.splitOnP_eq_singleton front]
  · rw [if_neg none, if_neg none, List.splitOn,
      List.splitOnP_append_cons_of_forall_mem front _ (by simp),
      List.splitOnP_eq_singleton (pointless digits')]

/- A matched text is put together of its parts. -/
theorem parts_of_match {strVal : JsString} {amount : AmountText}
    (matched : matchAmount strVal = some amount) :
    strVal = amountUnits amount.negative amount.whole amount.fraction ∧
      (∀ u ∈ amount.whole, isDigitUnit u = true) ∧
      ∀ u ∈ amount.fraction, isDigitUnit u = true := by
  unfold matchAmount at matched
  dsimp only at matched
  have signed : strVal = (if decide (strVal.head? = some 45) then [45] else []) ++
      if decide (strVal.head? = some 45) then strVal.tail else strVal := by
    cases strVal with
    | nil => rfl
    | cons u us =>
      by_cases sign : u = 45
      · simp [sign]
      · simp [sign]
  generalize decide (strVal.head? = some 45) = negative at matched signed
  generalize (if negative then strVal.tail else strVal) = body at matched signed
  have taken : ∀ u ∈ body.takeWhile isDigitUnit, isDigitUnit u = true := fun u member =>
    List.mem_takeWhile_imp member
  have parts := List.takeWhile_append_dropWhile (p := isDigitUnit) (l := body)
  by_cases none : body.takeWhile isDigitUnit = []
  · rw [if_pos none] at matched
    cases matched
  · rw [if_neg none] at matched
    split at matched
    · rename_i ended
      cases matched
      rw [ended, List.append_nil] at parts
      refine ⟨?_, taken, by simp⟩
      simpa [amountUnits, parts] using signed
    · rename_i u fraction further
      split at matched
      · rename_i fits
        cases matched
        obtain ⟨rfl, more, digits⟩ := fits
        refine ⟨?_, taken, List.all_eq_true.mp digits⟩
        rw [further] at parts
        simpa [amountUnits, more, parts] using signed
      · cases matched

/- The pattern matches no text with a letter. -/
theorem letterless {strVal : JsString} (letter : 101 ∈ strVal) : matchAmount strVal = none := by
  cases matched : matchAmount strVal with
  | none => rfl
  | some amount =>
    obtain ⟨parts, digits, digits'⟩ := parts_of_match matched
    rw [parts, amountUnits, List.mem_append, List.mem_append] at letter
    rcases letter with sign | inWhole | inFraction
    · cases negative : amount.negative with
      | false => rw [negative] at sign; cases sign
      | true => rw [negative] at sign; simp at sign
    · exact absurd (digits 101 inWhole) (by decide)
    · by_cases none : amount.fraction = []
      · rw [if_pos none] at inFraction
        cases inFraction
      · rw [if_neg none] at inFraction
        rcases List.mem_cons.mp inFraction with dot | digit
        · cases dot
        · exact absurd (digits' 101 digit) (by decide)

end Matching

section Judging
variable {nearest : JsNumber → JsNumeric} {options : CurrencyAmountOptions} {v : JsNumber}

/-- The number is within the bounds, and its decimals, if any, are not more than allowed. -/
def Fits (options : CurrencyAmountOptions) (v : JsNumber) : Prop :=
  (options.zeroAllowed = true ∨ v.value ≠ 0) ∧
  (Magnitude.finite v.value).less options.lowest.magnitude = false ∧
  (∀ max ∈ options.max, max.magnitude.less (.finite v.value) = false) ∧
  (v.decimals = 0 ∨ options.precision.magnitude.less (.finite v.decimals) = false)

/-- The text writes the number. -/
def Denotes (strVal : JsString) (v : JsNumber) : Prop :=
  (matchAmount strVal).map AmountText.number = some v

theorem match_plain (v : JsNumber) : matchAmount (unitsOf v.plainText) =
    some ⟨v.negative, digitUnits v.wholeDigits, digitUnits v.fractionDigits⟩ := by
  rw [unitsOf_plain]
  exact matchAmount_parts (fun empty => v.wholeDigits_ne_nil (digitUnits_eq_nil.mp empty))
    (digitUnits_recognized _) (digitUnits_recognized _)

theorem plain_number (v : JsNumber) : AmountText.number
    ⟨v.negative, digitUnits v.wholeDigits, digitUnits v.fractionDigits⟩ = v := by
  rw [AmountText.number, List.map_append, digitUnits_read, digitUnits_read, digitUnits,
    List.length_map]
  exact v.ofDigits_plain

theorem plain_denotes (v : JsNumber) : Denotes (unitsOf v.plainText) v := by
  rw [Denotes, match_plain, Option.map_some, plain_number]

theorem judge_ok_iff {strVal s : JsString} : judge nearest options strVal = .ok s ↔
    s = strVal ∧ ∃ amount, matchAmount strVal = some amount ∧
      checkBounds options (nearest amount.number).magnitude = .ok () ∧
      checkPrecision options strVal = .ok () := by
  unfold judge
  cases matchAmount strVal with
  | none => simp
  | some amount =>
    simp only [Option.some.injEq, exists_eq_left']
    cases checkBounds options (nearest amount.number).magnitude with
    | error issue => simp [bind, Except.bind]
    | ok _ =>
      cases checkPrecision options strVal with
      | error issue => simp [bind, Except.bind]
      | ok _ => simp [bind, Except.bind, eq_comm]

theorem checkBounds_ok_iff {num : Magnitude} : checkBounds options num = .ok () ↔
    (options.zeroAllowed = true ∨ num ≠ .finite 0) ∧
    num.less options.lowest.magnitude = false ∧
    ∀ max ∈ options.max, max.magnitude.less num = false := by
  unfold checkBounds
  by_cases zero : options.zeroAllowed = false ∧ num = .finite 0
  · simp [zero]
  · have first : options.zeroAllowed = true ∨ num ≠ .finite 0 := by
      rwa [← Bool.not_eq_true, not_and_or, not_not] at zero
    rw [if_neg zero]
    cases num.less options.lowest.magnitude with
    | true => simp
    | false =>
      cases high : options.max.filter fun max => max.magnitude.less num with
      | some max =>
        have beyond := Option.filter_eq_some_iff.mp high
        simp [beyond.1, beyond.2]
      | none =>
        have within := Option.filter_eq_none_iff.mp high
        simpa [first] using within

theorem splitOn_plain (v : JsNumber) : (unitsOf v.plainText).splitOn 46 =
    ((if v.negative then [45] else []) ++ digitUnits v.wholeDigits) ::
      if v.fractionDigits = [] then [] else [digitUnits v.fractionDigits] := by
  rw [unitsOf_plain, split_parts (digitUnits_recognized _) (digitUnits_recognized _)]
  simp only [digitUnits_eq_nil]

theorem checkPrecision_plain : checkPrecision options (unitsOf v.plainText) = .ok () ↔
    v.decimals = 0 ∨ options.precision.magnitude.less (.finite v.decimals) = false := by
  unfold checkPrecision JsNumber.decimals
  rw [splitOn_plain]
  by_cases none : v.fractionDigits = []
  · simp [none]
  · rw [if_neg none]
    have width : (digitUnits v.fractionDigits).length = v.fractionDigits.length := List.length_map _
    cases more : options.precision.magnitude.less (.finite v.fractionDigits.length) with
    | true => simp [width, none, more]
    | false => simp [width, more]

/- The text of a number in full is accepted where the number fits. -/
theorem judge_plain (represented : nearest v = .finite v) :
    (∃ s, judge nearest options (unitsOf v.plainText) = .ok s) ↔ Fits options v := by
  have worth : (JsNumeric.finite v).magnitude = .finite v.value := rfl
  simp only [judge_ok_iff, match_plain, Option.some.injEq, exists_eq_left', exists_eq_left,
    plain_number, represented, checkBounds_ok_iff, checkPrecision_plain, worth, Fits, ne_eq,
    Magnitude.finite.injEq, and_assoc]

/- A text with an exponent is refused. -/
theorem judge_exponent (far : ¬ (v = .zero ∨ (-6 < v.point ∧ v.point ≤ 21))) (s : JsString) :
    judge nearest options (unitsOf v.text) ≠ .ok s := by
  have letter : 101 ∈ unitsOf v.text :=
    List.mem_flatMap.mpr ⟨'e', JsNumber.text_exponent far, by decide⟩
  rw [judge, letterless letter]
  intro accepted
  cases accepted

theorem digit_solid : ∀ d : Fin 10, isBlankUnit (UInt16.ofNat (48 + d.val)) = false := by decide

theorem plain_trimmed (v : JsNumber) : JsString.trim (unitsOf v.plainText) =
    unitsOf v.plainText := by
  have digit (ds : List (Fin 10)) : ∀ u ∈ digitUnits ds, isBlankUnit u = false := by
    intro u member
    obtain ⟨d, -, rfl⟩ := List.mem_map.mp member
    exact digit_solid d
  have solid : ∀ u ∈ unitsOf v.plainText, isBlankUnit u = false := by
    intro u member
    rw [unitsOf_plain, amountUnits, List.mem_append, List.mem_append] at member
    rcases member with sign | inWhole | inFraction
    · cases negative : v.negative with
      | false => rw [negative] at sign; cases sign
      | true => rw [negative] at sign; cases List.mem_singleton.mp sign; decide
    · exact digit _ u inWhole
    · split at inFraction
      · cases inFraction
      · rcases List.mem_cons.mp inFraction with rfl | inside
        · decide
        · exact digit _ u inside
  apply JsString.trim_of_trimmed
  exact ⟨fun u first => solid u (List.mem_of_mem_head? first),
    fun u last => solid u (List.mem_of_getLast? last)⟩

end Judging

def Accepted (result : Except AmountIssue JsString) : Prop := ∃ s, result = .ok s

/-- A number and its text in full are judged alike, and what is returned of either writes the
    number, if and only if the number is zero or from 10⁻⁶ up to 10²¹, or does not fit the
    options, so that its text is refused as well. -/
theorem amount_judged_by_value_iff (nearest : JsNumber → JsNumeric)
    (options : CurrencyAmountOptions) {v : JsNumber} (represented : nearest v = .finite v) :
    ((Accepted (currencyAmount nearest options (.number (.finite v))) ↔
        Accepted (currencyAmount nearest options (.text (unitsOf v.plainText)))) ∧
      (∀ s, currencyAmount nearest options (.number (.finite v)) = .ok s → Denotes s v) ∧
      ∀ s, currencyAmount nearest options (.text (unitsOf v.plainText)) = .ok s →
        Denotes s v) ↔
      (v = .zero ∨ ((1 : Rat) / 10 ^ 6 ≤ |v.value| ∧ |v.value| < 10 ^ 21)) ∨
        ¬ Fits options v := by
  have asText : currencyAmount nearest options (.text (unitsOf v.plainText)) =
      judge nearest options (unitsOf v.plainText) := by
    rw [currencyAmount, plain_trimmed]
  have asNumber : currencyAmount nearest options (.number (.finite v)) =
      judge nearest options (unitsOf v.text) := rfl
  have written {s : JsString} (accepted : judge nearest options (unitsOf v.plainText) = .ok s) :
      Denotes s v := by
    rw [(judge_ok_iff.mp accepted).1]
    exact plain_denotes v
  rw [asText, asNumber, ← JsNumber.near_iff]
  by_cases near : v = .zero ∨ (-6 < v.point ∧ v.point ≤ 21)
  · rw [JsNumber.text_plain near]
    exact iff_of_true ⟨Iff.rfl, fun _ => written, fun _ => written⟩ (Or.inl near)
  · have refused (s : JsString) : judge nearest options (unitsOf v.text) ≠ .ok s :=
      judge_exponent near s
    rw [or_iff_right near, ← judge_plain represented]
    constructor
    · rintro ⟨alike, -⟩ accepted
      obtain ⟨s, number⟩ := alike.mpr accepted
      exact refused s number
    · intro none
      have neither : ¬ Accepted (judge nearest options (unitsOf v.text)) := by
        intro accepted
        obtain ⟨s, number⟩ := accepted
        exact refused s number
      exact ⟨iff_of_false neither none, fun s number => absurd number (refused s),
        fun _ => written⟩

theorem one_and_a_half_judged_alike :
    (Accepted (currencyAmount .finite {} (.number (.finite (.ofDigits false [1, 5] 1)))) ↔
        Accepted (currencyAmount .finite {} (.text (.ofString "1.5")))) ∧
      ∃ s, currencyAmount .finite {} (.text (.ofString "1.5")) = .ok s ∧
        Denotes s (.ofDigits false [1, 5] 1) := by
  have alike := (amount_judged_by_value_iff .finite {}
    (v := .ofDigits false [1, 5] 1) rfl).mpr (Or.inl (Or.inr (by decide +kernel)))
  refine ⟨alike.1, .ofString "1.5", by decide +kernel, alike.2.2 _ (by decide +kernel)⟩

/-- One stroop is an amount as a text, but not as a number, which prints as 1e-7. -/
theorem stroop_refused_as_number :
    ¬ (Accepted (currencyAmount .finite {} (.number (.finite (.ofDigits false [1] (-6))))) ↔
        Accepted (currencyAmount .finite {} (.text (.ofString "0.0000001")))) := by
  have text : currencyAmount .finite {} (.text (.ofString "0.0000001")) =
      .ok (.ofString "0.0000001") := by decide +kernel
  intro alike
  obtain ⟨s, number⟩ := alike.mpr ⟨_, text⟩
  cases number

end AstraPort.Validation
