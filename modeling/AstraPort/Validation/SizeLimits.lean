import AstraPort.Foundation.NumberText
import AstraPort.Validation.FileSignatures

/- Size texts: what parseSizeToBytes takes for a size, and the limits validateFile sets by it. The
   pattern lets runs of digits and points through, and what does not match it is given to Number. -/
namespace AstraPort.Validation

/-- The host whose conversions of text to numbers are those of ECMAScript. -/
def ecmaHost (casing : Casing) (upper : UpperCasing) (nearest : Nearest) : HostText where
  toCasing := casing
  toUpperCase := upper.toUpperCase
  parseFloat := parseFloat nearest
  number := numberOf nearest

/-- The grammar of sizes in capitals: a numeral alone, or with a unit, perhaps after white space;
    the number it writes and the unit as a multiplier. -/
inductive SizeText : JsString → Rat → Nat → Prop where
  | bare {text : JsString} {v : Rat} (numeral : Numeral text v) : SizeText text v 1
  | united {num blanks unit : JsString} {v : Rat} {multiplier : Nat} (numeral : Numeral num v)
      (blank : ∀ u ∈ blanks, isBlankUnit u = true) (known : (unit, multiplier) ∈ multipliers) :
      SizeText (num ++ (blanks ++ unit)) v multiplier

/-- A size is returned only for a text of the grammar, and it is what the text says, rounded. -/
def SizeExact (host : HostText) (size : JsString) : Prop :=
  ∀ bytes, parseSizeToBytes host (.text size) = .ok bytes → ∃ v multiplier, ∃ n : Nat,
    SizeText (host.toUpperCase size.trim) v multiplier ∧
      (n : Int) = ⌊v * multiplier + 1 / 2⌋ ∧ bytes = .finite n

/-- The double nearest to a number gives the rounded product that the number itself gives. -/
def RoundsRight (nearest : Nearest) (v : Rat) (multiplier : Nat) : Prop :=
  ∃ double, nearest v = some double ∧ |double * multiplier| < 2 ^ 1024 ∧
    ⌊double * multiplier + 1 / 2⌋ = ⌊v * multiplier + 1 / 2⌋

/-- A run of digits and points before a unit has a digit and no second point, and no precision is
    lost on it. Any other text is no numeric literal at all, or such a run alone, of a whole number
    that is a double. -/
def SizeInOrder (nearest : Nearest) (text : JsString) : Prop :=
  match matchSize text with
  | some (num, multiplier) =>
    (∃ u ∈ num, isDecimalUnit u = true) ∧ num.count 46 ≤ 1 ∧
      RoundsRight nearest (decimalValue num) multiplier
  | none =>
    readNumber text = none ∨
      (∀ u ∈ text, isSizeUnit u = true) ∧ (∃ u ∈ text, isDecimalUnit u = true) ∧
        text.count 46 ≤ 1 ∧ nearest (decimalValue text) = some ⌊decimalValue text + 1 / 2⌋

theorem isSizeUnit_iff {u : UInt16} : isSizeUnit u = true ↔ u = 46 ∨ isDecimalUnit u = true := by
  simp only [isSizeUnit, isDecimalUnit, Bool.or_eq_true, Bool.and_eq_true, decide_eq_true_eq,
    UInt16.le_iff_toNat_le]
  exact or_comm

theorem blank_not_size {u : UInt16} (blank : isBlankUnit u = true) : isSizeUnit u = false := by
  by_contra inside
  rcases isSizeUnit_iff.mp (Bool.eq_true_of_not_eq_false inside) with rfl | digit
  · cases blank
  · rw [digit_not_blank digit] at blank
    cases blank

/- A unit begins with a letter, and the table finds it. -/
theorem unit_found {unit : JsString} {multiplier : Nat} (known : (unit, multiplier) ∈ multipliers) :
    multipliers.lookup unit = some multiplier ∧
      ∃ letter rest, unit = letter :: rest ∧ isSizeUnit letter = false ∧
        isBlankUnit letter = false := by
  simp only [multipliers, List.mem_cons, List.not_mem_nil, or_false, Prod.mk.injEq] at known
  rcases known with ⟨rfl, rfl⟩ | ⟨rfl, rfl⟩ | ⟨rfl, rfl⟩ | ⟨rfl, rfl⟩ | ⟨rfl, rfl⟩
  · exact ⟨by decide, 66, [], rfl, by decide, by decide⟩
  · exact ⟨by decide, 75, [66], rfl, by decide, by decide⟩
  · exact ⟨by decide, 77, [66], rfl, by decide, by decide⟩
  · exact ⟨by decide, 71, [66], rfl, by decide, by decide⟩
  · exact ⟨by decide, 84, [66], rfl, by decide, by decide⟩

theorem matchSize_united {num blanks unit : JsString} {v : Rat} {multiplier : Nat}
    (numeral : Numeral num v) (blank : ∀ u ∈ blanks, isBlankUnit u = true)
    (known : (unit, multiplier) ∈ multipliers) :
    matchSize (num ++ (blanks ++ unit)) = some (num, multiplier) := by
  obtain ⟨found, letter, rest, rfl, offSize, offBlank⟩ := unit_found known
  have stop : ∀ u ∈ (blanks ++ letter :: rest).head?, isSizeUnit u = false := by
    intro u first
    cases blanks with
    | nil =>
      obtain rfl := Option.some.inj first
      exact offSize
    | cons b blanks =>
      obtain rfl := Option.some.inj first
      exact blank_not_size (blank b List.mem_cons_self)
  have inside : ∀ u ∈ num, isSizeUnit u = true :=
    fun u member => isSizeUnit_iff.mpr (numeral.units u member)
  have digits := span_exact _ inside stop
  have spaces := span_exact (letter :: rest) blank (by simpa using offBlank)
  have given : num ≠ [] := by
    obtain ⟨u, more, rfl, -⟩ := numeral.first
    exact List.cons_ne_nil u more
  simp only [matchSize, digits.1, digits.2, spaces.2, if_neg given, found, Option.map_some]

theorem matchSize_bare {text : JsString} (inside : ∀ u ∈ text, isSizeUnit u = true) :
    matchSize text = none := by
  have all := span_exact [] inside (by simp)
  rw [List.append_nil] at all
  have nothing : multipliers.lookup [] = none := by decide
  simp only [matchSize, all.1, all.2, List.dropWhile_nil, nothing, Option.map_none, ite_self]

/- What the pattern finds in front, and the text it is found in. -/
theorem matchSize_some {text num : JsString} {multiplier : Nat}
    (found : matchSize text = some (num, multiplier)) :
    (∀ u ∈ num, u = 46 ∨ isDecimalUnit u = true) ∧ ∃ blanks unit,
      (∀ u ∈ blanks, isBlankUnit u = true) ∧ (unit, multiplier) ∈ multipliers ∧
        text = num ++ (blanks ++ unit) := by
  simp only [matchSize] at found
  split at found
  · cases found
  · obtain ⟨k, known, same⟩ := Option.map_eq_some_iff.mp found
    obtain ⟨rfl, rfl⟩ := Prod.mk.inj same
    refine ⟨fun u member => isSizeUnit_iff.mp (List.mem_takeWhile_imp member),
      (text.dropWhile isSizeUnit).takeWhile isBlankUnit,
      (text.dropWhile isSizeUnit).dropWhile isBlankUnit,
      fun u member => List.mem_takeWhile_imp member, ?_, ?_⟩
    · obtain ⟨before, after, table, -⟩ := List.lookup_eq_some_iff.mp known
      rw [table]
      simp
    · rw [List.takeWhile_append_dropWhile, List.takeWhile_append_dropWhile]

/- The size a text of the grammar denotes is the one the pattern finds. -/
theorem sizeText_cases {text : JsString} {v : Rat} {multiplier : Nat}
    (denotes : SizeText text v multiplier) :
    (matchSize text = none ∧ Numeral text v ∧ multiplier = 1) ∨
      ∃ num, Numeral num v ∧ matchSize text = some (num, multiplier) := by
  cases denotes with
  | bare numeral =>
    exact Or.inl ⟨matchSize_bare fun u member => isSizeUnit_iff.mpr (numeral.units u member),
      numeral, rfl⟩
  | united numeral blank known => exact Or.inr ⟨_, numeral, matchSize_united numeral blank known⟩

theorem toDouble_finite_iff {nearest : Nearest} {v w : Rat} :
    toDouble nearest false v = .finite w ↔ nearest v = some w := by
  unfold toDouble
  cases nearest v with
  | none => simp
  | some double => simp

theorem roundTimes_double {nearest : Nearest} {v : Rat} {multiplier : Nat} {z : Int} :
    roundTimes (toDouble nearest false v) multiplier = .finite z ↔
      ∃ double, nearest v = some double ∧ |double * multiplier| < 2 ^ 1024 ∧
        ⌊double * multiplier + 1 / 2⌋ = z := by
  unfold toDouble
  cases nearest v with
  | none => simp [roundTimes]
  | some double =>
    simp only [roundTimes, Bool.false_eq_true, if_false, Option.some.injEq, exists_eq_left']
    by_cases large : 2 ^ 1024 ≤ |double * multiplier|
    · rw [if_pos large]
      exact iff_of_false (by simp) fun within => absurd large (not_le.mpr within.1)
    · rw [if_neg large, Magnitude.finite.injEq, Int.cast_inj]
      exact (and_iff_right (not_le.mp large)).symm

theorem rounded_nat {v : Rat} (nonnegative : 0 ≤ v) (multiplier : Nat) :
    ∃ n : Nat, (n : Int) = ⌊v * multiplier + 1 / 2⌋ := by
  have positive : (0 : Rat) ≤ v * multiplier + 1 / 2 := by positivity
  exact ⟨_, Int.toNat_of_nonneg (Int.floor_nonneg.mpr positive)⟩

section Exact
variable {casing : Casing} {upper : UpperCasing} {nearest : Nearest} {size : JsString}

/- With a unit: the run of digits and points has to be a numeral. -/
theorem size_exact_matched {num : JsString} {multiplier : Nat}
    (found : matchSize (upper.toUpperCase size.trim) = some (num, multiplier)) :
    SizeExact (ecmaHost casing upper nearest) size ↔
      (∃ u ∈ num, isDecimalUnit u = true) ∧ num.count 46 ≤ 1 ∧
        RoundsRight nearest (decimalValue num) multiplier := by
  have parsed : parseSizeToBytes (ecmaHost casing upper nearest) (.text size) =
      .ok (roundTimes (parseFloat nearest num) multiplier) := by
    simp only [parseSizeToBytes, ecmaHost, found]
  constructor
  · intro exactly
    obtain ⟨v, k, n, denotes, rounded, bytes⟩ := exactly _ parsed
    rcases sizeText_cases denotes with ⟨unmatched, -, -⟩ | ⟨num', numeral, matched⟩
    · cases found.symm.trans unmatched
    · obtain ⟨rfl, rfl⟩ := Prod.mk.inj (Option.some.inj (found.symm.trans matched))
      rw [parseFloat_numeral nearest numeral, ← Int.cast_natCast, roundTimes_double, rounded]
        at bytes
      rw [numeral.value]
      exact ⟨numeral.some_digit, numeral.one_point, bytes⟩
  · rintro ⟨digit, one, right⟩ bytes returned
    obtain ⟨units, blanks, unit, blank, known, split⟩ := matchSize_some found
    obtain ⟨v, numeral⟩ := numeral_of_units units one digit
    obtain ⟨n, rounded⟩ := rounded_nat numeral.nonneg multiplier
    rw [numeral.value] at right
    have worth := roundTimes_double.mpr right
    rw [parsed, parseFloat_numeral nearest numeral, worth, ← rounded] at returned
    refine ⟨v, multiplier, n, ?_, rounded, ?_⟩
    · rw [show (ecmaHost casing upper nearest).toUpperCase size.trim = _ from split]
      exact .united numeral blank known
    · rw [← Except.ok.inj returned, Int.cast_natCast]

/- A text that Number does not take is refused. -/
theorem size_exact_unread (unmatched : matchSize (upper.toUpperCase size.trim) = none)
    (unread : readNumber (upper.toUpperCase size.trim) = none) :
    SizeExact (ecmaHost casing upper nearest) size := by
  intro bytes returned
  have text_of : (ecmaHost casing upper nearest).toUpperCase size.trim =
      upper.toUpperCase size.trim := rfl
  have nan : (ecmaHost casing upper nearest).number (upper.toUpperCase size.trim) = .nan :=
    (numberOf_nan_iff nearest _).mpr unread
  simp only [parseSizeToBytes, text_of, unmatched, nan, if_true] at returned
  cases returned

/- Without one: what Number takes has to be a whole numeral, and a double. -/
theorem size_exact_unmatched (unmatched : matchSize (upper.toUpperCase size.trim) = none) :
    SizeExact (ecmaHost casing upper nearest) size ↔
      readNumber (upper.toUpperCase size.trim) = none ∨
        (∀ u ∈ upper.toUpperCase size.trim, isSizeUnit u = true) ∧
          (∃ u ∈ upper.toUpperCase size.trim, isDecimalUnit u = true) ∧
          (upper.toUpperCase size.trim).count 46 ≤ 1 ∧
          nearest (decimalValue (upper.toUpperCase size.trim)) =
            some ⌊decimalValue (upper.toUpperCase size.trim) + 1 / 2⌋ := by
  cases read : readNumber (upper.toUpperCase size.trim) with
  | none => exact iff_of_true (size_exact_unread unmatched read) (Or.inl rfl)
  | some literal =>
    generalize text_is : upper.toUpperCase size.trim = text at unmatched read ⊢
    have text_of : (ecmaHost casing upper nearest).toUpperCase size.trim = text := text_is
    have worth : (ecmaHost casing upper nearest).number text = literal.worth nearest := by
      simp only [ecmaHost, numberOf, read]
    have parsed : parseSizeToBytes (ecmaHost casing upper nearest) (.text size) =
        .ok (literal.worth nearest) := by
      simp only [parseSizeToBytes, text_of, unmatched, worth, if_neg (worth_ne_nan nearest literal)]
    simp only [false_or, reduceCtorEq]
    constructor
    · intro exactly
      obtain ⟨v, k, n, denotes, rounded, bytes⟩ := exactly _ parsed
      rw [text_of] at denotes
      rcases sizeText_cases denotes with ⟨-, numeral, rfl⟩ | ⟨num, -, matched⟩
      · rw [readNumber_numeral numeral, Option.some.injEq] at read
        rw [Nat.cast_one, mul_one] at rounded
        rw [← read, NumericLiteral.worth, ← Int.cast_natCast, rounded, toDouble_finite_iff] at bytes
        rw [numeral.value]
        exact ⟨fun u member => isSizeUnit_iff.mpr (numeral.units u member), numeral.some_digit,
          numeral.one_point, bytes⟩
      · rw [unmatched] at matched
        cases matched
    · rintro ⟨units, digit, one, whole⟩ bytes returned
      obtain ⟨v, numeral⟩ := numeral_of_units (fun u member => isSizeUnit_iff.mp (units u member))
        one digit
      obtain ⟨n, rounded⟩ := rounded_nat numeral.nonneg 1
      rw [readNumber_numeral numeral, Option.some.injEq] at read
      rw [numeral.value] at whole
      rw [parsed, ← read, NumericLiteral.worth, toDouble_finite_iff.mpr whole] at returned
      refine ⟨v, 1, n, text_of ▸ .bare numeral, rounded, ?_⟩
      rw [Nat.cast_one, mul_one] at rounded
      rw [← Except.ok.inj returned, ← rounded, Int.cast_natCast]

theorem size_exact_iff : SizeExact (ecmaHost casing upper nearest) size ↔
    SizeInOrder nearest (upper.toUpperCase size.trim) := by
  unfold SizeInOrder
  split
  · rename_i num multiplier found
    exact size_exact_matched found
  · rename_i unmatched
    exact size_exact_unmatched unmatched

end Exact

/- What an accepted file was compared with. -/
theorem accepted_sizes {host : HostText} {options : FileValidationOptions} {file : UploadedFile}
    {buffer : List UInt8} (stored : file.buffer = some buffer)
    (accepted : validateFile host options (some file) = .ok ()) : ∃ maxBytes minBytes,
      parseSizeToBytes host (options.maxSize.getD (.text (.ofString "10MB"))) = .ok maxBytes ∧
      parseSizeToBytes host
        (options.minSize.getD (.number (.finite (.ofDigits false [1] 1)))) = .ok minBytes ∧
      maxBytes.less file.size.magnitude = false ∧ file.size.magnitude.less minBytes = false := by
  have sized : checkSize host options file (orText file.fieldname (.ofString "file")) = .ok () := by
    simp only [validateFile, stored, checkDeclaration] at accepted
    cases checked : checkSize host options file (orText file.fieldname (.ofString "file")) with
    | ok passed => rfl
    | error refusal =>
      rw [checked] at accepted
      cases accepted
  simp only [checkSize] at sized
  cases most : parseSizeToBytes host (options.maxSize.getD (.text (.ofString "10MB"))) with
  | error refusal =>
    rw [most] at sized
    cases sized
  | ok maxBytes =>
    cases least : parseSizeToBytes host
        (options.minSize.getD (.number (.finite (.ofDigits false [1] 1)))) with
    | error refusal =>
      rw [most, least] at sized
      cases sized
    | ok minBytes =>
      simp only [most, least, bind, Except.bind] at sized
      refine ⟨maxBytes, minBytes, rfl, rfl, ?_⟩
      split at sized
      · cases sized
      · rename_i within
        split at sized
        · cases sized
        · rename_i enough
          exact ⟨Bool.eq_false_of_not_eq_true within, Bool.eq_false_of_not_eq_true enough⟩

section Limits
variable {casing : Casing} {upper : UpperCasing} {nearest : Nearest} {size : JsString}

/- A size that has been parsed exactly is a whole number of bytes. -/
theorem SizeExact.bytes (exactly : SizeExact (ecmaHost casing upper nearest) size)
    {bytes : Magnitude}
    (parsed : parseSizeToBytes (ecmaHost casing upper nearest) (.text size) = .ok bytes) :
    ∃ n : Nat, bytes = .finite n := by
  obtain ⟨_, _, n, _, _, whole⟩ := exactly bytes parsed
  exact ⟨n, whole⟩

end Limits

/-- A size text is returned only as the whole number of bytes that it denotes exactly when it is in
    order; and limits by texts in order bind every file that is accepted. -/
theorem size_limits_exact_iff (casing : Casing) (upper : UpperCasing) (nearest : Nearest) :
    (∀ size, SizeExact (ecmaHost casing upper nearest) size ↔
      SizeInOrder nearest (upper.toUpperCase size.trim)) ∧
    ∀ options (file : UploadedFile) buffer size k, file.buffer = some buffer →
      validateFile (ecmaHost casing upper nearest) options (some file) = .ok () →
      SizeInOrder nearest (upper.toUpperCase size.trim) → file.size.magnitude = .finite k →
      (options.maxSize = some (.text size) → ∃ limit : Nat,
        parseSizeToBytes (ecmaHost casing upper nearest) (.text size) = .ok (.finite limit) ∧
          k ≤ limit) ∧
      (options.minSize = some (.text size) → ∃ limit : Nat,
        parseSizeToBytes (ecmaHost casing upper nearest) (.text size) = .ok (.finite limit) ∧
          limit ≤ k) := by
  refine ⟨fun size => size_exact_iff, ?_⟩
  intro options file buffer size k stored accepted in_order finite_size
  obtain ⟨maxBytes, minBytes, most, least, within, enough⟩ := accepted_sizes stored accepted
  have exactly : SizeExact (ecmaHost casing upper nearest) size := size_exact_iff.mpr in_order
  constructor
  · intro given
    rw [given, Option.getD_some] at most
    obtain ⟨limit, rfl⟩ := exactly.bytes most
    rw [finite_size] at within
    exact ⟨limit, most, not_lt.mp (of_decide_eq_false within)⟩
  · intro given
    rw [given, Option.getD_some] at least
    obtain ⟨limit, rfl⟩ := exactly.bytes least
    rw [finite_size] at enough
    exact ⟨limit, least, not_lt.mp (of_decide_eq_false enough)⟩

/-- The host of fixed runs: capitals of ASCII letters, and decimals as they are. -/
def plainEcma : HostText := ecmaHost asciiCasing asciiUpperCasing some

/-- Five megabytes, with a blank and in small letters. -/
theorem size_limits_exact_megabytes :
    SizeExact plainEcma (.ofString " 5 mb") := by
  apply ((size_limits_exact_iff asciiCasing asciiUpperCasing some).1 _).mpr
  have found : matchSize (upperLetters (JsString.ofString " 5 mb").trim) =
      some (.ofString "5", 1048576) := by decide
  simp only [SizeInOrder, asciiUpperCasing, found]
  refine ⟨⟨53, by decide, by decide⟩, by decide, 5, ?_, ?_, ?_⟩
  · decide +kernel
  · decide +kernel
  · decide +kernel

/-- A point alone before a unit: NaN, with which no size compares. -/
theorem point_disables_limits : ¬ ∀ size, SizeExact plainEcma size := by
  intro always
  have parsed : parseSizeToBytes plainEcma (.text (.ofString ".MB")) = .ok .nan := by
    have found : matchSize (plainEcma.toUpperCase (JsString.ofString ".MB").trim) =
        some (.ofString ".", 1048576) := by decide
    have unread : plainEcma.parseFloat (.ofString ".") = .nan := by decide +kernel
    simp only [parseSizeToBytes, found, unread]
    rfl
  obtain ⟨_, _, n, _, _, finite⟩ := always _ _ parsed
  cases finite

end AstraPort.Validation
