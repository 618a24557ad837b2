import AstraPort.Foundation.JsText

/- The text format of Prometheus in UTF-16 units: comments, blank lines and samples, one a line; and
   how a sample is read that was written with one blank and no more. -/
namespace AstraPort.Prometheus

/-- Label pairs in the order of the line. -/
structure Sample where
  name : JsString
  labels : List (JsString × JsString)
  value : JsNumeric
  deriving DecidableEq

def isDecimalDigit (u : UInt16) : Bool := decide (48 ≤ u.toNat ∧ u.toNat ≤ 57)

/-- What a label name begins with. -/
def isLabelStart (u : UInt16) : Bool :=
  decide (65 ≤ u.toNat ∧ u.toNat ≤ 90 ∨ 97 ≤ u.toNat ∧ u.toNat ≤ 122 ∨ u.toNat = 95)

/-- What a metric name begins with; it may contain colons. -/
def isMetricStart (u : UInt16) : Bool := isLabelStart u || decide (u.toNat = 58)

section Names
variable (start : UInt16 → Bool)

def inName (u : UInt16) : Bool := start u || isDecimalDigit u

/-- A name, by what its kind begins with. -/
def isName (name : JsString) : Bool := name.head?.any start && name.all (inName start)

def readName (text : JsString) : Option (JsString × JsString) :=
  let name := text.takeWhile (inName start)
  if name.head?.any start then some (name, text.dropWhile (inName start)) else none

end Names

def isTab (u : UInt16) : Bool := decide (u.toNat = 32 ∨ u.toNat = 9)

def skipTabs (text : JsString) : JsString := text.dropWhile isTab

def expectUnit (u : UInt16) (text : JsString) : Option JsString :=
  if text.head? = some u then some text.tail else none

/-- What stands for a unit behind a backslash. -/
def unescaped (u : UInt16) : Option UInt16 :=
  if u = 92 then some 92 else if u = 34 then some 34 else if u = 110 then some 10 else none

/-- The value of a label up to its closing quote; whether a backslash has just been read. -/
def readQuoted : Bool → JsString → Option (JsString × JsString)
  | _, [] => none
  | true, u :: rest => do
    let unit ← unescaped u
    let more ← readQuoted false rest
    return (unit :: more.1, more.2)
  | false, u :: rest =>
    if u = 34 then some ([], rest)
    else if u = 92 then readQuoted true rest
    else (readQuoted false rest).map fun more => (u :: more.1, more.2)

/-- Label pairs up to the closing brace; a comma may stand behind the last. -/
def readPairs : Nat → JsString → Option (List (JsString × JsString) × JsString)
  | 0, _ => none
  | fuel + 1, text =>
    if (skipTabs text).head? = some 125 then some ([], (skipTabs text).tail)
    else do
      let (name, rest) ← readName isLabelStart (skipTabs text)
      let rest ← expectUnit 61 (skipTabs rest)
      let rest ← expectUnit 34 (skipTabs rest)
      let (value, rest) ← readQuoted false rest
      if (skipTabs rest).head? = some 44 then
        let (more, rest) ← readPairs fuel (skipTabs rest).tail
        return ((name, value) :: more, rest)
      else
        let rest ← expectUnit 125 (skipTabs rest)
        return ([(name, value)], rest)

/-- Decimals as JSON has them, and the words for the other numbers in any case. -/
def readValue (token : JsString) : Option JsNumeric :=
  match JsNumber.read (token.map plainChar) with
  | some (x, []) => some (.finite x)
  | _ =>
    let word := String.ofList ((token.map plainChar).map Char.toLower)
    if word = "nan" then some .nan
    else if word = "infinity" ∨ word = "+infinity" ∨ word = "inf" ∨ word = "+inf" then
      some (.infinity false)
    else if word = "-infinity" ∨ word = "-inf" then some (.infinity true)
    else none

/-- Milliseconds behind a value, perhaps none. -/
def isTimestamp (text : JsString) : Bool :=
  let digits := if text.head? = some 45 then text.tail else text
  decide (digits.takeWhile isDecimalDigit ≠ [] ∧ skipTabs (digits.dropWhile isDecimalDigit) = [])

def readSample (line : JsString) : Option Sample := do
  let (name, rest) ← readName isMetricStart line
  let (labels, rest) ←
    if (skipTabs rest).head? = some 123 then readPairs rest.length (skipTabs rest).tail
    else some ([], rest)
  let value ← readValue ((skipTabs rest).takeWhile fun u => !isTab u)
  let rest := skipTabs ((skipTabs rest).dropWhile fun u => !isTab u)
  if rest = [] ∨ isTimestamp rest then return ⟨name, labels, value⟩ else none

/-- A line: none for one that is blank or a comment. -/
def readLine (line : JsString) : Option (Option Sample) :=
  if (skipTabs line).head?.all (· = 35) then some none
  else (readSample (skipTabs line)).map some

def readLines : List JsString → Option (List Sample)
  | [] => some []
  | line :: rest => do
    let first ← readLine line
    let more ← readLines rest
    return first.toList ++ more

def parse (text : JsString) : Option (List Sample) := readLines (text.splitOn 10)

/-- How a unit is written in the value of a label. -/
def escapeUnit (u : UInt16) : JsString :=
  if u = 92 then [92, 92] else if u = 34 then [92, 34] else if u = 10 then [92, 110] else [u]

def pairText (pair : JsString × JsString) : JsString :=
  pair.1 ++ 61 :: 34 :: (pair.2.flatMap escapeUnit ++ [34])

def pairsText (pairs : List (JsString × JsString)) : JsString :=
  List.intercalate [44] (pairs.map pairText)

def labelsText (pairs : List (JsString × JsString)) : JsString :=
  if pairs = [] then [] else 123 :: (pairsText pairs ++ [125])

def sampleText (name : JsString) (pairs : List (JsString × JsString)) (value : JsNumeric) : JsString :=
  name ++ (labelsText pairs ++ 32 :: printed value)

@[simp] theorem pairsText_nil : pairsText [] = [] := rfl

@[simp] theorem pairsText_single (pair : JsString × JsString) : pairsText [pair] = pairText pair := by
  simp [pairsText, List.intercalate]

@[simp] theorem pairsText_cons (pair other : JsString × JsString)
    (more : List (JsString × JsString)) :
    pairsText (pair :: other :: more) = pairText pair ++ 44 :: pairsText (other :: more) := by
  simp [pairsText, List.intercalate]

section Quoting

/- A value is read back, whatever is in it. -/
theorem readQuoted_escaped (value rest : JsString) :
    readQuoted false (value.flatMap escapeUnit ++ 34 :: rest) = some (value, rest) := by
  induction value with
  | nil => rfl
  | cons u value ih =>
    rw [List.flatMap_cons, List.append_assoc]
    by_cases backslash : u = 92
    · subst u
      simp [escapeUnit, readQuoted, unescaped, ih]
    · by_cases quote : u = 34
      · subst u
        simp [escapeUnit, readQuoted, unescaped, ih]
      · by_cases newline : u = 10
        · subst u
          simp [escapeUnit, readQuoted, unescaped, ih]
        · simp [escapeUnit, readQuoted, backslash, quote, newline, ih]

theorem newline_escaped (value : JsString) : 10 ∉ value.flatMap escapeUnit := by
  intro inside
  obtain ⟨u, -, written⟩ := List.mem_flatMap.mp inside
  unfold escapeUnit at written
  split at written
  · revert written
    decide
  · split at written
    · revert written
      decide
    · split at written
      · revert written
        decide
      · rename_i other
        exact other (List.mem_singleton.mp written).symm

end Quoting

theorem skipTabs_cons {u : UInt16} (solid : isTab u = false) (rest : JsString) :
    skipTabs (u :: rest) = u :: rest := List.dropWhile_cons_of_neg (by simp [solid])

section Reading
variable {start : UInt16 → Bool} {name rest : JsString}

theorem name_first (valid : isName start name = true) :
    ∃ u more, name = u :: more ∧ start u = true := by
  simp only [isName, Bool.and_eq_true] at valid
  cases name with
  | nil => cases valid.1
  | cons u more => exact ⟨u, more, rfl, valid.1⟩

theorem readName_name (valid : isName start name = true)
    (ends : ∀ u ∈ rest.head?, inName start u = false) :
    readName start (name ++ rest) = some (name, rest) := by
  have first := name_first valid
  simp only [isName, Bool.and_eq_true, List.all_eq_true] at valid
  obtain ⟨taken, left⟩ := span_exact rest valid.2 ends
  simp only [readName, taken, left, valid.1, if_true]

end Reading

theorem labelStart_solid {u : UInt16} (label : isLabelStart u = true) :
    isTab u = false ∧ u ≠ 125 := by
  simp only [isLabelStart, decide_eq_true_eq] at label
  constructor
  · simp only [isTab, decide_eq_false_iff_not]
    omega
  · rintro rfl
    revert label
    decide

/- One pair, up to what follows its closing quote. -/
theorem readPairs_pair {pair : JsString × JsString} (valid : isName isLabelStart pair.1 = true)
    (fuel : Nat) (rest : JsString) : readPairs (fuel + 1) (pairText pair ++ rest) =
      if (skipTabs rest).head? = some 44 then
        (readPairs fuel (skipTabs rest).tail).map fun more => (pair :: more.1, more.2)
      else (expectUnit 125 (skipTabs rest)).map fun rest => ([pair], rest) := by
  obtain ⟨name, value⟩ := pair
  have split : pairText (name, value) ++ rest =
      name ++ 61 :: 34 :: (value.flatMap escapeUnit ++ 34 :: rest) := by
    simp [pairText]
  have named : readName isLabelStart (name ++ 61 :: 34 :: (value.flatMap escapeUnit ++ 34 :: rest)) =
      some (name, 61 :: 34 :: (value.flatMap escapeUnit ++ 34 :: rest)) := by
    apply readName_name valid
    intro u first
    obtain rfl := Option.some.inj first
    decide
  obtain ⟨u, more, first, label⟩ := name_first valid
  obtain ⟨solid, open_brace⟩ := labelStart_solid label
  have front : skipTabs (pairText (name, value) ++ rest) = pairText (name, value) ++ rest := by
    rw [split, show name = u :: more from first]
    exact skipTabs_cons solid _
  have started : (pairText (name, value) ++ rest).head? ≠ some 125 := by
    rw [split, show name = u :: more from first]
    simpa using open_brace
  have equals : skipTabs (61 :: 34 :: (value.flatMap escapeUnit ++ 34 :: rest)) =
      61 :: 34 :: (value.flatMap escapeUnit ++ 34 :: rest) := skipTabs_cons (by decide) _
  have quote : skipTabs (34 :: (value.flatMap escapeUnit ++ 34 :: rest)) =
      34 :: (value.flatMap escapeUnit ++ 34 :: rest) := skipTabs_cons (by decide) _
  rw [readPairs, front, if_neg started, split, named]
  simp only [Option.bind_eq_bind, Option.bind_some, equals, expectUnit, List.head?_cons, if_true,
    List.tail_cons, quote, readQuoted_escaped]
  split
  · cases readPairs fuel (skipTabs rest).tail with
    | none => rfl
    | some more => rfl
  · split
    · rfl
    · rfl

/- Pairs between braces, with as much fuel as there are pairs. -/
theorem readPairs_pairs {pairs : List (JsString × JsString)} (given : pairs ≠ [])
    (valid : ∀ pair ∈ pairs, isName isLabelStart pair.1 = true) {fuel : Nat}
    (enough : pairs.length ≤ fuel) (rest : JsString) :
    readPairs fuel (pairsText pairs ++ 125 :: rest) = some (pairs, rest) := by
  induction pairs generalizing fuel with
  | nil => exact absurd rfl given
  | cons pair others ih =>
    cases fuel with
    | zero => simp at enough
    | succ fuel =>
      have own := valid pair List.mem_cons_self
      cases others with
      | nil =>
        have brace : skipTabs (125 :: rest) = 125 :: rest := skipTabs_cons (by decide) rest
        rw [pairsText_single, readPairs_pair own, brace]
        simp [expectUnit]
      | cons other more =>
        have text : pairsText (pair :: other :: more) ++ 125 :: rest =
            pairText pair ++ 44 :: (pairsText (other :: more) ++ 125 :: rest) := by
          rw [pairsText_cons, List.append_assoc, List.cons_append]
        have comma : skipTabs (44 :: (pairsText (other :: more) ++ 125 :: rest)) =
            44 :: (pairsText (other :: more) ++ 125 :: rest) := skipTabs_cons (by decide) _
        have behind := ih (List.cons_ne_nil other more)
          (fun pair member => valid pair (List.mem_cons_of_mem _ member))
          (Nat.le_of_succ_le_succ enough)
        rw [text, readPairs_pair own, comma]
        simp [behind]

section Numbers

/-- ASCII behind the blank and before the braces. -/
def Visible (c : Char) : Prop := 32 < c.toNat ∧ c.toNat < 123

instance visible_decidable (c : Char) : Decidable (Visible c) := inferInstanceAs (Decidable (_ ∧ _))

theorem digits_visible {digits : List Char} (all : ∀ c ∈ digits, c.isDigit = true) :
    ∀ c ∈ digits, Visible c := by
  intro c member
  have isDigit := all c member
  simp only [Char.isDigit, Bool.and_eq_true, decide_eq_true_eq, UInt32.le_iff_toNat_le] at isDigit
  have low : 48 ≤ c.toNat := isDigit.1
  have high : c.toNat ≤ 57 := isDigit.2
  unfold Visible
  omega

theorem exponent_visible (e : Int) : ∀ c ∈ JsNumber.exponentText e, Visible c := by
  have digits : ∀ c ∈ Nat.toDigits 10 e.natAbs, Visible c :=
    digits_visible fun c member => Nat.isDigit_of_mem_toDigits (by decide) (by decide) member
  rw [JsNumber.exponentText, List.forall_mem_cons]
  refine ⟨?_, digits⟩
  split
  · decide
  · decide

theorem magnitude_visible {digits : List Char} (all : ∀ c ∈ digits, c.isDigit = true) (point : Int) :
    ∀ c ∈ JsNumber.magnitudeText digits point, Visible c := by
  have zeros (n : Nat) : ∀ c ∈ List.replicate n '0', Visible c :=
    digits_visible (JsNumber.zeros_isDigit n)
  have front (n : Nat) : ∀ c ∈ digits.take n, Visible c :=
    fun c member => digits_visible all c (List.mem_of_mem_take member)
  have back (n : Nat) : ∀ c ∈ digits.drop n, Visible c :=
    fun c member => digits_visible all c (List.mem_of_mem_drop member)
  have dot : Visible '.' := by decide
  have exponent : Visible 'e' := by decide
  have zero : Visible '0' := by decide
  unfold JsNumber.magnitudeText
  split
  · exact List.forall_mem_append.mpr ⟨digits_visible all, zeros _⟩
  · split
    · exact List.forall_mem_append.mpr ⟨front _, List.forall_mem_cons.mpr ⟨dot, back _⟩⟩
    · split
      · have fraction := List.forall_mem_append.mpr ⟨zeros (-point).toNat, digits_visible all⟩
        exact List.forall_mem_cons.mpr ⟨zero, List.forall_mem_cons.mpr ⟨dot, fraction⟩⟩
      · have power := List.forall_mem_cons.mpr ⟨exponent, exponent_visible (point - 1)⟩
        refine List.forall_mem_append.mpr ⟨List.forall_mem_append.mpr ⟨front 1, ?_⟩, power⟩
        split
        · simp
        · exact List.forall_mem_cons.mpr ⟨dot, back 1⟩

/- Numbers are written in visible ASCII, without braces. -/
theorem number_visible (x : JsNumber) : ∀ c ∈ x.text, Visible c := by
  unfold JsNumber.text
  split
  · exact List.forall_mem_singleton.mpr (by decide)
  · refine List.forall_mem_append.mpr ⟨?_, magnitude_visible JsNumber.digits_isDigit _⟩
    split
    · exact List.forall_mem_singleton.mpr (by decide)
    · simp

theorem numeric_visible (x : JsNumeric) : ∀ c ∈ x.text, Visible c := by
  have word {text : List Char} (all : (text.all fun c => decide (Visible c)) = true) :
      ∀ c ∈ text, Visible c :=
    fun c member => of_decide_eq_true (List.all_eq_true.mp all c member)
  cases x with
  | finite x => exact number_visible x
  | negativeZero => exact word (by decide)
  | nan => exact word (by decide)
  | infinity negative =>
    cases negative with
    | false => exact word (by decide)
    | true => exact word (by decide)

theorem codeUnits_ascii {c : Char} (ascii : c.toNat < 123) : codeUnits c = [UInt16.ofNat c.toNat] := by
  rw [codeUnits, if_pos (by omega)]

theorem printed_ascii (x : JsNumeric) :
    printed x = x.text.map fun c => UInt16.ofNat c.toNat := by
  have visible := numeric_visible x
  rw [printed, unitsOf]
  generalize x.text = text at visible
  induction text with
  | nil => rfl
  | cons c rest ih =>
    rw [List.flatMap_cons, codeUnits_ascii (visible c List.mem_cons_self).2, List.map_cons,
      ih fun d member => visible d (List.mem_cons_of_mem _ member)]
    rfl

theorem unit_toNat {c : Char} (ascii : c.toNat < 123) : (UInt16.ofNat c.toNat).toNat = c.toNat := by
  have size : UInt16.size = 65536 := rfl
  exact UInt16.toNat_ofNat_of_lt' (by omega)

theorem printed_visible (x : JsNumeric) : ∀ u ∈ printed x, 32 < u.toNat ∧ u.toNat < 123 := by
  intro u member
  rw [printed_ascii] at member
  obtain ⟨c, inside, rfl⟩ := List.mem_map.mp member
  have visible := numeric_visible x c inside
  rw [unit_toNat visible.2]
  exact visible

theorem printed_chars (x : JsNumeric) : (printed x).map plainChar = x.text := by
  rw [printed_ascii, List.map_map]
  refine (List.map_congr_left fun c member => ?_).trans (List.map_id _)
  have visible := numeric_visible x c member
  rw [Function.comp_apply, plainChar, unit_toNat visible.2, Char.ofNat_toNat]
  rfl

/- A number is read back, up to the sign of zero. -/
theorem readValue_printed (x : JsNumeric) : readValue (printed x) = some x.unsigned := by
  rw [readValue, printed_chars]
  cases x with
  | finite x =>
    have ended : JsNumber.Ends [] := by simp [JsNumber.Ends]
    have read := JsNumber.read_text x ended
    rw [List.append_nil] at read
    simp only [JsNumeric.text, read]
    rfl
  | negativeZero => decide +kernel
  | nan => decide +kernel
  | infinity negative =>
    cases negative with
    | false => decide +kernel
    | true => decide +kernel

end Numbers

section Samples
variable {name : JsString} {pairs : List (JsString × JsString)}

theorem metricStart_solid {u : UInt16} (metric : isMetricStart u = true) :
    isTab u = false ∧ u ≠ 35 := by
  simp only [isMetricStart, isLabelStart, Bool.or_eq_true, decide_eq_true_eq] at metric
  constructor
  · simp only [isTab, decide_eq_false_iff_not]
    omega
  · rintro rfl
    revert metric
    decide

theorem pairs_length (pairs : List (JsString × JsString)) :
    pairs.length ≤ (pairsText pairs).length := by
  induction pairs with
  | nil => exact Nat.zero_le _
  | cons pair others ih =>
    have one : 1 ≤ (pairText pair).length := by
      simp [pairText]
      omega
    cases others with
    | nil =>
      rw [pairsText_single]
      exact one
    | cons other more =>
      rw [pairsText_cons, List.length_append, List.length_cons, List.length_cons]
      rw [List.length_cons] at ih ⊢
      omega

/- The value behind the blank, and nothing behind it. -/
theorem value_behind (x : JsNumeric) :
    (skipTabs (32 :: printed x)).takeWhile (fun u => !isTab u) = printed x ∧
      (skipTabs (32 :: printed x)).dropWhile (fun u => !isTab u) = [] := by
  have solid : ∀ u ∈ printed x, isTab u = false := by
    intro u member
    have visible := printed_visible x u member
    simp only [isTab, decide_eq_false_iff_not]
    omega
  have front : skipTabs (32 :: printed x) = printed x := by
    have blank : skipTabs (32 :: printed x) = skipTabs (printed x) :=
      List.dropWhile_cons_of_pos (by decide)
    rw [blank]
    cases text : printed x with
    | nil => rfl
    | cons u rest => exact skipTabs_cons (solid u (text ▸ List.mem_cons_self)) rest
  have inside : ∀ u ∈ printed x, (!isTab u) = true := fun u member => by simp [solid u member]
  have span := span_exact [] inside (by simp)
  rw [List.append_nil] at span
  rw [front]
  exact span

theorem readSample_text (named : isName isMetricStart name = true)
    (valid : ∀ pair ∈ pairs, isName isLabelStart pair.1 = true) (x : JsNumeric) :
    readSample (sampleText name pairs x) = some ⟨name, pairs, x.unsigned⟩ := by
  obtain ⟨token, rest⟩ := value_behind x
  have value := readValue_printed x
  have ended : skipTabs [] = [] := rfl
  by_cases bare : pairs = []
  · subst pairs
    have text : sampleText name [] x = name ++ 32 :: printed x := rfl
    have read : readName isMetricStart (name ++ 32 :: printed x) = some (name, 32 :: printed x) := by
      apply readName_name named
      intro u first
      obtain rfl := Option.some.inj first
      decide
    have no_brace : (skipTabs (32 :: printed x)).head? ≠ some 123 := by
      intro brace
      obtain ⟨more, split⟩ := List.head?_eq_some_iff.mp brace
      rw [split, List.takeWhile_cons_of_pos (by decide)] at token
      have visible := printed_visible x 123 (token ▸ List.mem_cons_self)
      exact absurd visible.2 (by decide)
    simp only [readSample, text, read, Option.bind_eq_bind, Option.bind_some, if_neg no_brace, token,
      rest, value, ended, true_or, if_true]
    rfl
  · have text : sampleText name pairs x =
        name ++ 123 :: (pairsText pairs ++ 125 :: 32 :: printed x) := by
      simp [sampleText, labelsText, bare]
    have read : readName isMetricStart (name ++ 123 :: (pairsText pairs ++ 125 :: 32 :: printed x)) =
        some (name, 123 :: (pairsText pairs ++ 125 :: 32 :: printed x)) := by
      apply readName_name named
      intro u first
      obtain rfl := Option.some.inj first
      decide
    have brace : skipTabs (123 :: (pairsText pairs ++ 125 :: 32 :: printed x)) =
        123 :: (pairsText pairs ++ 125 :: 32 :: printed x) := skipTabs_cons (by decide) _
    have enough : pairs.length ≤ (123 :: (pairsText pairs ++ 125 :: 32 :: printed x)).length := by
      have shorter := pairs_length pairs
      rw [List.length_cons, List.length_append]
      omega
    simp only [readSample, text, read, Option.bind_eq_bind, Option.bind_some, brace, List.head?_cons,
      if_true, List.tail_cons, readPairs_pairs bare valid enough, token, rest, value, ended, true_or]
    rfl

section Newlines

theorem name_unbroken {start : UInt16 → Bool} (apart : start 10 = false)
    (named : isName start name = true) : 10 ∉ name := by
  intro inside
  simp only [isName, Bool.and_eq_true, List.all_eq_true] at named
  have unit := named.2 10 inside
  rw [inName, apart] at unit
  revert unit
  decide

theorem pairsText_unbroken (valid : ∀ pair ∈ pairs, isName isLabelStart pair.1 = true) :
    10 ∉ pairsText pairs := by
  induction pairs with
  | nil => simp
  | cons pair others ih =>
    have own : 10 ∉ pairText pair := by
      have name := name_unbroken (by decide) (valid pair List.mem_cons_self)
      have value := newline_escaped pair.2
      simp [pairText, name, value]
    have behind := ih fun other member => valid other (List.mem_cons_of_mem _ member)
    cases others with
    | nil => simpa using own
    | cons other more => simp [own, behind]

/- A sample is written on one line. -/
theorem sampleText_unbroken (named : isName isMetricStart name = true)
    (valid : ∀ pair ∈ pairs, isName isLabelStart pair.1 = true) (x : JsNumeric) :
    10 ∉ sampleText name pairs x := by
  have front := name_unbroken (by decide) named
  have between := pairsText_unbroken valid
  have number : 10 ∉ printed x := by
    intro inside
    have visible := printed_visible x 10 inside
    exact absurd visible.1 (by decide)
  have labels : 10 ∉ labelsText pairs := by
    unfold labelsText
    split
    · simp
    · simp [between]
  simp [sampleText, front, labels, number]

end Newlines

/- A line of a sample is read as one. -/
theorem readLine_text (named : isName isMetricStart name = true)
    (valid : ∀ pair ∈ pairs, isName isLabelStart pair.1 = true) (x : JsNumeric) :
    readLine (sampleText name pairs x) = some (some ⟨name, pairs, x.unsigned⟩) := by
  obtain ⟨u, more, first, start⟩ := name_first named
  obtain ⟨solid, noComment⟩ := metricStart_solid start
  have front : skipTabs (sampleText name pairs x) = sampleText name pairs x := by
    rw [sampleText, first]
    exact skipTabs_cons solid _
  have sample : (sampleText name pairs x).head?.all (fun v => decide (v = 35)) = false := by
    rw [sampleText, first]
    simpa using noComment
  rw [readLine, front, if_neg (by rw [sample]; exact Bool.false_ne_true),
    readSample_text named valid x]
  rfl

end Samples

theorem readLines_append {front back : List JsString} {samples more : List Sample}
    (first : readLines front = some samples) (second : readLines back = some more) :
    readLines (front ++ back) = some (samples ++ more) := by
  induction front generalizing samples with
  | nil =>
    obtain rfl : [] = samples := Option.some.inj first
    exact second
  | cons line rest ih =>
    simp only [readLines, Option.bind_eq_bind, Option.bind_eq_some_iff, pure] at first
    obtain ⟨read, line_read, others, rest_read, same⟩ := first
    obtain rfl := Option.some.inj same
    rw [List.cons_append]
    simp only [readLines, line_read, ih rest_read, Option.bind_eq_bind, Option.bind_some, pure,
      List.append_assoc]

theorem readLine_comment (rest : JsString) : readLine (35 :: rest) = some none := by
  have front : skipTabs (35 :: rest) = 35 :: rest := skipTabs_cons (by decide) rest
  rw [readLine, front]
  rfl

section Documents
variable {Item : Type} {items : List Item}

/- Samples, one a line. -/
theorem readLines_samples {line : Item → JsString} {sample : Item → Sample}
    (each : ∀ item ∈ items, readLine (line item) = some (some (sample item))) :
    readLines (items.map line) = some (items.map sample) := by
  induction items with
  | nil => rfl
  | cons item rest ih =>
    have behind := ih fun other member => each other (List.mem_cons_of_mem _ member)
    have own := each item List.mem_cons_self
    simp only [List.map_cons, readLines, own, behind, Option.bind_eq_bind, Option.bind_some, pure]
    rfl

/- Blocks of lines, one behind another. -/
theorem readLines_blocks {block : Item → List JsString} {samples : Item → List Sample}
    (each : ∀ item ∈ items, readLines (block item) = some (samples item)) :
    readLines (items.flatMap block) = some (items.flatMap samples) := by
  induction items with
  | nil => rfl
  | cons item rest ih =>
    have behind := ih fun other member => each other (List.mem_cons_of_mem _ member)
    have own := each item List.mem_cons_self
    rw [List.flatMap_cons, List.flatMap_cons]
    exact readLines_append own behind

end Documents

/- Lines without newlines are read one by one. -/
theorem parse_lines {lines : List JsString} (single : ∀ line ∈ lines, 10 ∉ line) :
    parse (List.intercalate [10] lines) = readLines lines := by
  by_cases given : lines = []
  · subst lines
    rfl
  · rw [parse, List.splitOn_intercalate 10 single given]

end AstraPort.Prometheus
