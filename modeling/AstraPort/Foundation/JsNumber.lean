import Mathlib.Data.List.DropRight
import Mathlib.Data.List.Basic
import Mathlib.Tactic.Common

/- Finite numbers by their shortest decimals, which determine them: Number::toString, and
   reading it back as a JSON literal. A double is one of these; 0 and -0 are the same. -/
namespace AstraPort

/- What satisfies a test is taken whole, up to what does not. -/
theorem span_exact {Symbol : Type} {test : Symbol → Bool} {front : List Symbol}
    (rest : List Symbol) (inside : ∀ s ∈ front, test s = true)
    (stop : ∀ s ∈ rest.head?, test s = false) :
    (front ++ rest).takeWhile test = front ∧ (front ++ rest).dropWhile test = rest := by
  rw [List.takeWhile_append_of_pos inside, List.dropWhile_append_of_pos inside]
  cases rest with
  | nil => simp
  | cons s rest => simp [stop s rfl]

/-- ± 0.d₁…dₖ × 10^point, without zeros at either end; no digits at all for zero. -/
structure JsNumber where
  negative : Bool
  digits : List (Fin 10)
  point : Int
  normal : if digits = [] then negative = false ∧ point = 0
    else digits.head? ≠ some 0 ∧ digits.getLast? ≠ some 0
  deriving DecidableEq

namespace JsNumber

def zero : JsNumber := ⟨false, [], 0, by simp⟩

def digitChar (d : Fin 10) : Char := Nat.digitChar d.val

def charDigit (c : Char) : Fin 10 := Fin.ofNat 10 (c.toNat - 48)

/-- What stands behind the e of scientific notation. -/
def exponentText (e : Int) : List Char :=
  (if e < 0 then '-' else '+') :: Nat.toDigits 10 e.natAbs

/-- Digits with the decimal point after the first so many: in full where it is not far from
    them, in scientific notation otherwise. -/
def magnitudeText (digits : List Char) (point : Int) : List Char :=
  if digits.length ≤ point ∧ point ≤ 21 then
    digits ++ List.replicate (point.toNat - digits.length) '0'
  else if 0 < point ∧ point ≤ 21 then
    digits.take point.toNat ++ '.' :: digits.drop point.toNat
  else if -6 < point ∧ point ≤ 0 then
    '0' :: '.' :: (List.replicate (-point).toNat '0' ++ digits)
  else
    digits.take 1 ++ (if digits.length = 1 then [] else '.' :: digits.drop 1) ++
      'e' :: exponentText (point - 1)

/-- Number::toString. -/
def text (x : JsNumber) : List Char :=
  if x.digits = [] then ['0']
  else (if x.negative then ['-'] else []) ++ magnitudeText (x.digits.map digitChar) x.point

/-- The number of any digits: zeros at both ends say nothing. -/
def ofDigits (negative : Bool) (digits : List (Fin 10)) (point : Int) : JsNumber :=
  let significant := digits.dropWhile (· = 0)
  let kept := significant.rdropWhile (· = 0)
  if none_left : kept = [] then zero
  else
    { negative := negative
      digits := kept
      point := point - (digits.length - significant.length : Nat)
      normal := by
        have last := List.rdropWhile_last_not (fun d : Fin 10 => decide (d = 0)) significant none_left
        have first : kept.head? = significant.head? := by
          obtain ⟨rest, split⟩ := List.rdropWhile_prefix (fun d : Fin 10 => decide (d = 0))
            (l := significant)
          obtain ⟨d, ds, eq⟩ := List.exists_cons_of_ne_nil none_left
          have head : significant = (d :: ds) ++ rest := by rw [← split, ← eq]
          rw [eq, head]
          rfl
        have lead := List.head?_dropWhile_not (fun d : Fin 10 => decide (d = 0)) digits
        rw [if_neg none_left]
        constructor
        · rw [first]
          intro zero
          rw [zero] at lead
          simp at lead
        · rw [List.getLast?_eq_some_getLast none_left]
          simpa using last }

/-- Digits after a decimal point, if there is one. -/
def readFraction (text : List Char) : Option (List Char × List Char) :=
  match text with
  | '.' :: rest =>
    if rest.takeWhile Char.isDigit = [] then none
    else some (rest.takeWhile Char.isDigit, rest.dropWhile Char.isDigit)
  | _ => some ([], text)

def readSign (text : List Char) : Bool × List Char :=
  match text with
  | '-' :: rest => (true, rest)
  | '+' :: rest => (false, rest)
  | _ => (false, text)

/-- The exponent, if there is one. -/
def readExponent (text : List Char) : Option (Int × List Char) :=
  if text.head? = some 'e' ∨ text.head? = some 'E' then
    let signed := readSign text.tail
    let digits := signed.2.takeWhile Char.isDigit
    let value : Int := Nat.ofDigitChars 10 digits 0
    if digits = [] then none
    else some (if signed.1 then -value else value, signed.2.dropWhile Char.isDigit)
  else some (0, text)

/-- A number literal of JSON and the text behind it, read exactly (JSON.parse takes the
    nearest double). A zero in front stands alone. -/
def read (text : List Char) : Option (JsNumber × List Char) :=
  let negative := decide (text.head? = some '-')
  let body := if negative then text.tail else text
  let whole := body.takeWhile Char.isDigit
  if whole = [] ∨ (whole.head? = some '0' ∧ whole ≠ ['0']) then none
  else do
    let fraction ← readFraction (body.dropWhile Char.isDigit)
    let exponent ← readExponent fraction.2
    return (ofDigits negative ((whole ++ fraction.1).map charDigit)
      (whole.length + exponent.1), exponent.2)

section RoundTrip

theorem digitChar_isDigit (d : Fin 10) : (digitChar d).isDigit = true := by
  simp [digitChar, Nat.isDigit_digitChar]

theorem charDigit_digitChar (d : Fin 10) : charDigit (digitChar d) = d := by
  have value := Nat.toNat_digitChar_sub_48_of_lt_ten d.isLt
  rw [charDigit, digitChar, value]
  exact Fin.ofNat_val_eq_self d

@[simp] theorem charDigit_comp : charDigit ∘ digitChar = id := funext charDigit_digitChar

theorem charDigit_map (ds : List (Fin 10)) : (ds.map digitChar).map charDigit = ds := by
  simp

theorem digits_isDigit {ds : List (Fin 10)} : ∀ c ∈ ds.map digitChar, c.isDigit = true := by
  intro c member
  obtain ⟨d, _, rfl⟩ := List.mem_map.mp member
  exact digitChar_isDigit d

theorem zeros_isDigit (n : Nat) : ∀ c ∈ List.replicate n '0', c.isDigit = true := by
  intro c member
  rw [List.eq_of_mem_replicate member]
  rfl

/-- The text does not go on with a digit. -/
def NoDigit (text : List Char) : Prop := ∀ c ∈ text.head?, c.isDigit = false

/-- Nothing in the text would prolong a number literal that stands before it. -/
def Ends (text : List Char) : Prop :=
  ∀ c ∈ text.head?, c.isDigit = false ∧ c ≠ '.' ∧ c ≠ 'e' ∧ c ≠ 'E'

theorem Ends.noDigit {text : List Char} (ends : Ends text) : NoDigit text :=
  fun c first => (ends c first).1

theorem zero_isDigit : ∀ c ∈ ['0'], c.isDigit = true := by simp

/- A run of digits is taken whole. -/
theorem span_digits {ds rest : List Char} (digits : ∀ c ∈ ds, c.isDigit = true)
    (stop : NoDigit rest) : (ds ++ rest).takeWhile Char.isDigit = ds ∧
      (ds ++ rest).dropWhile Char.isDigit = rest := span_exact rest digits stop

theorem readFraction_digits {ds rest : List Char} (some_digits : ds ≠ [])
    (digits : ∀ c ∈ ds, c.isDigit = true) (stop : NoDigit rest) :
    readFraction ('.' :: (ds ++ rest)) = some (ds, rest) := by
  obtain ⟨taken, left⟩ := span_digits digits stop
  simp [readFraction, taken, left, some_digits]

theorem readFraction_none {rest : List Char} (pointless : rest.head? ≠ some '.') :
    readFraction rest = some ([], rest) := by
  unfold readFraction
  split
  · simp at pointless
  · rfl

theorem readExponent_none {rest : List Char} (ends : Ends rest) :
    readExponent rest = some (0, rest) := by
  have absent : ¬ (rest.head? = some 'e' ∨ rest.head? = some 'E') := by
    rintro (small | capital)
    · exact (ends 'e' small).2.2.1 rfl
    · exact (ends 'E' capital).2.2.2 rfl
  rw [readExponent, if_neg absent]

theorem readExponent_text (e : Int) {rest : List Char} (ends : Ends rest) :
    readExponent ('e' :: (exponentText e ++ rest)) = some (e, rest) := by
  have digits : ∀ c ∈ Nat.toDigits 10 e.natAbs, c.isDigit = true := fun c member =>
    Nat.isDigit_of_mem_toDigits (by decide) (by decide) member
  obtain ⟨taken, left⟩ := span_digits digits ends.noDigit
  by_cases negative : e < 0
  · have back : -(e.natAbs : Int) = e := by omega
    simp only [readExponent, exponentText, if_pos negative, List.cons_append, List.head?_cons,
      true_or, readSign, List.tail_cons, taken, left, Nat.toDigits_ne_nil,
      Nat.ofDigitChars_ten_toDigits, ↓reduceIte, back]
  · have back : (e.natAbs : Int) = e := by omega
    simp only [readExponent, exponentText, if_neg negative, List.cons_append, List.head?_cons,
      true_or, readSign, List.tail_cons, taken, left, Nat.toDigits_ne_nil,
      Nat.ofDigitChars_ten_toDigits, Bool.false_eq_true, ↓reduceIte, back]

/- A literal taken apart: sign, whole part, and what reading the rest of it gives. -/
theorem read_parts (negative : Bool) {whole fraction left more rest : List Char} {e : Int}
    (digits : ∀ c ∈ whole, c.isDigit = true) (some_digits : whole ≠ [])
    (lead : whole.head? = some '0' → whole = ['0']) (stop : NoDigit left)
    (after_point : readFraction left = some (fraction, more))
    (after_e : readExponent more = some (e, rest)) :
    read ((if negative then ['-'] else []) ++ (whole ++ left)) =
      some (ofDigits negative ((whole ++ fraction).map charDigit) (whole.length + e), rest) := by
  obtain ⟨taken, kept⟩ := span_digits digits stop
  obtain ⟨d, ds, rfl⟩ := List.exists_cons_of_ne_nil some_digits
  have signless : d ≠ '-' := by
    rintro rfl
    exact absurd (digits '-' List.mem_cons_self) (by decide)
  have lead' : ¬ ((d :: ds : List Char) = [] ∨ ((d :: ds).head? = some '0' ∧ d :: ds ≠ ['0'])) := by
    rintro (none | ⟨zero, longer⟩)
    · cases none
    · exact longer (lead zero)
  have body : (if decide (((if negative then ['-'] else []) ++ (d :: ds ++ left)).head? = some '-')
      then ((if negative then ['-'] else []) ++ (d :: ds ++ left)).tail
      else (if negative then ['-'] else []) ++ (d :: ds ++ left)) = d :: ds ++ left := by
    cases negative <;> simp [signless]
  have sign : decide (((if negative then ['-'] else []) ++ (d :: ds ++ left)).head? = some '-') =
      negative := by
    cases negative <;> simp [signless]
  simp only [read]
  rw [body, sign, taken, kept, if_neg lead', after_point]
  simp [after_e]

/- Zeros around the digits of a number change nothing. -/
theorem ofDigits_padded (x : JsNumber) (front back : Nat) (some_digits : x.digits ≠ []) :
    ofDigits x.negative (List.replicate front 0 ++ (x.digits ++ List.replicate back 0))
      (x.point + front) = x := by
  have normal := x.normal
  rw [if_neg some_digits] at normal
  obtain ⟨d, ds, eq⟩ := List.exists_cons_of_ne_nil some_digits
  have lead : d ≠ 0 := by
    rintro rfl
    exact normal.1 (by rw [eq]; rfl)
  have significant : (List.replicate front 0 ++ (x.digits ++ List.replicate back 0)).dropWhile
      (· = 0) = x.digits ++ List.replicate back 0 := by
    rw [List.dropWhile_append_of_pos (fun z member => by
      simpa using List.eq_of_mem_replicate member), eq]
    simp [lead]
  have last : x.digits.rdropWhile (fun d => decide (d = 0)) = x.digits := by
    rw [List.rdropWhile_eq_self_iff]
    intro full zero
    apply normal.2
    rw [List.getLast?_eq_some_getLast full]
    exact congrArg some (by simpa using zero)
  have kept : (x.digits ++ List.replicate back 0).rdropWhile (fun d => decide (d = 0)) =
      x.digits := by
    induction back with
    | zero => simpa using last
    | succ back ih =>
      rw [List.replicate_succ', ← List.append_assoc, List.rdropWhile_concat_pos _ _ _ (by simp), ih]
      rw [List.dropWhile_append_of_pos (fun z member => by
        simpa using List.eq_of_mem_replicate member), eq]
      simp [lead]
  obtain ⟨negative, digits, point, _⟩ := x
  simp only [ofDigits, significant, kept, some_digits, ↓reduceDIte, JsNumber.mk.injEq, true_and]
  simp

section Literals
variable {x : JsNumber} {rest : List Char}

/- The first digit of a number is not a zero. -/
theorem digits_lead (x : JsNumber) : (x.digits.map digitChar).head? ≠ some '0' := by
  have normal := x.normal
  cases eq : x.digits with
  | nil => simp
  | cons d ds =>
    rw [eq, if_neg (by simp)] at normal
    have nonzero : d ≠ 0 := fun zero => normal.1 (by rw [zero]; rfl)
    have value : d.val ≠ 0 := fun zero => nonzero (Fin.ext zero)
    simpa [digitChar] using value

theorem read_whole (some_digits : x.digits ≠ []) (ends : Ends rest)
    (reaches : x.digits.length ≤ x.point) :
    read ((if x.negative then ['-'] else []) ++ (x.digits.map digitChar ++
      List.replicate (x.point.toNat - x.digits.length) '0' ++ rest)) = some (x, rest) := by
  have digits : ∀ c ∈ x.digits.map digitChar ++
      List.replicate (x.point.toNat - x.digits.length) '0', c.isDigit = true := fun c member =>
    (List.mem_append.mp member).elim (digits_isDigit c) (zeros_isDigit _ c)
  have lead : (x.digits.map digitChar ++
      List.replicate (x.point.toNat - x.digits.length) '0').head? ≠ some '0' := by
    rw [List.head?_append_of_ne_nil _ (by simpa using some_digits)]
    exact digits_lead x
  have pointless : rest.head? ≠ some '.' := fun point => (ends '.' point).2.1 rfl
  rw [read_parts x.negative digits (by simp [some_digits]) (fun zero => absurd zero lead)
    ends.noDigit (readFraction_none pointless) (readExponent_none ends)]
  have padded := ofDigits_padded x 0 (x.point.toNat - x.digits.length) some_digits
  have width : ((x.digits.length + (x.point.toNat - x.digits.length) : Nat) : Int) = x.point := by
    omega
  have zero : charDigit '0' = 0 := rfl
  simpa [charDigit_map, zero, width] using padded

theorem read_split (some_digits : x.digits ≠ []) (ends : Ends rest) (begun : 0 < x.point)
    (within : x.point < x.digits.length) :
    read ((if x.negative then ['-'] else []) ++ ((x.digits.map digitChar).take x.point.toNat ++
      '.' :: (x.digits.map digitChar).drop x.point.toNat ++ rest)) = some (x, rest) := by
  have digits : ∀ c ∈ (x.digits.map digitChar).take x.point.toNat, c.isDigit = true :=
    fun c member => digits_isDigit c (List.mem_of_mem_take member)
  have digits' : ∀ c ∈ (x.digits.map digitChar).drop x.point.toNat, c.isDigit = true :=
    fun c member => digits_isDigit c (List.mem_of_mem_drop member)
  have lead : ((x.digits.map digitChar).take x.point.toNat).head? ≠ some '0' := by
    rw [List.head?_take, if_neg (by omega)]
    exact digits_lead x
  have some_fraction : (x.digits.map digitChar).drop x.point.toNat ≠ [] := by
    rw [Ne, List.drop_eq_nil_iff, List.length_map]
    omega
  have some_whole : (x.digits.map digitChar).take x.point.toNat ≠ [] := by
    simp [some_digits]
    omega
  rw [List.append_assoc, List.cons_append, read_parts x.negative digits some_whole
    (fun zero => absurd zero lead) (by simp [NoDigit])
    (readFraction_digits some_fraction digits' ends.noDigit) (readExponent_none ends),
    List.take_append_drop, charDigit_map]
  have padded := ofDigits_padded x 0 0 some_digits
  have width : ((min x.point.toNat x.digits.length : Nat) : Int) = x.point := by omega
  simpa [width] using padded

theorem read_small (some_digits : x.digits ≠ []) (ends : Ends rest) (small : x.point ≤ 0) :
    read ((if x.negative then ['-'] else []) ++ ('0' :: '.' ::
      (List.replicate (-x.point).toNat '0' ++ x.digits.map digitChar) ++ rest)) =
      some (x, rest) := by
  have digits : ∀ c ∈ List.replicate (-x.point).toNat '0' ++ x.digits.map digitChar,
      c.isDigit = true := fun c member =>
    (List.mem_append.mp member).elim (zeros_isDigit _ c) (digits_isDigit c)
  have parts := read_parts x.negative zero_isDigit (by simp) (fun _ => rfl)
    (by simp [NoDigit]) (readFraction_digits (by simp [some_digits]) digits ends.noDigit)
    (readExponent_none ends)
  simp only [List.cons_append, List.nil_append] at parts ⊢
  rw [parts]
  have padded := ofDigits_padded x (1 + (-x.point).toNat) 0 some_digits
  have width : x.point + ((1 + (-x.point).toNat : Nat) : Int) = 1 := by omega
  have zero : charDigit '0' = 0 := rfl
  rw [width, Nat.add_comm 1, List.replicate_succ] at padded
  simpa [charDigit_map, zero] using padded

theorem read_scientific (some_digits : x.digits ≠ []) (ends : Ends rest) :
    read ((if x.negative then ['-'] else []) ++ ((x.digits.map digitChar).take 1 ++
      (if (x.digits.map digitChar).length = 1 then [] else
        '.' :: (x.digits.map digitChar).drop 1) ++
      'e' :: exponentText (x.point - 1) ++ rest)) = some (x, rest) := by
  obtain ⟨d, ds, eq⟩ := List.exists_cons_of_ne_nil some_digits
  have exponent := readExponent_text (x.point - 1) ends
  have lead := digits_lead x
  have padded := ofDigits_padded x 0 0 some_digits
  rw [eq] at lead padded
  rw [eq]
  have digits : ∀ c ∈ [digitChar d], c.isDigit = true := by
    intro c member
    rw [List.mem_singleton.mp member]
    exact digitChar_isDigit d
  have unled : [digitChar d].head? = some '0' → [digitChar d] = ['0'] := fun zero =>
    absurd zero lead
  have result (fraction : List Char) (all : fraction = ds.map digitChar) :
      ofDigits x.negative (([digitChar d] ++ fraction).map charDigit)
        (([digitChar d].length : Int) + (x.point - 1)) = x := by
    have width : (1 : Int) + (x.point - 1) = x.point := by omega
    rw [all]
    simpa [charDigit_digitChar, width] using padded
  by_cases single : ds = []
  · have parts := read_parts x.negative digits (by simp) unled (by simp [NoDigit])
      (readFraction_none (by simp)) exponent
    rw [result [] (by simp [single])] at parts
    simpa [single] using parts
  · have fraction : ∀ c ∈ ds.map digitChar, c.isDigit = true := digits_isDigit
    have parts := read_parts x.negative digits (by simp) unled (by simp [NoDigit])
      (readFraction_digits (by simpa using single) fraction (by simp [NoDigit])) exponent
    rw [result _ rfl] at parts
    simpa [single] using parts

/- A number is read back from its text, whatever follows that does not prolong it. -/
theorem read_text (x : JsNumber) (ends : Ends rest) : read (x.text ++ rest) = some (x, rest) := by
  unfold text
  by_cases some_digits : x.digits = []
  · have none := x.normal
    rw [if_pos some_digits] at none ⊢
    have parts := read_parts false zero_isDigit (by simp) (fun _ => rfl) ends.noDigit
      (readFraction_none fun point => (ends '.' point).2.1 rfl) (readExponent_none ends)
    obtain ⟨negative, digits, point, _⟩ := x
    obtain ⟨rfl, rfl⟩ := none
    obtain rfl : digits = [] := some_digits
    exact parts
  · rw [if_neg some_digits, List.append_assoc, magnitudeText, List.length_map]
    by_cases whole : (x.digits.length : Int) ≤ x.point ∧ x.point ≤ 21
    · rw [if_pos whole]
      exact read_whole some_digits ends whole.1
    · rw [if_neg whole]
      by_cases split : 0 < x.point ∧ x.point ≤ 21
      · rw [if_pos split]
        exact read_split some_digits ends split.1 (by omega)
      · rw [if_neg split]
        by_cases small : -6 < x.point ∧ x.point ≤ 0
        · rw [if_pos small]
          exact read_small some_digits ends small.2
        · rw [if_neg small]
          simpa using read_scientific some_digits ends

/- The text of a number begins with a digit or a minus sign. -/
theorem text_head (x : JsNumber) : ∃ c cs, x.text = c :: cs ∧ (c = '-' ∨ c.isDigit = true) := by
  unfold text
  by_cases some_digits : x.digits = []
  · exact ⟨'0', [], by rw [if_pos some_digits], Or.inr rfl⟩
  · obtain ⟨d, ds, eq⟩ := List.exists_cons_of_ne_nil some_digits
    rw [if_neg some_digits]
    cases x.negative with
    | true => exact ⟨'-', _, rfl, Or.inl rfl⟩
    | false =>
      have digit := digitChar_isDigit d
      simp only [Bool.false_eq_true, ↓reduceIte, List.nil_append, magnitudeText, eq, List.map_cons]
      split
      · exact ⟨_, _, rfl, Or.inr digit⟩
      · split
        · rename_i range
          obtain ⟨n, width⟩ : ∃ n, x.point.toNat = n + 1 := ⟨x.point.toNat - 1, by omega⟩
          rw [width]
          exact ⟨_, _, rfl, Or.inr digit⟩
        · split
          · exact ⟨_, _, rfl, Or.inr rfl⟩
          · exact ⟨_, _, rfl, Or.inr digit⟩

end Literals
end RoundTrip
end JsNumber

/- There are ten digits; zero here is the literal, as in the numerals of Fin. -/
instance ten_digits : @NeZero Nat Zero.ofOfNat0 10 := Nat.instNeZeroSucc

end AstraPort
