import AstraPort.Foundation.JsString

/- The text JSON.stringify makes of a string, and JSON.parse reading it back. -/
namespace AstraPort

/-- A backslash, u and four hexadecimal digits. -/
def unicodeEscape (u : UInt16) : List Char :=
  ['\\', 'u', Nat.digitChar (u.toNat / 4096), Nat.digitChar (u.toNat / 256 % 16),
    Nat.digitChar (u.toNat / 16 % 16), Nat.digitChar (u.toNat % 16)]

/-- Code units with an escape of two characters, and its second one. -/
def shortEscapes : List (UInt16 × Char) :=
  [(8, 'b'), (9, 't'), (10, 'n'), (12, 'f'), (13, 'r'), (34, '"'), (92, '\\')]

/-- A code unit that is not half of a pair. -/
def quotedUnit (u : UInt16) : List Char :=
  match shortEscapes.lookup u with
  | some c => ['\\', c]
  | none =>
    if u.toNat < 0x20 ∨ isHighSurrogate u ∨ isLowSurrogate u then unicodeEscape u
    else [plainChar u]

/-- QuoteJSONString, the quotes left out. -/
def quoted : JsString → List Char
  | [] => []
  | [u] => quotedUnit u
  | u :: v :: rest =>
    if isHighSurrogate u && isLowSurrogate v then pairedChar u v :: quoted rest
    else quotedUnit u ++ quoted (v :: rest)

def hexValue (c : Char) : Option Nat :=
  let n := c.toNat
  if 48 ≤ n ∧ n ≤ 57 then some (n - 48)
  else if 97 ≤ n ∧ n ≤ 102 then some (n - 87)
  else if 65 ≤ n ∧ n ≤ 70 then some (n - 55)
  else none

def hexUnit (a b c d : Char) : Option UInt16 := do
  let a ← hexValue a
  let b ← hexValue b
  let c ← hexValue c
  let d ← hexValue d
  return UInt16.ofNat (a * 4096 + b * 256 + c * 16 + d)

/-- The code unit of an escape by its second character; a slash may be escaped too. -/
def shortEscaped (c : Char) : Option UInt16 :=
  ((shortEscapes.map Prod.swap) ++ [('/', 47)]).lookup c

def readHex : List Char → Option (JsString × List Char)
  | a :: b :: c :: d :: rest => (hexUnit a b c d).map fun u => ([u], rest)
  | _ => none

/-- An escape behind its backslash. -/
def readEscape : List Char → Option (JsString × List Char)
  | [] => none
  | e :: rest => if e = 'u' then readHex rest else (shortEscaped e).map fun u => ([u], rest)

/-- One character of a string literal, or one escape; control characters must be escaped. -/
def readUnits : List Char → Option (JsString × List Char)
  | [] => none
  | c :: rest =>
    if c = '\\' then readEscape rest
    else if c.toNat < 0x20 then none
    else some (codeUnits c, rest)

/-- A string literal after its opening quote, and the text behind it. The length of the
    text is fuel enough. -/
def readString : Nat → List Char → Option (JsString × List Char)
  | 0, _ => none
  | fuel + 1, text =>
    if text.head? = some '"' then some ([], text.tail)
    else (readUnits text).bind fun first =>
      (readString fuel first.2).map fun more => (first.1 ++ more.1, more.2)

theorem shortEscapes_read : ∀ e ∈ shortEscapes,
    e.2 ≠ 'u' ∧ shortEscaped e.2 = some e.1 := by decide

theorem hexValue_digitChar : ∀ d < 16, hexValue (Nat.digitChar d) = some d := by decide

theorem unicodeEscape_read (u : UInt16) (rest : List Char) :
    readUnits (unicodeEscape u ++ rest) = some ([u], rest) := by
  have bound := u.toNat_lt
  have value : u.toNat / 4096 * 4096 + u.toNat / 256 % 16 * 256 + u.toNat / 16 % 16 * 16 +
      u.toNat % 16 = u.toNat := by omega
  have unit : hexUnit (Nat.digitChar (u.toNat / 4096)) (Nat.digitChar (u.toNat / 256 % 16))
      (Nat.digitChar (u.toNat / 16 % 16)) (Nat.digitChar (u.toNat % 16)) = some u := by
    simp only [hexUnit, hexValue_digitChar _ (show u.toNat / 4096 < 16 by omega),
      hexValue_digitChar _ (Nat.mod_lt _ (by decide : 0 < 16)), Option.bind_eq_bind,
      Option.bind_some, Option.pure_def, value, UInt16.ofNat_toNat]
  simp [unicodeEscape, readUnits, readEscape, readHex, unit]

/- A code unit written on its own is read back, and starts with no closing quote. -/
theorem quotedUnit_read (u : UInt16) (rest : List Char) :
    readUnits (quotedUnit u ++ rest) = some ([u], rest) ∧
      (quotedUnit u ++ rest).head? ≠ some '"' := by
  unfold quotedUnit
  split
  · rename_i c found
    obtain ⟨before, after, listed, _⟩ := List.lookup_eq_some_iff.mp found
    obtain ⟨ne, back⟩ := shortEscapes_read (u, c) (by rw [listed]; simp)
    simp [readUnits, readEscape, ne, back]
  · rename_i unlisted
    split
    · refine ⟨unicodeEscape_read u rest, ?_⟩
      simp [unicodeEscape]
    · rename_i plain
      simp only [not_or, Bool.not_eq_true, not_lt] at plain
      obtain ⟨visible, high, low⟩ := plain
      have value := plainChar_toNat high low
      have quote : plainChar u ≠ '"' := by
        intro same
        rw [same] at value
        have : u = 34 := UInt16.toNat_inj.mp value.symm
        subst this
        cases unlisted
      have backslash : plainChar u ≠ '\\' := by
        intro same
        rw [same] at value
        have : u = 92 := UInt16.toNat_inj.mp value.symm
        subst this
        cases unlisted
      simp [readUnits, quote, backslash, value, visible, codeUnits_plain high low]

theorem pairedChar_read {high low : UInt16} (isHigh : isHighSurrogate high = true)
    (isLow : isLowSurrogate low = true) (rest : List Char) :
    readUnits (pairedChar high low :: rest) = some ([high, low], rest) ∧
      pairedChar high low ≠ '"' := by
  have units := codeUnits_paired isHigh isLow
  have astral := pairedChar_astral isHigh isLow
  have unlike (c : Char) (basic : c.toNat < 0x10000) : pairedChar high low ≠ c := by
    rintro rfl
    omega
  have visible : ¬ (pairedChar high low).toNat < 0x20 := by omega
  simp [readUnits, unlike '\\' (by decide), unlike '"' (by decide), visible, units]

/- Reading goes on behind the first units. -/
theorem readString_next {units more : JsString} {text left after : List Char} {fuel : Nat}
    (inside : text.head? ≠ some '"') (first : readUnits text = some (units, left))
    (rest : readString fuel left = some (more, after)) :
    readString (fuel + 1) text = some (units ++ more, after) := by
  simp [readString, inside, first, rest]

theorem quotedUnit_length (u : UInt16) : 1 ≤ (quotedUnit u).length := by
  unfold quotedUnit
  split
  · simp
  · split <;> simp [unicodeEscape]

/- A quoted string and its closing quote are read back as the string. -/
theorem readString_quoted (text : JsString) (rest : List Char) :
    ∀ fuel, (quoted text).length < fuel →
      readString fuel (quoted text ++ '"' :: rest) = some (text, rest) := by
  fun_induction quoted text with
  | case1 =>
    rintro (_ | fuel) enough
    · simp at enough
    · simp [readString]
  | case2 u =>
    have long := quotedUnit_length u
    rintro (_ | _ | fuel) enough
    · simp at enough
    · omega
    · obtain ⟨first, inside⟩ := quotedUnit_read u ('"' :: rest)
      exact readString_next inside first (by simp [readString])
  | case3 u v more pair ih =>
    simp only [Bool.and_eq_true] at pair
    rintro (_ | fuel) enough
    · simp at enough
    · obtain ⟨first, inside⟩ := pairedChar_read pair.1 pair.2 (quoted more ++ '"' :: rest)
      exact readString_next (by simpa using inside) first
        (ih fuel (by simpa using enough))
  | case4 u v more unpaired ih =>
    have long := quotedUnit_length u
    rintro (_ | fuel) enough
    · simp at enough
    · rw [List.length_append] at enough
      rw [List.append_assoc]
      obtain ⟨first, inside⟩ := quotedUnit_read u (quoted (v :: more) ++ '"' :: rest)
      exact readString_next inside first (ih fuel (by omega))

end AstraPort
