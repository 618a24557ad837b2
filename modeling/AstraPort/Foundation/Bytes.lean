import AstraPort.Foundation.JsString
import Mathlib.Data.List.TakeWhile

/- Buffer.from(text) and toString('utf-8'), and both directions of base64url. Decoding
   never fails: bytes that are no UTF-8 become replacement characters, units outside the
   alphabet are skipped. -/
namespace AstraPort

def byte (n : Nat) : UInt8 := UInt8.ofNat n

theorem byte_toNat {n : Nat} (small : n < 256) : (byte n).toNat = n := by
  simp [byte, Nat.mod_eq_of_lt small]

@[simp] theorem byte_of_toNat (b : UInt8) : byte b.toNat = b := UInt8.ofNat_toNat

section Utf8

def utf8Char (c : Char) : List UInt8 :=
  let n := c.toNat
  if n < 0x80 then [byte n]
  else if n < 0x800 then [byte (0xC0 + n / 0x40), byte (0x80 + n % 0x40)]
  else if n < 0x10000 then
    [byte (0xE0 + n / 0x1000), byte (0x80 + n / 0x40 % 0x40), byte (0x80 + n % 0x40)]
  else
    [byte (0xF0 + n / 0x40000), byte (0x80 + n / 0x1000 % 0x40), byte (0x80 + n / 0x40 % 0x40),
      byte (0x80 + n % 0x40)]

def encodeUtf8 (text : List Char) : List UInt8 := text.flatMap utf8Char

/-- A character that has begun: how many bytes it lacks, the range of the next one, and
    the bits read so far. -/
structure PendingChar where
  needed : Nat
  low : Nat
  high : Nat
  bits : Nat

def PendingChar.none : PendingChar := ⟨0, 0x80, 0xBF, 0⟩

def replacement : Char := Char.ofNat 0xFFFD

/-- A byte between characters. -/
def firstByte (b : UInt8) : List Char × PendingChar :=
  let n := b.toNat
  if n < 0x80 then ([Char.ofNat n], .none)
  else if 0xC2 ≤ n ∧ n ≤ 0xDF then ([], ⟨1, 0x80, 0xBF, n - 0xC0⟩)
  else if 0xE0 ≤ n ∧ n ≤ 0xEF then
    ([], ⟨2, if n = 0xE0 then 0xA0 else 0x80, if n = 0xED then 0x9F else 0xBF, n - 0xE0⟩)
  else if 0xF0 ≤ n ∧ n ≤ 0xF4 then
    ([], ⟨3, if n = 0xF0 then 0x90 else 0x80, if n = 0xF4 then 0x8F else 0xBF, n - 0xF0⟩)
  else ([replacement], .none)

/-- A byte inside a character, which a byte out of range ends early. -/
def nextByte (pending : PendingChar) (b : UInt8) : List Char × PendingChar :=
  let n := b.toNat
  if pending.needed = 0 then firstByte b
  else if n < pending.low ∨ pending.high < n then
    (replacement :: (firstByte b).1, (firstByte b).2)
  else if pending.needed = 1 then ([Char.ofNat (pending.bits * 0x40 + n % 0x40)], .none)
  else ([], ⟨pending.needed - 1, 0x80, 0xBF, pending.bits * 0x40 + n % 0x40⟩)

def decodeFrom (pending : PendingChar) : List UInt8 → List Char
  | [] => if pending.needed = 0 then [] else [replacement]
  | b :: rest => (nextByte pending b).1 ++ decodeFrom (nextByte pending b).2 rest

def decodeUtf8 (bytes : List UInt8) : List Char := decodeFrom .none bytes

/- A byte in range goes on with a character, and the last one ends it. -/
theorem decodeFrom_more {needed low high bits : Nat} {n : Nat} (rest : List UInt8)
    (small : n < 256) (range : low ≤ n ∧ n ≤ high) :
    decodeFrom ⟨needed + 2, low, high, bits⟩ (byte n :: rest) =
      decodeFrom ⟨needed + 1, 0x80, 0xBF, bits * 0x40 + n % 0x40⟩ rest := by
  have inside : ¬ (n < low ∨ high < n) := by omega
  simp [decodeFrom, nextByte, byte_toNat small, inside]

theorem decodeFrom_last {low high bits : Nat} {n : Nat} (rest : List UInt8)
    (small : n < 256) (range : low ≤ n ∧ n ≤ high) :
    decodeFrom ⟨1, low, high, bits⟩ (byte n :: rest) =
      Char.ofNat (bits * 0x40 + n % 0x40) :: decodeFrom .none rest := by
  have inside : ¬ (n < low ∨ high < n) := by omega
  simp [decodeFrom, nextByte, byte_toNat small, inside]

theorem decodeFrom_none {n : Nat} (rest : List UInt8) :
    decodeFrom .none (byte n :: rest) =
      (firstByte (byte n)).1 ++ decodeFrom (firstByte (byte n)).2 rest := by
  simp [decodeFrom, nextByte, PendingChar.none]

theorem decodeFrom_utf8Char (c : Char) (rest : List UInt8) :
    decodeFrom .none (utf8Char c ++ rest) = c :: decodeFrom .none rest := by
  have valid : c.toNat.isValidChar := c.valid
  unfold Nat.isValidChar at valid
  have whole (n : Nat) (same : n = c.toNat) : Char.ofNat n = c := by rw [same, Char.ofNat_toNat]
  unfold utf8Char
  dsimp only
  split
  · rw [List.singleton_append, decodeFrom_none]
    simp only [firstByte, byte_toNat (show c.toNat < 256 by omega)]
    rw [if_pos (by omega), whole _ rfl]
    rfl
  · split
    · rw [List.cons_append, List.singleton_append, decodeFrom_none]
      simp only [firstByte, byte_toNat (show 0xC0 + c.toNat / 0x40 < 256 by omega)]
      rw [if_neg (by omega), if_pos (by omega), List.nil_append,
        decodeFrom_last rest (by omega) (by omega), whole _ (by omega)]
    · split
      · rw [List.cons_append, List.cons_append, List.singleton_append, decodeFrom_none]
        simp only [firstByte, byte_toNat (show 0xE0 + c.toNat / 0x1000 < 256 by omega)]
        rw [if_neg (by omega), if_neg (by omega), if_pos (by omega), List.nil_append,
          decodeFrom_more _ (by omega) (by split <;> split <;> omega),
          decodeFrom_last rest (by omega) (by omega), whole _ (by omega)]
      · rw [List.cons_append, List.cons_append, List.cons_append, List.singleton_append,
          decodeFrom_none]
        simp only [firstByte, byte_toNat (show 0xF0 + c.toNat / 0x40000 < 256 by omega)]
        rw [if_neg (by omega), if_neg (by omega), if_neg (by omega), if_pos (by omega),
          List.nil_append, decodeFrom_more _ (by omega) (by split <;> split <;> omega),
          decodeFrom_more _ (by omega) (by omega),
          decodeFrom_last rest (by omega) (by omega), whole _ (by omega)]

theorem decodeUtf8_encodeUtf8 (text : List Char) : decodeUtf8 (encodeUtf8 text) = text := by
  unfold decodeUtf8 encodeUtf8
  induction text with
  | nil => simp [decodeFrom, PendingChar.none]
  | cons c text ih => rw [List.flatMap_cons, decodeFrom_utf8Char, ih]

/-- A code unit that is not half of a pair; half a pair becomes the replacement character. -/
def lonelyChar (u : UInt16) : Char :=
  if isHighSurrogate u || isLowSurrogate u then replacement else plainChar u

/-- The characters of a string. -/
def characters : JsString → List Char
  | [] => []
  | [u] => [lonelyChar u]
  | u :: v :: rest =>
    if isHighSurrogate u && isLowSurrogate v then pairedChar u v :: characters rest
    else lonelyChar u :: characters (v :: rest)

/-- Buffer.from(text). -/
def bufferFrom (text : JsString) : List UInt8 := encodeUtf8 (characters text)

theorem characters_plain {u : UInt16} (high : isHighSurrogate u = false)
    (low : isLowSurrogate u = false) (rest : JsString) :
    characters (u :: rest) = plainChar u :: characters rest := by
  cases rest with
  | nil => simp [characters, lonelyChar, high, low]
  | cons v rest => simp [characters, lonelyChar, high, low]

/- A character is read back from its units, whatever follows. -/
theorem characters_codeUnits (c : Char) (rest : JsString) :
    characters (codeUnits c ++ rest) = c :: characters rest := by
  have ranges := char_ranges c
  unfold codeUnits
  by_cases basic : c.toNat < 0x10000
  · have value : (UInt16.ofNat c.toNat).toNat = c.toNat := by simp; omega
    have high : isHighSurrogate (UInt16.ofNat c.toNat) = false := by
      rw [isHighSurrogate, value]
      exact decide_eq_false (by omega)
    have low : isLowSurrogate (UInt16.ofNat c.toNat) = false := by
      rw [isLowSurrogate, value]
      exact decide_eq_false (by omega)
    rw [if_pos basic, List.singleton_append, characters_plain high low, plainChar, value,
      Char.ofNat_toNat]
  · have first : (UInt16.ofNat (0xD800 + (c.toNat - 0x10000) / 0x400)).toNat =
        0xD800 + (c.toNat - 0x10000) / 0x400 := by simp; omega
    have second : (UInt16.ofNat (0xDC00 + (c.toNat - 0x10000) % 0x400)).toNat =
        0xDC00 + (c.toNat - 0x10000) % 0x400 := by simp; omega
    have high : isHighSurrogate (UInt16.ofNat (0xD800 + (c.toNat - 0x10000) / 0x400)) = true := by
      rw [isHighSurrogate, first]
      exact decide_eq_true (by omega)
    have low : isLowSurrogate (UInt16.ofNat (0xDC00 + (c.toNat - 0x10000) % 0x400)) = true := by
      rw [isLowSurrogate, second]
      exact decide_eq_true (by omega)
    have whole : pairedChar (UInt16.ofNat (0xD800 + (c.toNat - 0x10000) / 0x400))
        (UInt16.ofNat (0xDC00 + (c.toNat - 0x10000) % 0x400)) = c := by
      have number : 0x10000 + (0xD800 + (c.toNat - 0x10000) / 0x400 - 0xD800) * 0x400 +
          (0xDC00 + (c.toNat - 0x10000) % 0x400 - 0xDC00) = c.toNat := by omega
      rw [pairedChar, first, second, number, Char.ofNat_toNat]
    rw [if_neg basic, List.cons_append, List.singleton_append, characters, high, low,
      Bool.and_self, if_pos rfl, whole]

theorem characters_flatMap (text : List Char) : characters (text.flatMap codeUnits) = text := by
  induction text with
  | nil => rfl
  | cons c text ih => rw [List.flatMap_cons, characters_codeUnits, ih]

theorem utf8Char_some (c : Char) : 1 ≤ (utf8Char c).length := by
  unfold utf8Char
  dsimp only
  split
  · simp
  · split
    · simp
    · split <;> simp

theorem utf8Char_long {c : Char} (beyond : 0x80 ≤ c.toNat) : 2 ≤ (utf8Char c).length := by
  unfold utf8Char
  rw [if_neg (by omega)]
  split
  · simp
  · split <;> simp

theorem utf8Char_astral {c : Char} (astral : 0x10000 ≤ c.toNat) : (utf8Char c).length = 4 := by
  unfold utf8Char
  rw [if_neg (by omega), if_neg (by omega), if_neg (by omega)]
  simp

theorem lonelyChar_ascii {u : UInt16} (ascii : u.toNat < 0x80) :
    utf8Char (lonelyChar u) = [byte u.toNat] := by
  have high : isHighSurrogate u = false := decide_eq_false (by omega)
  have low : isLowSurrogate u = false := decide_eq_false (by omega)
  rw [lonelyChar, high, low, if_neg (by decide), utf8Char, plainChar_toNat high low, if_pos ascii]

theorem lonelyChar_beyond {u : UInt16} (beyond : 0x80 ≤ u.toNat) : 0x80 ≤ (lonelyChar u).toNat := by
  unfold lonelyChar
  split
  · decide
  · rename_i whole
    rw [Bool.or_eq_true, not_or, Bool.not_eq_true, Bool.not_eq_true] at whole
    rw [plainChar_toNat whole.1 whole.2]
    exact beyond

/- An ASCII string has a byte for each unit. -/
theorem bufferFrom_ascii {text : JsString} (ascii : ∀ u ∈ text, u.toNat < 0x80) :
    bufferFrom text = text.map fun u => byte u.toNat := by
  unfold bufferFrom encodeUtf8
  fun_induction characters text with
  | case1 => rfl
  | case2 u =>
    rw [List.flatMap_singleton, lonelyChar_ascii (ascii u List.mem_cons_self), List.map_singleton]
  | case3 u v rest pair =>
    have small := ascii u List.mem_cons_self
    simp only [isHighSurrogate, Bool.and_eq_true, decide_eq_true_eq] at pair
    omega
  | case4 u v rest unpaired ih =>
    obtain ⟨first, more⟩ := List.forall_mem_cons.mp ascii
    rw [List.flatMap_cons, lonelyChar_ascii first, ih more, List.singleton_append, List.map_cons]
    rfl

/- Every other string has more bytes than units. -/
theorem bufferFrom_length (text : JsString) : text.length ≤ (bufferFrom text).length ∧
    ((bufferFrom text).length = text.length → ∀ u ∈ text, u.toNat < 0x80) := by
  unfold bufferFrom encodeUtf8
  fun_induction characters text with
  | case1 => simp
  | case2 u =>
    have some_byte := utf8Char_some (lonelyChar u)
    rw [List.flatMap_singleton, List.length_singleton, List.forall_mem_singleton]
    refine ⟨some_byte, fun single => ?_⟩
    by_contra beyond
    have long := utf8Char_long (lonelyChar_beyond (Nat.le_of_not_lt beyond))
    omega
  | case3 u v rest pair ih =>
    rw [Bool.and_eq_true] at pair
    have four := utf8Char_astral (pairedChar_astral pair.1 pair.2)
    rw [List.flatMap_cons, List.length_append, List.length_cons, List.length_cons, four]
    exact ⟨by omega, fun same => by omega⟩
  | case4 u v rest unpaired ih =>
    have some_byte := utf8Char_some (lonelyChar u)
    obtain ⟨at_least, ascii⟩ := ih
    rw [List.flatMap_cons, List.length_append, List.length_cons, List.forall_mem_cons]
    refine ⟨by omega, fun same => ⟨?_, ascii (by omega)⟩⟩
    by_contra beyond
    have long := utf8Char_long (lonelyChar_beyond (Nat.le_of_not_lt beyond))
    omega

theorem bufferFrom_length_iff {text : JsString} :
    (bufferFrom text).length = text.length ↔ ∀ u ∈ text, u.toNat < 0x80 := by
  constructor
  · exact (bufferFrom_length text).2
  · intro ascii
    rw [bufferFrom_ascii ascii, List.length_map]

/- ASCII strings with the same bytes are the same. -/
theorem bufferFrom_inj {text other : JsString} (ascii : ∀ u ∈ text, u.toNat < 0x80)
    (ascii' : ∀ u ∈ other, u.toNat < 0x80) (same : bufferFrom text = bufferFrom other) :
    text = other := by
  have back {string : JsString} (plain : ∀ u ∈ string, u.toNat < 0x80) :
      (bufferFrom string).map (fun b => UInt16.ofNat b.toNat) = string := by
    rw [bufferFrom_ascii plain, List.map_map]
    calc string.map ((fun b => UInt16.ofNat b.toNat) ∘ fun u => byte u.toNat)
        = string.map id := by
          apply List.map_congr_left
          intro u member
          have small := plain u member
          rw [Function.comp_apply, byte_toNat (by omega), UInt16.ofNat_toNat, id]
      _ = string := List.map_id string
  rw [← back ascii, same, back ascii']

end Utf8

section Base64

/-- The unit that stands for six bits. -/
def base64Unit (n : Nat) : UInt16 :=
  UInt16.ofNat (if n < 26 then 65 + n else if n < 52 then 71 + n else if n < 62 then n - 4
    else if n = 62 then 45 else 95)

/-- Both alphabets are read, the one with + and / and the one with - and _. -/
def base64Value (u : UInt16) : Option Nat :=
  let n := u.toNat
  if 65 ≤ n ∧ n ≤ 90 then some (n - 65)
  else if 97 ≤ n ∧ n ≤ 122 then some (n - 71)
  else if 48 ≤ n ∧ n ≤ 57 then some (n + 4)
  else if n = 43 ∨ n = 45 then some 62
  else if n = 47 ∨ n = 95 then some 63
  else none

/-- Three bytes are four groups of six bits, and the bits of a last one or two are filled up
    with zeros. -/
def sextets : List UInt8 → List Nat
  | [] => []
  | [a] => [a.toNat / 4, a.toNat % 4 * 16]
  | [a, b] => [a.toNat / 4, a.toNat % 4 * 16 + b.toNat / 16, b.toNat % 16 * 4]
  | a :: b :: c :: rest =>
    a.toNat / 4 :: (a.toNat % 4 * 16 + b.toNat / 16) :: (b.toNat % 16 * 4 + c.toNat / 64) ::
      c.toNat % 64 :: sextets rest

def joinSextets : List Nat → List UInt8
  | w :: x :: y :: z :: rest =>
    byte (w * 4 + x / 16) :: byte (x % 16 * 16 + y / 4) :: byte (y % 4 * 64 + z) ::
      joinSextets rest
  | [w, x, y] => [byte (w * 4 + x / 16), byte (x % 16 * 16 + y / 4)]
  | [w, x] => [byte (w * 4 + x / 16)]
  | _ => []

/-- toString('base64url'): without padding. -/
def encodeBase64 (bytes : List UInt8) : JsString := (sextets bytes).map base64Unit

/-- Buffer.from(text, 'base64url'): a padding sign ends it. -/
def decodeBase64 (text : JsString) : List UInt8 :=
  joinSextets ((text.takeWhile (· != 61)).filterMap base64Value)

theorem base64Value_unit : ∀ n < 64, base64Value (base64Unit n) = some n := by decide

theorem base64Unit_letter : ∀ n < 64, base64Unit n ≠ 46 ∧ base64Unit n ≠ 61 := by decide

theorem byte_eq {n : Nat} {b : UInt8} (same : n = b.toNat) : byte n = b := by
  rw [same, byte_of_toNat]

theorem sextets_lt (bytes : List UInt8) : ∀ n ∈ sextets bytes, n < 64 := by
  fun_induction sextets bytes with
  | case1 => simp
  | case2 a =>
    have boundA := a.toNat_lt
    simp only [List.forall_mem_cons]
    exact ⟨by omega, by omega, by simp⟩
  | case3 a b =>
    have boundA := a.toNat_lt
    have boundB := b.toNat_lt
    simp only [List.forall_mem_cons]
    exact ⟨by omega, by omega, by omega, by simp⟩
  | case4 a b c rest ih =>
    have boundA := a.toNat_lt
    have boundB := b.toNat_lt
    have boundC := c.toNat_lt
    simp only [List.forall_mem_cons]
    exact ⟨by omega, by omega, by omega, by omega, ih⟩

theorem joinSextets_sextets (bytes : List UInt8) : joinSextets (sextets bytes) = bytes := by
  fun_induction sextets bytes with
  | case1 => rfl
  | case2 a =>
    have first : byte (a.toNat / 4 * 4 + a.toNat % 4 * 16 / 16) = a := byte_eq (by omega)
    rw [joinSextets, first]
  | case3 a b =>
    have boundB := b.toNat_lt
    have first : byte (a.toNat / 4 * 4 + (a.toNat % 4 * 16 + b.toNat / 16) / 16) = a :=
      byte_eq (by omega)
    have second : byte ((a.toNat % 4 * 16 + b.toNat / 16) % 16 * 16 + b.toNat % 16 * 4 / 4) = b :=
      byte_eq (by omega)
    rw [joinSextets, first, second]
  | case4 a b c rest ih =>
    have boundB := b.toNat_lt
    have boundC := c.toNat_lt
    have first : byte (a.toNat / 4 * 4 + (a.toNat % 4 * 16 + b.toNat / 16) / 16) = a :=
      byte_eq (by omega)
    have second : byte ((a.toNat % 4 * 16 + b.toNat / 16) % 16 * 16 +
        (b.toNat % 16 * 4 + c.toNat / 64) / 4) = b := byte_eq (by omega)
    have third : byte ((b.toNat % 16 * 4 + c.toNat / 64) % 4 * 64 + c.toNat % 64) = c :=
      byte_eq (by omega)
    rw [joinSextets, ih, first, second, third]

/- Neither the separator of a cursor nor the padding sign is a unit of the alphabet. -/
theorem encodeBase64_letters {bytes : List UInt8} {u : UInt16} (inside : u ∈ encodeBase64 bytes) :
    u ≠ 46 ∧ u ≠ 61 := by
  obtain ⟨n, among, rfl⟩ := List.mem_map.mp inside
  exact base64Unit_letter n (sextets_lt bytes n among)

theorem decodeBase64_encodeBase64 (bytes : List UInt8) :
    decodeBase64 (encodeBase64 bytes) = bytes := by
  have unpadded : (encodeBase64 bytes).takeWhile (· != 61) = encodeBase64 bytes := by
    rw [List.takeWhile_eq_self_iff]
    intro u inside
    simpa using (encodeBase64_letters inside).2
  have read : (encodeBase64 bytes).filterMap base64Value = sextets bytes := by
    rw [encodeBase64, List.filterMap_map]
    calc (sextets bytes).filterMap (base64Value ∘ base64Unit)
        = (sextets bytes).filterMap some :=
          List.filterMap_congr fun n among => base64Value_unit n (sextets_lt bytes n among)
      _ = sextets bytes := List.filterMap_some
  rw [decodeBase64, unpadded, read, joinSextets_sextets]

end Base64
end AstraPort
