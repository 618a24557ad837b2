import AstraPort.Foundation.Bytes

/- Query strings: encodeURIComponent on texts without lone surrogates, pairs written with it, and
   how a query string is read back. -/
namespace AstraPort

/-- What encodeURIComponent leaves alone: letters, digits and -_.!~*'(). -/
def isUnreserved (c : Char) : Bool :=
  c.isAlphanum || c.toNat ∈ [45, 95, 46, 33, 126, 42, 39, 40, 41]

def upperHexDigit (n : Nat) : Char := Char.ofNat (if n < 10 then 48 + n else 55 + n)

def hexDigitValue (c : Char) : Option Nat :=
  let n := c.toNat
  if 48 ≤ n ∧ n ≤ 57 then some (n - 48)
  else if 65 ≤ n ∧ n ≤ 70 then some (n - 55)
  else if 97 ≤ n ∧ n ≤ 102 then some (n - 87)
  else none

def percentEncoded (b : UInt8) : List Char :=
  ['%', upperHexDigit (b.toNat / 16), upperHexDigit (b.toNat % 16)]

def encodeChar (c : Char) : List Char :=
  if isUnreserved c then [c] else (utf8Char c).flatMap percentEncoded

def encodeURIComponent (text : List Char) : List Char := text.flatMap encodeChar

abbrev QueryPair := List Char × List Char

def encodedPair (pair : QueryPair) : List Char :=
  encodeURIComponent pair.1 ++ '=' :: encodeURIComponent pair.2

def queryText (pairs : List QueryPair) : List Char := ['&'].intercalate (pairs.map encodedPair)

/-- What a reader of a query string takes its characters for. -/
inductive QuerySymbol where
  | ampersand
  | equals
  | byte (b : UInt8)
  deriving DecidableEq

/-- An escape is one byte, a plus sign a space, and other characters the bytes of UTF-8. -/
def querySymbols : List Char → List QuerySymbol
  | '%' :: h :: l :: text =>
    match hexDigitValue h, hexDigitValue l with
    | some high, some low => .byte (byte (16 * high + low)) :: querySymbols text
    | _, _ => .byte 37 :: querySymbols (h :: l :: text)
  | '&' :: text => .ampersand :: querySymbols text
  | '=' :: text => .equals :: querySymbols text
  | '+' :: text => .byte 32 :: querySymbols text
  | c :: text => (utf8Char c).map .byte ++ querySymbols text
  | [] => []

def QuerySymbol.literal : QuerySymbol → UInt8
  | .ampersand => 38
  | .equals => 61
  | .byte b => b

def readComponent (symbols : List QuerySymbol) : List Char :=
  decodeUtf8 (symbols.map QuerySymbol.literal)

/-- The first equals sign ends the name. -/
def readPair (symbols : List QuerySymbol) : QueryPair :=
  (readComponent (symbols.takeWhile (· ≠ .equals)),
    readComponent ((symbols.dropWhile (· ≠ .equals)).drop 1))

def readQuery (text : List Char) : List QueryPair :=
  (((querySymbols text).splitOn .ampersand).filter (· ≠ [])).map readPair

section Symbols

theorem hexDigitValue_upper : ∀ n < 16, hexDigitValue (upperHexDigit n) = some n := by decide

theorem symbols_percent (b : UInt8) (text : List Char) :
    querySymbols (percentEncoded b ++ text) = .byte b :: querySymbols text := by
  have small := b.toNat_lt
  simp only [percentEncoded, List.cons_append, List.nil_append, querySymbols,
    hexDigitValue_upper _ (show b.toNat / 16 < 16 by omega),
    hexDigitValue_upper _ (show b.toNat % 16 < 16 by omega)]
  rw [Nat.div_add_mod, byte_of_toNat]

theorem symbols_percents (bytes : List UInt8) (text : List Char) :
    querySymbols (bytes.flatMap percentEncoded ++ text) = bytes.map .byte ++ querySymbols text := by
  induction bytes with
  | nil => rfl
  | cons b bytes ih =>
    rw [List.flatMap_cons, List.append_assoc, symbols_percent, ih]
    rfl

theorem symbols_plain {c : Char} (plain : c ∉ ['%', '&', '=', '+']) (text : List Char) :
    querySymbols (c :: text) = (utf8Char c).map .byte ++ querySymbols text := by
  simp only [List.mem_cons, List.not_mem_nil, or_false, not_or] at plain
  rw [querySymbols] <;> simp_all

theorem unreserved_plain {c : Char} (unreserved : isUnreserved c = true) :
    c ∉ ['%', '&', '=', '+'] := by
  intro marked
  simp only [List.mem_cons, List.not_mem_nil, or_false] at marked
  obtain rfl | rfl | rfl | rfl := marked
  · exact absurd unreserved (by decide)
  · exact absurd unreserved (by decide)
  · exact absurd unreserved (by decide)
  · exact absurd unreserved (by decide)

theorem symbols_encoded (value text : List Char) :
    querySymbols (encodeURIComponent value ++ text) =
      (encodeUtf8 value).map .byte ++ querySymbols text := by
  induction value with
  | nil => rfl
  | cons c value ih =>
    rw [encodeURIComponent, List.flatMap_cons, List.append_assoc, encodeUtf8, List.flatMap_cons,
      List.map_append, List.append_assoc, encodeChar]
    split
    · rename_i unreserved
      rw [List.singleton_append, symbols_plain (unreserved_plain unreserved)]
      exact congrArg _ ih
    · rw [symbols_percents]
      exact congrArg _ ih

/-- The symbols of a pair that is written. -/
def pairSymbols (pair : QueryPair) : List QuerySymbol :=
  (encodeUtf8 pair.1).map .byte ++ .equals :: (encodeUtf8 pair.2).map .byte

theorem symbols_pair (pair : QueryPair) (text : List Char) :
    querySymbols (encodedPair pair ++ text) = pairSymbols pair ++ querySymbols text := by
  have behind (rest : List Char) : querySymbols ('=' :: rest) = .equals :: querySymbols rest  := by
    rw [querySymbols]
  rw [encodedPair, List.append_assoc, symbols_encoded, List.cons_append, behind, symbols_encoded,
    pairSymbols, List.append_assoc]
  rfl

theorem symbols_query (pairs : List QueryPair) :
    querySymbols (queryText pairs) = [.ampersand].intercalate (pairs.map pairSymbols) := by
  have between (rest : List Char) : querySymbols ('&' :: rest) = .ampersand :: querySymbols rest := by
    rw [querySymbols]
  induction pairs with
  | nil => rfl
  | cons pair pairs ih =>
    cases pairs with
    | nil =>
      have alone := symbols_pair pair []
      rw [List.append_nil] at alone
      simpa [queryText, querySymbols] using alone
    | cons pair' pairs =>
      have more : queryText (pair :: pair' :: pairs) =
          encodedPair pair ++ '&' :: queryText (pair' :: pairs) := by
        simp [queryText, List.intercalate_cons_cons]
      rw [more, symbols_pair, between, ih]
      simp [List.intercalate_cons_cons]

theorem decode_bytes (value : List Char) :
    readComponent ((encodeUtf8 value).map .byte) = value := by
  have literal : QuerySymbol.literal ∘ QuerySymbol.byte = id := rfl
  rw [readComponent, List.map_map, literal, List.map_id, decodeUtf8_encodeUtf8]

theorem readPair_symbols (pair : QueryPair) : readPair (pairSymbols pair) = pair := by
  have name : ∀ s ∈ (encodeUtf8 pair.1).map QuerySymbol.byte, decide (s ≠ .equals) = true := by
    simp
  rw [readPair, pairSymbols, List.takeWhile_append_of_pos name, List.dropWhile_append_of_pos name]
  simp [decode_bytes]

/- Pairs that are written are read back. -/
theorem readQuery_queryText (pairs : List QueryPair) : readQuery (queryText pairs) = pairs := by
  rw [readQuery, symbols_query]
  cases pairs with
  | nil => rfl
  | cons pair pairs =>
    have apart : ∀ symbols ∈ (pair :: pairs).map pairSymbols, QuerySymbol.ampersand ∉ symbols := by
      intro symbols member
      obtain ⟨own, _, rfl⟩ := List.mem_map.mp member
      simp [pairSymbols]
    have solid : ∀ symbols ∈ (pair :: pairs).map pairSymbols, decide (symbols ≠ []) = true := by
      intro symbols member
      obtain ⟨own, _, rfl⟩ := List.mem_map.mp member
      simp [pairSymbols]
    rw [List.splitOn_intercalate QuerySymbol.ampersand apart (by simp),
      List.filter_eq_self.mpr solid, List.map_map]
    have same : readPair ∘ pairSymbols = id := funext readPair_symbols
    rw [same, List.map_id]

end Symbols

/-- Texts in which every percent sign begins an escape. -/
inductive Encoded : List Char → Prop where
  | nil : Encoded []
  | plain {c text} (other : c ≠ '%') (rest : Encoded text) : Encoded (c :: text)
  | escape {h l text high low} (first : hexDigitValue h = some high)
      (second : hexDigitValue l = some low) (rest : Encoded text) : Encoded ('%' :: h :: l :: text)

/-- String.prototype.replace with a text: its first occurrence. -/
def replaceFirst (pattern replacement : List Char) : List Char → List Char
  | [] => if pattern = [] then replacement else []
  | c :: text =>
    if pattern <+: c :: text then replacement ++ (c :: text).drop pattern.length
    else c :: replaceFirst pattern replacement text

namespace Encoded
variable {text other : List Char}

theorem append (front : Encoded text) (back : Encoded other) : Encoded (text ++ other) := by
  induction front with
  | nil => exact back
  | plain apart rest ih => exact .plain apart ih
  | escape first second rest ih => exact .escape first second ih

theorem percents (bytes : List UInt8) : Encoded (bytes.flatMap percentEncoded) := by
  induction bytes with
  | nil => exact .nil
  | cons b bytes ih =>
    have small := b.toNat_lt
    exact .escape (hexDigitValue_upper _ (by omega)) (hexDigitValue_upper _ (by omega)) ih

theorem component (value : List Char) : Encoded (encodeURIComponent value) := by
  induction value with
  | nil => exact .nil
  | cons c value ih =>
    rw [encodeURIComponent, List.flatMap_cons, encodeChar]
    split
    · rename_i unreserved
      have plain := unreserved_plain unreserved
      refine .plain ?_ ih
      rintro rfl
      exact plain (by decide)
    · exact (percents _).append ih

theorem pair (own : QueryPair) : Encoded (encodedPair own) :=
  (component own.1).append (.plain (by decide) (component own.2))

theorem query (pairs : List QueryPair) : Encoded (queryText pairs) := by
  induction pairs with
  | nil => exact .nil
  | cons own pairs ih =>
    cases pairs with
    | nil => simpa [queryText] using pair own
    | cons next pairs =>
      have more := (pair own).append (.plain (by decide : '&' ≠ '%') ih)
      simpa [queryText, List.intercalate_cons_cons] using more

/- What stands in front of a percent sign is encoded as well: the sign begins an escape. -/
theorem front (encoded : Encoded (text ++ '%' :: other)) : Encoded text := by
  generalize parts : text ++ '%' :: other = full at encoded
  induction encoded generalizing text with
  | nil => simp at parts
  | plain apart rest ih =>
    cases text with
    | nil => exact .nil
    | cons c text =>
      obtain ⟨rfl, inner⟩ := List.cons.inj parts
      exact .plain apart (ih inner)
  | escape first second rest ih =>
    have noDigit : hexDigitValue '%' = none := by decide
    match text, parts with
    | [], _ => exact .nil
    | [_], parts =>
      obtain ⟨rfl, -⟩ := List.cons.inj (List.cons.inj parts).2
      cases noDigit.symm.trans first
    | [_, _], parts =>
      obtain ⟨rfl, -⟩ := List.cons.inj (List.cons.inj (List.cons.inj parts).2).2
      cases noDigit.symm.trans second
    | _ :: _ :: _ :: text, parts =>
      obtain ⟨sign, behind⟩ := List.cons.inj parts
      obtain ⟨high, behind⟩ := List.cons.inj behind
      obtain ⟨low, behind⟩ := List.cons.inj behind
      rw [sign, high, low]
      exact .escape first second (ih behind)

/- Symbols do not reach from an encoded text into what follows. -/
theorem symbols_append (encoded : Encoded text) (other : List Char) :
    querySymbols (text ++ other) = querySymbols text ++ querySymbols other := by
  induction encoded with
  | nil => rfl
  | @plain c text apart rest ih =>
    rw [List.cons_append]
    by_cases marked : c ∈ ['&', '=', '+']
    · simp only [List.mem_cons, List.not_mem_nil, or_false] at marked
      obtain rfl | rfl | rfl := marked <;> simp [querySymbols, ih]
    · have plain : c ∉ ['%', '&', '=', '+'] := by simp_all
      rw [symbols_plain plain, symbols_plain plain, ih, List.append_assoc]
  | escape first second rest ih => simp [querySymbols, first, second, ih]

end Encoded

theorem replaceFirst_cases (pattern replacement text : List Char) :
    replaceFirst pattern replacement text = text ∨ ∃ front back, text = front ++ pattern ++ back ∧
      replaceFirst pattern replacement text = front ++ replacement ++ back := by
  induction text with
  | nil =>
    rw [replaceFirst]
    split
    · rename_i empty
      exact .inr ⟨[], [], by simp [empty], by simp⟩
    · exact .inl rfl
  | cons c text ih =>
    rw [replaceFirst]
    split
    · rename_i here
      obtain ⟨back, parts⟩ := here
      refine .inr ⟨[], back, parts.symm, ?_⟩
      rw [← parts, List.drop_left, List.nil_append]
    · obtain same | ⟨front, back, parts, replaced⟩ := ih
      · exact .inl (by rw [same])
      · exact .inr ⟨c :: front, back, by rw [parts]; rfl, by rw [replaced]; rfl⟩

/- A replacement that means what it replaces changes nothing in the meaning. -/
theorem symbols_replaceFirst {pattern replacement text : List Char} (encoded : Encoded text)
    (escaped : pattern.head? = some '%') (whole : Encoded pattern) (whole' : Encoded replacement)
    (same : querySymbols replacement = querySymbols pattern) :
    querySymbols (replaceFirst pattern replacement text) = querySymbols text := by
  obtain unchanged | ⟨front, back, parts, replaced⟩ := replaceFirst_cases pattern replacement text
  · rw [unchanged]
  · obtain ⟨rest, begun⟩ := List.head?_eq_some_iff.mp escaped
    have before : Encoded front := by
      rw [parts, begun, List.append_assoc] at encoded
      exact encoded.front
    rw [replaced, parts, List.append_assoc, List.append_assoc, before.symbols_append,
      before.symbols_append, whole.symbols_append, whole'.symbols_append, same]

end AstraPort
