import AstraPort.Foundation.JsonString
import AstraPort.Foundation.JsNumber

/- JSON values, JSON.stringify, and a reader of JSON text that gives every value back from
   its text. A text therefore stands for one value at most. -/
namespace AstraPort

/-- Values as JSON.stringify finds them: an object lists its own properties in order. -/
inductive Json where
  | null
  | bool (value : Bool)
  | number (value : JsNumber)
  | string (value : JsString)
  | array (items : List Json)
  | object (members : List (JsString × Json))

namespace Json

mutual
def stringify : Json → List Char
  | .null => ['n', 'u', 'l', 'l']
  | .bool true => ['t', 'r', 'u', 'e']
  | .bool false => ['f', 'a', 'l', 's', 'e']
  | .number x => x.text
  | .string s => '"' :: (quoted s ++ ['"'])
  | .array [] => ['[', ']']
  | .array (item :: items) => '[' :: (item.stringify ++ itemsText items)
  | .object [] => ['\x7b', '\x7d']
  | .object ((key, value) :: members) =>
    '\x7b' :: '"' :: (quoted key ++ '"' :: ':' :: (value.stringify ++ membersText members))

/-- Further items of an array, and its end. -/
def itemsText : List Json → List Char
  | [] => [']']
  | item :: items => ',' :: (item.stringify ++ itemsText items)

def membersText : List (JsString × Json) → List Char
  | [] => ['\x7d']
  | (key, value) :: members =>
    ',' :: '"' :: (quoted key ++ '"' :: ':' :: (value.stringify ++ membersText members))
end

def isBlank (c : Char) : Bool := c = ' ' || c = '\t' || c = '\n' || c = '\r'

def skipBlanks (text : List Char) : List Char := text.dropWhile isBlank

def readWord (word : List Char) (value : Json) (text : List Char) : Option (Json × List Char) :=
  if word <+: text then some (value, text.drop word.length) else none

/-- A string literal with its opening quote. -/
def readQuoted (text : List Char) : Option (JsString × List Char) :=
  if text.head? = some '"' then readString text.length text.tail else none

mutual
/-- A value and the text behind it. The length of the text is fuel enough. -/
def readValue : Nat → List Char → Option (Json × List Char)
  | 0, _ => none
  | fuel + 1, text =>
    let body := skipBlanks text
    let inner := skipBlanks body.tail
    match body.head? with
    | none => none
    | some c =>
      if c = '"' then (readQuoted body).map fun s => (.string s.1, s.2)
      else if c = '[' then
        if inner.head? = some ']' then some (.array [], inner.tail)
        else (readValue fuel inner).bind fun first =>
          (readItems fuel first.2).map fun more => (.array (first.1 :: more.1), more.2)
      else if c = '\x7b' then
        if inner.head? = some '\x7d' then some (.object [], inner.tail)
        else (readMember fuel inner).bind fun first =>
          (readMembers fuel first.2).map fun more => (.object (first.1 :: more.1), more.2)
      else if c = 'n' then readWord ['n', 'u', 'l', 'l'] .null body
      else if c = 't' then readWord ['t', 'r', 'u', 'e'] (.bool true) body
      else if c = 'f' then readWord ['f', 'a', 'l', 's', 'e'] (.bool false) body
      else (JsNumber.read body).map fun x => (.number x.1, x.2)

def readItems : Nat → List Char → Option (List Json × List Char)
  | 0, _ => none
  | fuel + 1, text =>
    let body := skipBlanks text
    if body.head? = some ']' then some ([], body.tail)
    else if body.head? = some ',' then
      (readValue fuel body.tail).bind fun first =>
        (readItems fuel first.2).map fun more => (first.1 :: more.1, more.2)
    else none

def readMember : Nat → List Char → Option ((JsString × Json) × List Char)
  | 0, _ => none
  | fuel + 1, text =>
    (readQuoted (skipBlanks text)).bind fun key =>
      let body := skipBlanks key.2
      if body.head? = some ':' then
        (readValue fuel body.tail).map fun value => ((key.1, value.1), value.2)
      else none

def readMembers : Nat → List Char → Option (List (JsString × Json) × List Char)
  | 0, _ => none
  | fuel + 1, text =>
    let body := skipBlanks text
    if body.head? = some '\x7d' then some ([], body.tail)
    else if body.head? = some ',' then
      (readMember fuel body.tail).bind fun first =>
        (readMembers fuel first.2).map fun more => (first.1 :: more.1, more.2)
    else none
end

/-- JSON.parse: none where it throws. Members stand as written, repeated keys included. -/
def parse (text : List Char) : Option Json :=
  match readValue (text.length + 1) text with
  | some (value, rest) => if skipBlanks rest = [] then some value else none
  | none => none

section RoundTrip

theorem skipBlanks_cons {c : Char} (visible : isBlank c = false) (text : List Char) :
    skipBlanks (c :: text) = c :: text := by simp [skipBlanks, visible]

theorem digit_visible {c : Char} (digit : c.isDigit = true) :
    isBlank c = false ∧ c ≠ ']' ∧ c ≠ '\x7d' ∧ c ≠ '"' ∧ c ≠ '[' ∧ c ≠ '\x7b' ∧ c ≠ 'n' ∧ c ≠ 't' ∧
      c ≠ 'f' := by
  have unlike (d : Char) (other : d.isDigit = false) : c ≠ d := by
    rintro rfl
    rw [digit] at other
    cases other
  simp [isBlank, unlike ' ' (by decide), unlike '\t' (by decide), unlike '\n' (by decide),
    unlike '\r' (by decide), unlike ']' (by decide), unlike '\x7d' (by decide),
    unlike '"' (by decide), unlike '[' (by decide), unlike '\x7b' (by decide),
    unlike 'n' (by decide), unlike 't' (by decide), unlike 'f' (by decide)]

theorem number_visible {c : Char} (first : c = '-' ∨ c.isDigit = true) :
    isBlank c = false ∧ c ≠ ']' ∧ c ≠ '\x7d' ∧ c ≠ '"' ∧ c ≠ '[' ∧ c ≠ '\x7b' ∧ c ≠ 'n' ∧ c ≠ 't' ∧
      c ≠ 'f' := by
  rcases first with rfl | digit
  · decide
  · exact digit_visible digit

/- A value begins with a visible character that closes nothing. -/
theorem stringify_head (value : Json) : ∃ c cs, value.stringify = c :: cs ∧
    isBlank c = false ∧ c ≠ ']' ∧ c ≠ '\x7d' := by
  cases value with
  | null => exact ⟨_, _, by rw [stringify], by decide⟩
  | bool value => cases value <;> exact ⟨_, _, by rw [stringify], by decide⟩
  | number x =>
    obtain ⟨c, cs, text, first⟩ := x.text_head
    obtain ⟨visible, bracket, brace, _⟩ := number_visible first
    exact ⟨c, cs, by rw [stringify, text], visible, bracket, brace⟩
  | string s => exact ⟨_, _, by rw [stringify], by decide⟩
  | array items => cases items <;> exact ⟨_, _, by rw [stringify], by decide⟩
  | object members =>
    rcases members with _ | ⟨⟨key, value⟩, members⟩ <;> exact ⟨_, _, by rw [stringify], by decide⟩

theorem ends_items (items : List Json) (rest : List Char) :
    JsNumber.Ends (itemsText items ++ rest) := by
  cases items <;> simp [itemsText, JsNumber.Ends]

theorem ends_members (members : List (JsString × Json)) (rest : List Char) :
    JsNumber.Ends (membersText members ++ rest) := by
  rcases members with _ | ⟨⟨key, value⟩, members⟩ <;> simp [membersText, JsNumber.Ends]

theorem readQuoted_quoted (s : JsString) (rest : List Char) :
    readQuoted ('"' :: (quoted s ++ '"' :: rest)) = some (s, rest) := by
  rw [readQuoted, List.head?_cons, if_pos rfl, List.tail_cons]
  apply readString_quoted s rest _
  rw [List.length_cons, List.length_append]
  omega

/- Fuel is there, since every value has a text. -/
theorem stringify_fuel {value : Json} {fuel : Nat} (enough : value.stringify.length ≤ fuel) :
    ∃ less, fuel = less + 1 := by
  obtain ⟨c, cs, text, _⟩ := value.stringify_head
  rw [text, List.length_cons] at enough
  exact ⟨fuel - 1, by omega⟩

theorem readWord_self (word : List Char) (value : Json) (rest : List Char) :
    readWord word value (word ++ rest) = some (value, rest) := by
  simp [readWord]

theorem readNumber_text (x : JsNumber) {fuel : Nat} {rest : List Char} (ends : JsNumber.Ends rest) :
    readValue (fuel + 1) (x.text ++ rest) = some (.number x, rest) := by
  have read := JsNumber.read_text x ends
  obtain ⟨c, cs, text, first⟩ := x.text_head
  obtain ⟨visible, _, _, quote, bracket, brace, n, t, f⟩ := number_visible first
  rw [text, List.cons_append] at read ⊢
  simp [readValue, skipBlanks_cons visible, quote, bracket, brace, n, t, f, read]

theorem readMember_text (key : JsString) {value : Json} {fuel : Nat} {rest : List Char}
    (read : readValue fuel (value.stringify ++ rest) = some (value, rest)) :
    readMember (fuel + 1) ('"' :: (quoted key ++ '"' :: ':' :: (value.stringify ++ rest))) =
      some ((key, value), rest) := by
  simp [readMember, skipBlanks_cons (show isBlank '"' = false by decide), readQuoted_quoted,
    skipBlanks_cons (show isBlank ':' = false by decide), read]

mutual
/- Every value is read back from its text, whatever follows that does not prolong it. -/
theorem readValue_stringify (value : Json) {fuel : Nat} {rest : List Char}
    (enough : value.stringify.length ≤ fuel) (ends : JsNumber.Ends rest) :
    readValue fuel (value.stringify ++ rest) = some (value, rest) := by
  obtain ⟨fuel, rfl⟩ := stringify_fuel enough
  match value with
  | .null =>
    have word := readWord_self ['n', 'u', 'l', 'l'] .null rest
    simp only [List.cons_append, List.nil_append] at word
    simp [readValue, stringify, skipBlanks_cons (show isBlank 'n' = false by decide), word]
  | .bool true =>
    have word := readWord_self ['t', 'r', 'u', 'e'] (.bool true) rest
    simp only [List.cons_append, List.nil_append] at word
    simp [readValue, stringify, skipBlanks_cons (show isBlank 't' = false by decide), word]
  | .bool false =>
    have word := readWord_self ['f', 'a', 'l', 's', 'e'] (.bool false) rest
    simp only [List.cons_append, List.nil_append] at word
    simp [readValue, stringify, skipBlanks_cons (show isBlank 'f' = false by decide), word]
  | .number x =>
    rw [stringify]
    exact readNumber_text x ends
  | .string s =>
    simp [readValue, stringify, skipBlanks_cons (show isBlank '"' = false by decide),
      readQuoted_quoted]
  | .array [] =>
    simp [readValue, stringify, skipBlanks_cons (show isBlank '[' = false by decide),
      skipBlanks_cons (show isBlank ']' = false by decide)]
  | .array (item :: items) =>
    simp only [stringify, List.length_cons, List.length_append] at enough
    have first := readValue_stringify item (show item.stringify.length ≤ fuel by omega)
      (ends_items items rest)
    have more : readItems fuel (itemsText items ++ rest) = some (items, rest) :=
      readItems_text items (by omega)
    obtain ⟨c, cs, text, visible, bracket, _⟩ := item.stringify_head
    rw [text, List.cons_append] at first
    simp [readValue, stringify, skipBlanks_cons (show isBlank '[' = false by decide), text,
      skipBlanks_cons visible, bracket, first, more]
  | .object [] =>
    simp [readValue, stringify, skipBlanks_cons (show isBlank '\x7b' = false by decide),
      skipBlanks_cons (show isBlank '\x7d' = false by decide)]
  | .object ((key, value) :: members) =>
    simp only [stringify, List.length_cons, List.length_append] at enough
    obtain ⟨fuel, rfl⟩ : ∃ less, fuel = less + 1 := ⟨fuel - 1, by omega⟩
    have first := readMember_text key (readValue_stringify value
      (show value.stringify.length ≤ fuel by omega) (ends_members members rest))
    have more : readMembers (fuel + 1) (membersText members ++ rest) = some (members, rest) :=
      readMembers_text members (by omega)
    rw [readValue.eq_def]
    simp [stringify, skipBlanks_cons (show isBlank '\x7b' = false by decide),
      skipBlanks_cons (show isBlank '"' = false by decide), first, more]

theorem readItems_text (items : List Json) {fuel : Nat} {rest : List Char}
    (enough : (itemsText items).length ≤ fuel) :
    readItems fuel (itemsText items ++ rest) = some (items, rest) := by
  match items with
  | [] =>
    obtain ⟨fuel, rfl⟩ : ∃ less, fuel = less + 1 := ⟨fuel - 1, by simp [itemsText] at enough; omega⟩
    simp [readItems, itemsText, skipBlanks_cons (show isBlank ']' = false by decide)]
  | item :: items =>
    simp only [itemsText, List.length_cons, List.length_append] at enough
    obtain ⟨fuel, rfl⟩ : ∃ less, fuel = less + 1 := ⟨fuel - 1, by omega⟩
    have first := readValue_stringify item (show item.stringify.length ≤ fuel by omega)
      (ends_items items rest)
    have more : readItems fuel (itemsText items ++ rest) = some (items, rest) :=
      readItems_text items (by omega)
    simp [readItems, itemsText, skipBlanks_cons (show isBlank ',' = false by decide), first, more]

theorem readMembers_text (members : List (JsString × Json)) {fuel : Nat} {rest : List Char}
    (enough : (membersText members).length ≤ fuel) :
    readMembers fuel (membersText members ++ rest) = some (members, rest) := by
  match members with
  | [] =>
    obtain ⟨fuel, rfl⟩ : ∃ less, fuel = less + 1 :=
      ⟨fuel - 1, by simp [membersText] at enough; omega⟩
    simp [readMembers, membersText, skipBlanks_cons (show isBlank '\x7d' = false by decide)]
  | (key, value) :: members =>
    simp only [membersText, List.length_cons, List.length_append] at enough
    obtain ⟨fuel, rfl⟩ : ∃ less, fuel = less + 2 := ⟨fuel - 2, by omega⟩
    have first := readMember_text key (readValue_stringify value
      (show value.stringify.length ≤ fuel by omega) (ends_members members rest))
    have more : readMembers (fuel + 1) (membersText members ++ rest) = some (members, rest) :=
      readMembers_text members (by omega)
    rw [readMembers.eq_def]
    simp [membersText, skipBlanks_cons (show isBlank ',' = false by decide), first, more]
end

/- JSON.parse undoes JSON.stringify. -/
theorem parse_stringify (value : Json) : parse value.stringify = some value := by
  have read : readValue (value.stringify.length + 1) (value.stringify ++ []) = some (value, []) :=
    readValue_stringify value (Nat.le_succ _) (by simp [JsNumber.Ends])
  rw [List.append_nil] at read
  simp [parse, read, skipBlanks]

theorem stringify_inj {a b : Json} : a.stringify = b.stringify ↔ a = b := by
  constructor
  · intro same
    have parsed := parse_stringify a
    rw [same, parse_stringify] at parsed
    exact (Option.some.inj parsed).symm
  · rintro rfl
    rfl

end RoundTrip
end Json
end AstraPort
