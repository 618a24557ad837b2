import AstraPort.Pagination.Cursor

/- The codec of cursors with its try block as written: what is thrown in it and what the
   handler makes of that. -/
namespace AstraPort.Pagination

/-- What a cursor carries, sortValue and id alike: a text of any UTF-16 units, or a finite
    number. -/
inductive CursorValue where
  | text (units : JsString)
  | number (value : JsNumber)
  deriving DecidableEq

def CursorValue.json : CursorValue → Json
  | .text units => .string units
  | .number value => .number value

/-- What the statements of the try block may throw. -/
inductive Raised where
  | badRequest (message : String)
  | syntaxError
  | typeError

/-- JSON.parse on a text: only a text that is none is refused. -/
def parsePayload (text : JsString) : Except Raised Json :=
  match Json.parse (decodeUtf8 (decodeBase64 text)) with
  | some value => .ok value
  | none => .error .syntaxError

/-- Reading a property throws on null; on other values a missing one is undefined. -/
def readProperty (name : JsString) : Json → Except Raised (Option Json)
  | .null => .error .typeError
  | value => .ok (property name value)

def readPayload (text : JsString) : Except Raised CursorData := do
  let payload ← parsePayload text
  let s ← readProperty [115] payload
  let i ← readProperty [105] payload
  match s, i with
  | some sortValue, some id => .ok ⟨sortValue, id⟩
  | _, _ => .error (.badRequest "Invalid cursor payload")

/-- The catch block: a BadRequestException goes on, all else becomes one. -/
def handle : Raised → Thrown
  | .badRequest message => .badRequest message
  | .syntaxError | .typeError => .badRequest "Invalid cursor: failed to decode"

def tryDecodeCursor (cursor : JsString) : Except Thrown CursorData :=
  if cursor = [] then .error (.badRequest "Invalid cursor: empty value")
  else match cursor.splitOn point with
    | [version, text] =>
      if version ≠ cursorVersion then .error (.badRequest "Invalid cursor format")
      else (readPayload text).mapError handle
    | _ => .error (.badRequest "Invalid cursor format")

section Totality

theorem handle_badRequest (raised : Raised) : ∃ message, handle raised = .badRequest message := by
  cases raised with
  | badRequest message => exact ⟨message, rfl⟩
  | syntaxError => exact ⟨_, rfl⟩
  | typeError => exact ⟨_, rfl⟩

/- The payload read in the try block and the one read at once are the same. -/
theorem readPayload_handled (text : JsString) : (readPayload text).mapError handle =
    match Json.parse (decodeUtf8 (decodeBase64 text)) with
    | none | some .null => .error (.badRequest "Invalid cursor: failed to decode")
    | some value =>
      match property [115] value, property [105] value with
      | some sortValue, some id => .ok ⟨sortValue, id⟩
      | _, _ => .error (.badRequest "Invalid cursor payload") := by
  unfold readPayload parsePayload
  cases Json.parse (decodeUtf8 (decodeBase64 text)) with
  | none => rfl
  | some value =>
    cases value with
    | null => rfl
    | _ =>
      simp only [readProperty, bind, Except.bind]
      split
      · rfl
      · rfl

theorem tryDecodeCursor_eq (cursor : JsString) : tryDecodeCursor cursor = decodeCursor cursor := by
  unfold tryDecodeCursor decodeCursor
  by_cases empty : cursor = []
  · rw [if_pos empty, if_pos empty]
  · rw [if_neg empty, if_neg empty]
    generalize cursor.splitOn point = parts
    match parts with
    | [version, text] =>
      exact congrArg (fun read => if version ≠ cursorVersion
        then .error (.badRequest "Invalid cursor format") else read) (readPayload_handled text)
    | [] => rfl
    | [_] => rfl
    | _ :: _ :: _ :: _ => rfl

/- Whatever the try block throws leaves it as a bad request. -/
theorem mapError_handle (tried : Except Raised CursorData) :
    (∃ data, tried.mapError handle = .ok data) ∨
      ∃ message, tried.mapError handle = .error (.badRequest message) := by
  cases tried with
  | ok data => exact Or.inl ⟨data, rfl⟩
  | error raised =>
    obtain ⟨message, handled⟩ := handle_badRequest raised
    exact Or.inr ⟨message, congrArg Except.error handled⟩

theorem tryDecodeCursor_total (cursor : JsString) :
    (∃ data, tryDecodeCursor cursor = .ok data) ∨
      ∃ message, tryDecodeCursor cursor = .error (.badRequest message) := by
  unfold tryDecodeCursor
  split
  · exact Or.inr ⟨_, rfl⟩
  · split
    · split
      · exact Or.inr ⟨_, rfl⟩
      · exact mapError_handle _
    · exact Or.inr ⟨_, rfl⟩

end Totality

/-- A pair of texts or numbers is read back as it was written, and whatever the text, a
    cursor is decoded or refused as a bad request. -/
theorem cursor_round_trip :
    (∀ sortValue id : CursorValue,
      tryDecodeCursor (encodeCursor ⟨sortValue.json, id.json⟩) =
        .ok ⟨sortValue.json, id.json⟩) ∧
    ∀ cursor : JsString, (∃ data, tryDecodeCursor cursor = .ok data) ∨
      ∃ message, tryDecodeCursor cursor = .error (.badRequest message) := by
  constructor
  · intro sortValue id
    rw [tryDecodeCursor_eq]
    exact decodeCursor_encodeCursor _
  · exact tryDecodeCursor_total

end AstraPort.Pagination
