import AstraPort.Foundation.Bytes
import AstraPort.Foundation.Host
import AstraPort.Foundation.Json
import AstraPort.Pagination.Offset

/- Cursors: the place of a row, written into a text that only decodeCursor takes apart, and
   the responses that carry one. -/
namespace AstraPort.Pagination

structure CursorData where
  sortValue : Json
  id : Json

/-- The units of a version mark, v1. -/
def cursorVersion : JsString := [118, 49]

/-- The point between the version and the payload. -/
def point : UInt16 := 46

def payload (data : CursorData) : Json := .object [([115], data.sortValue), ([105], data.id)]

def encodeCursor (data : CursorData) : JsString :=
  cursorVersion ++ point :: encodeBase64 (encodeUtf8 (payload data).stringify)

/-- A property of what JSON.parse returned: the last member of that name, none of a value
    that is no object. -/
def property (name : JsString) : Json → Option Json
  | .object members => (members.reverse.find? fun m => m.1 = name).map (·.2)
  | _ => none

/-- Errors thrown inside the try block become failures to decode, the payload's own apart. -/
def decodeCursor (cursor : JsString) : Except Thrown CursorData :=
  if cursor = [] then .error (.badRequest "Invalid cursor: empty value")
  else match cursor.splitOn point with
    | [version, text] =>
      if version ≠ cursorVersion then .error (.badRequest "Invalid cursor format")
      else match Json.parse (decodeUtf8 (decodeBase64 text)) with
        | none | some .null => .error (.badRequest "Invalid cursor: failed to decode")
        | some value =>
          match property [115] value, property [105] value with
          | some sortValue, some id => .ok ⟨sortValue, id⟩
          | _, _ => .error (.badRequest "Invalid cursor payload")
    | _ => .error (.badRequest "Invalid cursor format")

theorem encodeCursor_ne_nil (data : CursorData) : encodeCursor data ≠ [] := by
  simp [encodeCursor, cursorVersion]

theorem encodeCursor_split (data : CursorData) : (encodeCursor data).splitOn point =
    [cursorVersion, encodeBase64 (encodeUtf8 (payload data).stringify)] := by
  have version : ∀ u ∈ cursorVersion, (u == point) = false := by
    simp [cursorVersion, point]
  have text : ∀ u ∈ encodeBase64 (encodeUtf8 (payload data).stringify), (u == point) = false := by
    intro u inside
    simpa [point] using (encodeBase64_letters inside).1
  rw [encodeCursor, List.splitOn, List.splitOnP_append_cons_of_forall_mem version _ (by simp),
    List.splitOnP_eq_singleton text]

/-- A cursor is read back as it was written. -/
theorem decodeCursor_encodeCursor (data : CursorData) :
    decodeCursor (encodeCursor data) = .ok data := by
  have read : Json.parse (decodeUtf8 (decodeBase64 (encodeBase64 (encodeUtf8
      (payload data).stringify)))) = some (payload data) := by
    rw [decodeBase64_encodeBase64, decodeUtf8_encodeUtf8, Json.parse_stringify]
  unfold decodeCursor
  rw [if_neg (encodeCursor_ne_nil data), encodeCursor_split]
  simp only [ne_eq, not_true, if_false, read]
  simp [payload, property]

/-- CursorPaginationQueryDto with its defaults filled in; Column stands for the fields a
    table can be sorted by. -/
structure CursorPaginationQuery (Column : Type) where
  cursor : Option JsString
  limit : Nat
  sortField : Column
  sortOrder : SortOrder
  limit_min : 1 ≤ limit

structure CursorPaginationMeta where
  nextCursor : Option JsString
  previousCursor : Option JsString
  hasNext : Bool
  hasPrevious : Bool
  limit : Nat

structure CursorPage (Row : Type) where
  data : List Row
  pageMeta : CursorPaginationMeta

section Responses
variable {Row : Type}

/-- The two values read from the item, none where undefined. -/
def createCursorFromItem (sortValue id : Option Json) : Option JsString :=
  match sortValue, id with
  | some sortValue, some id => some (encodeCursor ⟨sortValue, id⟩)
  | _, _ => none

/-- sortValue and id read item[sortField] and item.id. The flag isAscending is never used. -/
def buildCursorPaginationMeta (sortValue id : Row → Option Json) (data : List Row) (limit : Nat)
    (hasMore : Bool) : CursorPaginationMeta :=
  { nextCursor :=
      if hasMore then data.getLast?.bind fun item => createCursorFromItem (sortValue item) (id item)
      else none,
    previousCursor := none, hasNext := hasMore, hasPrevious := false, limit := limit }

def createCursorPaginatedResponse (sortValue id : Row → Option Json) (data : List Row)
    (limit : Nat) (hasMore : Bool) : CursorPage Row :=
  ⟨data, buildCursorPaginationMeta sortValue id data limit hasMore⟩

end Responses
end AstraPort.Pagination
