import AstraPort.Pagination.CursorCodec
import AstraPort.Pagination.Queries

/- executeCursorQuery, and a table read with it page by page from any place on. -/
namespace AstraPort.Pagination
open Seeking
variable {Row Column : Type}

/-- The page of a query, and whether a row was found beyond it. -/
def executeCursorQuery (getMany : Query Column → List Row) (query : Query Column)
    (cursor : JsString) (sortField : Column) (sortOrder : SortOrder) (limit : Nat)
    (idField : Column) : Except Thrown (List Row × Bool) := do
  let query ← applyCursorPagination query cursor sortField sortOrder limit idField
  .ok (dropExtra limit (getMany query))

/-- A table nobody writes to: no two ids compare as equal in the database, and what rows are
    sorted by is a text or a number. -/
structure StaticTable (Row Column : Type) where
  columns : Columns Row Column
  rows : List Row
  sortField : Column
  id : Column
  unique : rows.Pairwise fun a b =>
    columns.compare id (columns.value a id) (columns.value b id) ≠ .eq
  sortValues : ∀ row ∈ rows, ∃ value : CursorValue, columns.value row sortField = value.json
  ids : ∀ row ∈ rows, ∃ value : CursorValue, columns.value row id = value.json

namespace StaticTable
variable (table : StaticTable Row Column)

/-- The row comes strictly after the pair (s, i): by its sort value in the direction of the
    order or, where that is the same, by its id. -/
def Behind (sortOrder : SortOrder) (s i : CursorValue) (row : Row) : Prop :=
  let bySort := table.columns.direct table.sortField sortOrder s.json
    (table.columns.value row table.sortField)
  let byId := table.columns.direct table.id sortOrder i.json (table.columns.value row table.id)
  bySort = .lt ∨ bySort = .eq ∧ byId = .lt

instance behind_decidable (sortOrder : SortOrder) (s i : CursorValue) :
    DecidablePred (table.Behind sortOrder s i) :=
  fun _ => inferInstanceAs (Decidable (_ ∨ _ ∧ _))

/-- Those rows, sorted by both fields. -/
def remaining (sortOrder : SortOrder) (s i : CursorValue) : List Row :=
  (stableSort (table.columns.seekOrder table.sortField table.id sortOrder) table.rows).filter
    fun row => table.Behind sortOrder s i row

/-- Pages asked for until no cursor comes with one; none where a call throws or the calls
    allowed do not suffice. -/
def readOn (db : table.columns.Database table.rows) (sortOrder : SortOrder) (limit : Nat) :
    Nat → Nat → JsString → Option (List Row)
  | 0, _, _ => none
  | calls + 1, call, cursor =>
    match executeCursorQuery (db.answer call) {} cursor table.sortField sortOrder limit
        table.id with
    | .error _ => none
    | .ok (items, hasMore) =>
      let pageMeta := buildCursorPaginationMeta (fun row => some (table.columns.value row
        table.sortField)) (fun row => some (table.columns.value row table.id)) items limit hasMore
      match pageMeta.nextCursor with
      | none => some items
      | some next => (readOn db sortOrder limit calls (call + 1) next).map (items ++ ·)

section Pages
variable {table} {sortOrder : SortOrder} {limit : Nat} {s i : CursorValue} {cursor : JsString}

theorem apart_ids (table : StaticTable Row Column) (sortOrder : SortOrder) :
    Apart (table.columns.rank table.id sortOrder) table.rows := by
  apply table.unique.imp
  intro a b unequal same
  rw [Columns.rank_direct] at same
  exact unequal (Std.OrientedCmp.eq_comm.mp (Columns.direct_tied.mpr same))

theorem behind_iff (row : Row) : table.Behind sortOrder s i row ↔
    table.columns.placeOrder table.sortField table.id sortOrder ⟨s.json, i.json⟩
      (table.columns.placeOf table.sortField table.id row) = .lt := by
  rw [Columns.placeOrder, compareLex, Ordering.then_eq_lt]
  rfl

theorem remaining_eq : table.remaining sortOrder s i =
    table.columns.rowsAfter table.rows table.sortField table.id sortOrder ⟨s.json, i.json⟩ := by
  unfold remaining Columns.rowsAfter
  simp only [behind_iff]

theorem remaining_perm :
    (table.remaining sortOrder s i).Perm (table.rows.filter (table.Behind sortOrder s i ·)) :=
  (stableSort_perm _ table.rows).filter _

theorem remaining_sorted :
    Sorted (table.columns.seekOrder table.sortField table.id sortOrder)
      (table.remaining sortOrder s i) :=
  (sorted_stableSort table.rows).filter _

theorem mem_remaining {row : Row} (member : row ∈ table.remaining sortOrder s i) :
    row ∈ table.rows ∧ table.Behind sortOrder s i row := by
  simpa using remaining_perm.subset member

/- The rows behind one of those that remain are those that stand behind it. -/
theorem remaining_split {front rest : List Row} {last : Row} {s' i' : CursorValue}
    (parts : table.remaining sortOrder s i = front ++ last :: rest)
    (sortValue : table.columns.value last table.sortField = s'.json)
    (id : table.columns.value last table.id = i'.json) :
    table.remaining sortOrder s' i' = rest := by
  have apart : Apart (table.columns.seekOrder table.sortField table.id sortOrder)
      (table.remaining sortOrder s i) :=
    ((Columns.apart_seekOrder (table.apart_ids sortOrder)).perm
      (stableSort_perm _ table.rows).symm).filter _
  have sorted : Sorted (table.columns.seekOrder table.sortField table.id sortOrder)
      (table.remaining sortOrder s i) := remaining_sorted
  have place : table.columns.placeOf table.sortField table.id last = ⟨s'.json, i'.json⟩ := by
    rw [Columns.placeOf, sortValue, id]
  have first : table.Behind sortOrder s i last :=
    (mem_remaining (by rw [parts]; simp)).2
  have onward (row : Row) (behind : table.Behind sortOrder s' i' row) :
      table.Behind sortOrder s i row := by
    rw [behind_iff] at first behind ⊢
    rw [place] at first
    exact Std.TransCmp.lt_trans first behind
  have again : table.remaining sortOrder s' i' =
      later (table.columns.seekOrder table.sortField table.id sortOrder) last
        (table.remaining sortOrder s i) := by
    rw [later, remaining, remaining, List.filter_filter]
    apply List.filter_congr
    intro row _
    rw [Columns.seekOrder_placed]
    beta_reduce
    rw [place, ← Bool.decide_and, decide_eq_decide, ← behind_iff]
    constructor
    · intro behind
      exact ⟨behind, onward row behind⟩
    · exact And.left
  rw [again, parts]
  rw [parts] at apart sorted
  exact later_split apart sorted

/- One query returns a page of what remains. -/
theorem executeCursorQuery_eq (db : table.columns.Database table.rows) (limit call : Nat)
    (encodes : decodeCursor cursor = .ok ⟨s.json, i.json⟩) :
    executeCursorQuery (db.answer call) {} cursor table.sortField sortOrder limit table.id =
      .ok ((table.remaining sortOrder s i).take limit,
        decide (limit < (table.remaining sortOrder s i).length)) := by
  have query : applyCursorPagination {} cursor table.sortField sortOrder limit table.id =
      .ok (Columns.afterQuery ⟨s.json, i.json⟩ table.sortField table.id sortOrder limit) := by
    rw [applyCursorPagination, encodes]
    rfl
  have answered := Columns.answers_after (table.apart_ids sortOrder) (db.consistent call
    (Columns.afterQuery ⟨s.json, i.json⟩ table.sortField table.id sortOrder limit))
  rw [executeCursorQuery, query]
  show Except.ok (dropExtra limit (db.answer call _)) = _
  rw [answered, dropExtra_take, ← remaining_eq]

/- The cursor that comes with a page leads to the rows behind its last one. -/
theorem readOn_remaining (db : table.columns.Database table.rows) (positive : 1 ≤ limit)
    {calls call : Nat} (encodes : decodeCursor cursor = .ok ⟨s.json, i.json⟩)
    (enough : (table.remaining sortOrder s i).length < calls) :
    table.readOn db sortOrder limit calls call cursor = some (table.remaining sortOrder s i) := by
  induction calls generalizing call cursor s i with
  | zero => cases enough
  | succ calls ih =>
    rw [readOn, executeCursorQuery_eq db limit call encodes]
    rcases page_cases positive (table.remaining sortOrder s i) with
      short | ⟨front, last, rest, parts, size, unread⟩
    · simp [buildCursorPaginationMeta, Nat.not_lt.mpr short, List.take_of_length_le short]
    · have inside : last ∈ table.rows := (mem_remaining (by rw [parts]; simp)).1
      obtain ⟨s', sortValue⟩ := table.sortValues last inside
      obtain ⟨i', id⟩ := table.ids last inside
      have behind := remaining_split parts sortValue id
      have more : limit < (table.remaining sortOrder s i).length := by
        have room := List.length_pos_of_ne_nil unread
        rw [parts, List.length_append, List.length_cons]
        omega
      have page : (table.remaining sortOrder s i).take limit = front ++ [last] := by
        rw [parts, ← size, List.take_length_add_append]
        rfl
      have fewer : (table.remaining sortOrder s' i').length < calls := by
        rw [parts, List.length_append, List.length_cons] at enough
        rw [behind]
        omega
      have next : table.readOn db sortOrder limit calls (call + 1)
          (encodeCursor ⟨s'.json, i'.json⟩) = some (table.remaining sortOrder s' i') :=
        ih (decodeCursor_encodeCursor ⟨s'.json, i'.json⟩) fewer
      simp only [page, more, decide_true, buildCursorPaginationMeta, if_true,
        List.getLast?_concat, Option.bind_some, createCursorFromItem, sortValue, id, next]
      rw [behind, parts]
      simp

end Pages

/-- A query from a cursor returns the first rows behind the pair it encodes, in order, with
    whether more of them follow; and going on with the cursors returned comes to an end, with
    every such row returned once. -/
theorem pages_from_any_cursor (sortOrder : SortOrder) {limit : Nat} (positive : 1 ≤ limit)
    (s i : CursorValue) {cursor : JsString}
    (encodes : decodeCursor cursor = .ok ⟨s.json, i.json⟩)
    (db : table.columns.Database table.rows) :
    (∀ call, executeCursorQuery (db.answer call) {} cursor table.sortField sortOrder limit
        table.id = .ok ((table.remaining sortOrder s i).take limit,
          decide (limit < (table.remaining sortOrder s i).length))) ∧
    (∃ enough, ∀ calls ≥ enough, table.readOn db sortOrder limit calls 0 cursor =
      some (table.remaining sortOrder s i)) ∧
    (table.remaining sortOrder s i).Perm (table.rows.filter (table.Behind sortOrder s i ·)) ∧
    Sorted (table.columns.seekOrder table.sortField table.id sortOrder)
      (table.remaining sortOrder s i) := by
  refine ⟨fun call => executeCursorQuery_eq db limit call encodes,
    ⟨(table.remaining sortOrder s i).length + 1, ?_⟩, remaining_perm, remaining_sorted⟩
  intro calls enough
  exact readOn_remaining db positive encodes enough

end StaticTable

inductive NamedColumn where
  | name
  | id

/-- Three rows of a name and an id, compared as JSON texts. -/
def namedRows : StaticTable (JsString × JsString) NamedColumn where
  columns :=
    { value row
        | .name => .string row.1
        | .id => .string row.2
      compare _ a b := compare a.stringify b.stringify
      lawful _ := by
        show Std.TransCmp (compareOn Json.stringify)
        infer_instance }
  rows := [([98], [51]), ([97], [49]), ([97], [50])]
  sortField := .name
  id := .id
  unique := by decide
  sortValues row _ := ⟨.text row.1, rfl⟩
  ids row _ := ⟨.text row.2, rfl⟩

def namedDatabase : namedRows.columns.Database namedRows.rows :=
  namedRows.columns.sortedDatabase (namedRows.columns.rank .id .desc) namedRows.rows

theorem second_of_tied_rows_next : namedRows.remaining .asc (.text [97]) (.text [49]) =
      [([97], [50]), ([98], [51])] ∧
    executeCursorQuery (namedDatabase.answer 0) {} (encodeCursor ⟨.string [97], .string [49]⟩)
      .name .asc 1 .id = .ok ([([97], [50])], true) := by
  have left : namedRows.remaining .asc (.text [97]) (.text [49]) =
      [([97], [50]), ([98], [51])] := by decide
  have pages := namedRows.pages_from_any_cursor .asc (Nat.le_refl 1) (.text [97]) (.text [49])
    (decodeCursor_encodeCursor ⟨.string [97], .string [49]⟩) namedDatabase
  have page := pages.1 0
  rw [left] at page
  exact ⟨left, page⟩

end AstraPort.Pagination
