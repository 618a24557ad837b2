import AstraPort.Foundation.Seeking
import AstraPort.Pagination.Cursor

/- The queries that applySorting and applyCursorPagination build, and the answers a database
   may give: rows in any order that ORDER BY allows, cut by LIMIT. -/
namespace AstraPort.Pagination
open Seeking
variable {Row Column : Type}

/-- What ">" and "<" ask of a comparison. -/
def SortOrder.comparator : SortOrder → Ordering
  | .asc => .gt
  | .desc => .lt

/-- WHERE (sortField ? cursorSortValue) OR (sortField = cursorSortValue AND idField ? cursorId). -/
structure Seek (Column : Type) where
  sortField : Column
  idField : Column
  comparator : Ordering
  cursorSortValue : Json
  cursorId : Json

structure Query (Column : Type) where
  seek : Option (Seek Column) := none
  orderBy : List (Column × SortOrder) := []
  take : Option Nat := none

def applySorting (query : Query Column) (sortBy : Column) (sortOrder : SortOrder) : Query Column :=
  { query with orderBy := [(sortBy, sortOrder)] }

def applyCursorPagination (query : Query Column) (cursor : JsString) (sortField : Column)
    (sortOrder : SortOrder) (limit : Nat) (idField : Column) : Except Thrown (Query Column) := do
  let decoded ← decodeCursor cursor
  .ok { query with
    seek := some ⟨sortField, idField, sortOrder.comparator, decoded.sortValue, decoded.id⟩,
    orderBy := [(sortField, sortOrder), (idField, sortOrder)], take := some (limit + 1) }

/-- How the values of a row are read and compared in the database; texts by the collation of
    their column. -/
structure Columns (Row Column : Type) where
  value : Row → Column → Json
  compare : Column → Json → Json → Ordering
  lawful : ∀ column, Std.TransCmp (compare column)

namespace Columns
variable (columns : Columns Row Column)

/-- The order of rows that ORDER BY column asks for. -/
def rank (column : Column) (sortOrder : SortOrder) (a b : Row) : Ordering :=
  match sortOrder with
  | .asc => columns.compare column (columns.value a column) (columns.value b column)
  | .desc => columns.compare column (columns.value b column) (columns.value a column)

def orderOf : List (Column × SortOrder) → Row → Row → Ordering
  | [] => fun _ _ => .eq
  | (column, sortOrder) :: more => compareLex (columns.rank column sortOrder) (orderOf more)

def accepts (query : Query Column) (row : Row) : Bool :=
  match query.seek with
  | none => true
  | some seek =>
    let bySort := columns.compare seek.sortField (columns.value row seek.sortField)
      seek.cursorSortValue
    let byId := columns.compare seek.idField (columns.value row seek.idField) seek.cursorId
    decide (bySort = seek.comparator ∨ bySort = .eq ∧ byId = seek.comparator)

def cut (query : Query Column) (rows : List Row) : List Row :=
  match query.take with
  | none => rows
  | some n => rows.take n

/-- The rows may be what the database answers to the query. -/
def Answers (table : List Row) (query : Query Column) (rows : List Row) : Prop :=
  ∃ sorted : List Row, sorted.Perm (table.filter (columns.accepts query)) ∧
    Sorted (columns.orderOf query.orderBy) sorted ∧ rows = cut query sorted

/-- A database over a static table, free in every choice that ORDER BY leaves it. -/
structure Database (table : List Row) where
  answer : Nat → Query Column → List Row
  consistent : ∀ call query, columns.Answers table query (answer call query)

instance compare_lawful (column : Column) : Std.TransCmp (columns.compare column) :=
  columns.lawful column

/-- The comparison of values in the direction of an order. -/
def direct (column : Column) (sortOrder : SortOrder) (a b : Json) : Ordering :=
  match sortOrder with
  | .asc => columns.compare column a b
  | .desc => columns.compare column b a

instance direct_lawful (column : Column) (sortOrder : SortOrder) :
    Std.TransCmp (columns.direct column sortOrder) := by
  cases sortOrder with
  | asc => exact columns.lawful column
  | desc =>
    show Std.TransCmp fun a b => columns.compare column b a
    exact Std.TransCmp.opposite

theorem rank_direct (column : Column) (sortOrder : SortOrder) : columns.rank column sortOrder =
    fun a b => columns.direct column sortOrder (columns.value a column) (columns.value b column) := by
  cases sortOrder with
  | asc => rfl
  | desc => rfl

instance rank_lawful (column : Column) (sortOrder : SortOrder) :
    Std.TransCmp (columns.rank column sortOrder) := by
  rw [rank_direct]
  exact lawful_through fun row => columns.value row column

instance orderOf_lawful (orderBy : List (Column × SortOrder)) :
    Std.TransCmp (columns.orderOf orderBy) := by
  induction orderBy with
  | nil => exact { eq_swap := rfl, isLE_trans := fun _ _ => rfl }
  | cons first more ih =>
    show Std.TransCmp (compareLex (columns.rank first.1 first.2) (columns.orderOf more))
    infer_instance

/-- The query for what comes behind a row. -/
def behind (row : Row) (sortField idField : Column) (sortOrder : SortOrder) (limit : Nat) :
    Query Column :=
  { seek := some ⟨sortField, idField, sortOrder.comparator, columns.value row sortField,
      columns.value row idField⟩,
    orderBy := [(sortField, sortOrder), (idField, sortOrder)], take := some (limit + 1) }

/-- The order of the pages behind the first one. -/
def seekOrder (sortField idField : Column) (sortOrder : SortOrder) : Row → Row → Ordering :=
  compareLex (columns.rank sortField sortOrder) (columns.rank idField sortOrder)

instance seekOrder_lawful (sortField idField : Column) (sortOrder : SortOrder) :
    Std.TransCmp (columns.seekOrder sortField idField sortOrder) := by
  unfold seekOrder
  infer_instance

/-- The lexicographic order of places. -/
def placeOrder (sortField idField : Column) (sortOrder : SortOrder) :
    CursorData → CursorData → Ordering :=
  compareLex (fun a b => columns.direct sortField sortOrder a.sortValue b.sortValue)
    fun a b => columns.direct idField sortOrder a.id b.id

/-- The place that a cursor made of the row encodes. -/
def placeOf (sortField idField : Column) (row : Row) : CursorData :=
  ⟨columns.value row sortField, columns.value row idField⟩

/-- The query for what comes behind a place. -/
def afterQuery (place : CursorData) (sortField idField : Column) (sortOrder : SortOrder)
    (limit : Nat) : Query Column :=
  { seek := some ⟨sortField, idField, sortOrder.comparator, place.sortValue, place.id⟩,
    orderBy := [(sortField, sortOrder), (idField, sortOrder)], take := some (limit + 1) }

instance placeOrder_lawful (sortField idField : Column) (sortOrder : SortOrder) :
    Std.TransCmp (columns.placeOrder sortField idField sortOrder) := by
  have bySort : Std.TransCmp fun a b : CursorData =>
      columns.direct sortField sortOrder a.sortValue b.sortValue :=
    lawful_through CursorData.sortValue
  have byId : Std.TransCmp fun a b : CursorData =>
      columns.direct idField sortOrder a.id b.id := lawful_through CursorData.id
  unfold placeOrder
  infer_instance

variable {columns} {table : List Row} {row : Row} {sortField idField : Column}
  {sortOrder : SortOrder} {limit : Nat}

theorem seekOrder_placed : columns.seekOrder sortField idField sortOrder = fun a b =>
    columns.placeOrder sortField idField sortOrder (columns.placeOf sortField idField a)
      (columns.placeOf sortField idField b) := by
  rw [seekOrder, rank_direct, rank_direct]
  rfl

theorem afterQuery_placeOf : afterQuery (columns.placeOf sortField idField row) sortField idField
    sortOrder limit = columns.behind row sortField idField sortOrder limit := rfl

theorem orderOf_single {column : Column} :
    columns.orderOf [(column, sortOrder)] = columns.rank column sortOrder := by
  funext a b
  simp [orderOf, compareLex]

theorem orderOf_seek : columns.orderOf [(sortField, sortOrder), (idField, sortOrder)] =
    columns.seekOrder sortField idField sortOrder := by
  funext a b
  simp [orderOf, seekOrder, compareLex]

/- The comparator asks for values behind the cursor's, in either direction. -/
theorem direct_comparator {column : Column} {mark value : Json} :
    columns.compare column value mark = sortOrder.comparator ↔
      columns.direct column sortOrder mark value = .lt := by
  cases sortOrder with
  | asc => exact Std.OrientedCmp.gt_iff_lt
  | desc => exact Iff.rfl

theorem direct_tied {column : Column} {mark value : Json} :
    columns.compare column value mark = .eq ↔
      columns.direct column sortOrder mark value = .eq := by
  cases sortOrder with
  | asc => exact Std.OrientedCmp.eq_comm
  | desc => exact Iff.rfl

theorem accepts_after {place : CursorData} (b : Row) :
    columns.accepts (afterQuery place sortField idField sortOrder limit) b =
      decide (columns.placeOrder sortField idField sortOrder place
        (columns.placeOf sortField idField b) = .lt) := by
  unfold accepts afterQuery
  rw [decide_eq_decide, placeOrder, compareLex, Ordering.then_eq_lt]
  exact or_congr direct_comparator (and_congr direct_tied direct_comparator)

theorem apart_seekOrder (apart : Apart (columns.rank idField sortOrder) table) :
    Apart (columns.seekOrder sortField idField sortOrder) table :=
  List.Pairwise.imp (fun unequal same => unequal (Ordering.then_eq_eq.mp same).2) apart

/-- The rows behind a place, in the order of the pages. -/
def rowsAfter (columns : Columns Row Column) (table : List Row) (sortField idField : Column)
    (sortOrder : SortOrder) (place : CursorData) : List Row :=
  (stableSort (columns.seekOrder sortField idField sortOrder) table).filter fun b =>
    columns.placeOrder sortField idField sortOrder place (columns.placeOf sortField idField b) = .lt

/- Unique ids leave the database no choice in what it answers behind a place. -/
theorem answers_after {rows : List Row} {place : CursorData}
    (apart : Apart (columns.rank idField sortOrder) table)
    (answers : columns.Answers table (afterQuery place sortField idField sortOrder limit) rows) :
    rows = (columns.rowsAfter table sortField idField sortOrder place).take (limit + 1) := by
  obtain ⟨sorted, same, ordered, cut⟩ := answers
  rw [List.filter_congr fun b _ => accepts_after b] at same
  have ordered' : Sorted (columns.seekOrder sortField idField sortOrder) sorted := by
    rw [← orderOf_seek]
    exact ordered
  have apartAfter := List.Pairwise.filter (fun b => columns.placeOrder sortField idField sortOrder
    place (columns.placeOf sortField idField b) = .lt)
    (apart_seekOrder apart : Apart (columns.seekOrder sortField idField sortOrder) table)
  rw [cut, sorted_unique apartAfter same ((stableSort_perm _ table).filter _) ordered'
    ((sorted_stableSort table).filter _)]
  rfl

theorem answers_behind {rows : List Row} (apart : Apart (columns.rank idField sortOrder) table)
    (answers : columns.Answers table (columns.behind row sortField idField sortOrder limit) rows) :
    rows = (later (columns.seekOrder sortField idField sortOrder) row
      (stableSort (columns.seekOrder sortField idField sortOrder) table)).take (limit + 1) := by
  rw [← afterQuery_placeOf] at answers
  rw [answers_after apart answers, rowsAfter, later]
  simp only [seekOrder_placed]

/-- The database that sorts rows left tied by ORDER BY by a comparison of its own. -/
def sortedDatabase (columns : Columns Row Column) (tie : Row → Row → Ordering) [Std.TransCmp tie]
    (table : List Row) : columns.Database table where
  answer _ query := cut query
    (stableSort (compareLex (columns.orderOf query.orderBy) tie)
      (table.filter (columns.accepts query)))
  consistent _ _ :=
    ⟨_, stableSort_perm _ _, (sorted_stableSort _).of_compareLex, rfl⟩

end Columns

section Pages

/-- The row asked for beyond the page is dropped; that it was there is the second value. -/
def dropExtra (limit : Nat) (results : List Row) : List Row × Bool :=
  let hasMore := decide (limit < results.length)
  (if hasMore then results.dropLast else results, hasMore)

theorem dropExtra_take (limit : Nat) (rows : List Row) :
    dropExtra limit (rows.take (limit + 1)) = (rows.take limit, decide (limit < rows.length)) := by
  by_cases more : limit < rows.length
  · have found : (rows.take (limit + 1)).length = limit + 1 := by
      rw [List.length_take]
      omega
    simp [dropExtra, found, more, List.dropLast_eq_take, List.take_take]
  · simp [dropExtra, List.take_of_length_le (show rows.length ≤ limit + 1 by omega),
      List.take_of_length_le (show rows.length ≤ limit by omega), more]

theorem dropExtra_last {limit : Nat} {rows : List Row} (short : rows.length ≤ limit) :
    dropExtra limit (rows.take (limit + 1)) = (rows, false) := by
  rw [dropExtra_take, List.take_of_length_le short]
  simp [short]

theorem dropExtra_more {limit : Nat} {front rest : List Row} {last : Row}
    (size : front.length + 1 = limit) (more : rest ≠ []) :
    dropExtra limit ((front ++ last :: rest).take (limit + 1)) = (front ++ [last], true) := by
  have room := List.length_pos_of_ne_nil more
  have taken : (front ++ last :: rest).take limit = front ++ [last] := by
    rw [← size, List.take_length_add_append]
    rfl
  rw [dropExtra_take, taken]
  simp only [List.length_append, List.length_cons, Prod.mk.injEq, decide_eq_true_eq, true_and]
  omega

/- Rows fit on a page, or the page ends at one of them with more to come. -/
theorem page_cases {limit : Nat} (positive : 1 ≤ limit) (rows : List Row) : rows.length ≤ limit ∨
    ∃ front last rest, rows = front ++ last :: rest ∧ front.length + 1 = limit ∧ rest ≠ [] := by
  obtain ⟨n, rfl⟩ := Nat.exists_eq_add_of_le' positive
  by_cases short : rows.length ≤ n + 1
  · exact Or.inl short
  · have inside : n < rows.length := by omega
    refine Or.inr ⟨rows.take n, rows[n], rows.drop (n + 1), ?_, ?_, ?_⟩
    · rw [← List.drop_eq_getElem_cons inside, List.take_append_drop]
    · rw [List.length_take, Nat.min_eq_left (by omega)]
    · intro empty
      exact short (List.drop_eq_nil_iff.mp empty)

end Pages
end AstraPort.Pagination
