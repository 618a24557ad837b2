import AstraPort.Pagination.Queries

/- The triggers read page by page: findAllCursor, called again with each cursor it returns.
   Its first page is sorted by the sort field alone, the pages behind it by the id too. -/
namespace AstraPort.AiTriggers
open Pagination Seeking

structure AITrigger where
  id : JsNumber
  name : JsString
  target : JsString
  event : JsString
  deriving DecidableEq

/-- The fields a table of triggers can be sorted by. -/
inductive Column where
  | id
  | name
  | target
  | event
  deriving DecidableEq

def AITrigger.value (item : AITrigger) : Column → Json
  | .id => .number item.id
  | .name => .string item.name
  | .target => .string item.target
  | .event => .string item.event

/-- How the database compares values; ids compare as the numbers they are. -/
structure ValueOrder where
  compare : Column → Json → Json → Ordering
  lawful : ∀ column, Std.TransCmp (compare column)
  ids : ∀ a b : JsNumber, compare .id (.number a) (.number b) = .eq → a = b

def ValueOrder.columns (order : ValueOrder) : Columns AITrigger Column :=
  ⟨AITrigger.value, order.compare, order.lawful⟩

section Orders
variable (order : ValueOrder) (pagination : CursorPaginationQuery Column)

/-- What the first page is sorted by. -/
abbrev sortRank : AITrigger → AITrigger → Ordering :=
  order.columns.rank pagination.sortField pagination.sortOrder

abbrev idRank : AITrigger → AITrigger → Ordering := order.columns.rank .id pagination.sortOrder

/-- What the pages behind the first one are sorted by. -/
abbrev pageOrder : AITrigger → AITrigger → Ordering :=
  order.columns.seekOrder pagination.sortField .id pagination.sortOrder

end Orders

/-- The query of the first page. -/
def firstQuery (pagination : CursorPaginationQuery Column) : Query Column :=
  { applySorting {} pagination.sortField pagination.sortOrder with
    take := some (pagination.limit + 1) }

/-- The page made of the rows a query returned. -/
def respond (pagination : CursorPaginationQuery Column) (results : List AITrigger) :
    CursorPage AITrigger :=
  let (data, hasMore) := dropExtra pagination.limit results
  createCursorPaginatedResponse (fun item => some (item.value pagination.sortField))
    (fun item => some (item.value .id)) data pagination.limit hasMore

def queryFor (pagination : CursorPaginationQuery Column) : Except Thrown (Query Column) :=
  match pagination.cursor with
  | none | some [] => .ok (firstQuery pagination)
  | some (u :: units) =>
    applyCursorPagination {} (u :: units) pagination.sortField pagination.sortOrder
      pagination.limit .id

def findAllCursor (getMany : Query Column → List AITrigger)
    (pagination : CursorPaginationQuery Column) : Except Thrown (CursorPage AITrigger) := do
  let query ← queryFor pagination
  .ok (respond pagination (getMany query))

section Iteration
variable {order : ValueOrder} {table : List AITrigger} (db : order.columns.Database table)
  (pagination : CursorPaginationQuery Column)

/-- Calls until hasNext is false, each with the cursor of the one before; none where a call
    throws or the calls allowed do not suffice. -/
def iterate : Nat → Nat → Option JsString → Option (List AITrigger)
  | 0, _, _ => none
  | calls + 1, call, cursor =>
    match findAllCursor (db.answer call) { pagination with cursor := cursor } with
    | .error _ => none
    | .ok page =>
      if page.pageMeta.hasNext then
        (iterate calls (call + 1) page.pageMeta.nextCursor).map (page.data ++ ·)
      else some page.data

/-- Iterating without a cursor first comes to an end, and returns every row once. -/
def VisitsOnce : Prop :=
  ∃ calls rows, iterate db pagination calls 0 none = some rows ∧ rows.Perm table

def firstPage : List AITrigger := (db.answer 0 (firstQuery pagination)).take pagination.limit

/-- The database's first answer leaves on the first page, of the rows tied with its last one,
    those whose ids do not come later. -/
def FirstPageCut : Prop := ∀ last ∈ (firstPage db pagination).getLast?,
  CutByTie (sortRank order pagination) (idRank order pagination) table (firstPage db pagination)
    last

/-- The cursor of the page that begins behind a row. -/
def cursorOf (row : AITrigger) : JsString :=
  encodeCursor ⟨row.value pagination.sortField, row.value .id⟩

variable {db pagination}

theorem findAllCursor_first (getMany : Query Column → List AITrigger) :
    findAllCursor getMany { pagination with cursor := none } =
      .ok (respond pagination (getMany (firstQuery pagination))) := rfl

theorem findAllCursor_behind (getMany : Query Column → List AITrigger) (row : AITrigger) :
    findAllCursor getMany { pagination with cursor := some (cursorOf pagination row) } =
      .ok (respond pagination (getMany (order.columns.behind row pagination.sortField .id
        pagination.sortOrder pagination.limit))) := by
  have query : queryFor { pagination with cursor := some (cursorOf pagination row) } =
      .ok (order.columns.behind row pagination.sortField .id pagination.sortOrder
        pagination.limit) := by
    obtain ⟨u, units, written⟩ := List.exists_cons_of_ne_nil
      (encodeCursor_ne_nil ⟨row.value pagination.sortField, row.value .id⟩)
    have read := decodeCursor_encodeCursor ⟨row.value pagination.sortField, row.value .id⟩
    simp only [queryFor, cursorOf, applyCursorPagination, written] at read ⊢
    rw [read]
    rfl
  rw [findAllCursor, query]
  rfl

theorem respond_last {rows : List AITrigger} (short : rows.length ≤ pagination.limit) :
    (respond pagination (rows.take (pagination.limit + 1))).data = rows ∧
      (respond pagination (rows.take (pagination.limit + 1))).pageMeta.hasNext = false := by
  rw [respond, dropExtra_last short]
  exact ⟨rfl, rfl⟩

theorem respond_more {front rest : List AITrigger} {last : AITrigger}
    (size : front.length + 1 = pagination.limit) (more : rest ≠ []) :
    (respond pagination ((front ++ last :: rest).take (pagination.limit + 1))).data =
      front ++ [last] ∧
    (respond pagination ((front ++ last :: rest).take (pagination.limit + 1))).pageMeta.hasNext =
      true ∧
    (respond pagination ((front ++ last :: rest).take (pagination.limit + 1))).pageMeta.nextCursor =
      some (cursorOf pagination last) := by
  rw [respond, dropExtra_more size more]
  refine ⟨rfl, rfl, ?_⟩
  simp [createCursorPaginatedResponse, buildCursorPaginationMeta, createCursorFromItem, cursorOf]

theorem iterate_called {calls call : Nat} {cursor : Option JsString} {page : CursorPage AITrigger}
    (called : findAllCursor (db.answer call) { pagination with cursor := cursor } = .ok page) :
    iterate db pagination (calls + 1) call cursor =
      if page.pageMeta.hasNext then
        (iterate db pagination calls (call + 1) page.pageMeta.nextCursor).map (page.data ++ ·)
      else some page.data := by
  rw [iterate, called]

theorem everyRow_accepted :
    table.filter (order.columns.accepts (firstQuery pagination)) = table :=
  List.filter_eq_self.mpr fun _ _ => rfl

/- The database sorts the first page by the sort field, in an order of its choice. -/
theorem first_answer (db : order.columns.Database table)
    (pagination : CursorPaginationQuery Column) : ∃ sorted : List AITrigger,
    sorted.Perm table ∧ Sorted (sortRank order pagination) sorted ∧
      db.answer 0 (firstQuery pagination) = sorted.take (pagination.limit + 1) := by
  obtain ⟨sorted, same, ordered, answered⟩ := db.consistent 0 (firstQuery pagination)
  rw [everyRow_accepted] at same
  refine ⟨sorted, same, ?_, answered⟩
  rw [sortRank, ← Columns.orderOf_single]
  exact ordered

theorem firstPageCut_iff {front rest : List AITrigger} {last : AITrigger}
    (size : front.length + 1 = pagination.limit)
    (answered : db.answer 0 (firstQuery pagination) =
      (front ++ last :: rest).take (pagination.limit + 1)) :
    FirstPageCut db pagination ↔ CutByTie (sortRank order pagination) (idRank order pagination)
      table (front ++ [last]) last := by
  have page : firstPage db pagination = front ++ [last] := by
    rw [firstPage, answered, List.take_take, Nat.min_eq_left (by omega), ← size,
      List.take_length_add_append]
    rfl
  rw [FirstPageCut, page]
  simp

/- Where no tie reaches across the end of the first page, every order of the answer will do. -/
theorem firstPageCut_of_untied (long : ¬ table.length ≤ pagination.limit)
    (untied : Untied (sortRank order pagination) table pagination.limit) :
    FirstPageCut db pagination := by
  obtain ⟨sorted, same, ordered, answered⟩ := first_answer db pagination
  rcases page_cases pagination.limit_min sorted with short | ⟨front, last, rest, rfl, size, unread⟩
  · exact absurd (same.length_eq ▸ short) long
  · have split : (front ++ [last] ++ rest).Perm table := by
      rwa [List.append_assoc]
    rw [firstPageCut_iff size answered]
    exact cut_of_untied ordered split (size ▸ untied)

/- Calls to spare change nothing. -/
theorem iterate_mono {calls call : Nat} {cursor : Option JsString} {rows : List AITrigger}
    (done : iterate db pagination calls call cursor = some rows) {more : Nat}
    (spare : calls ≤ more) :
    iterate db pagination more call cursor = some rows := by
  induction calls generalizing call cursor rows more with
  | zero => cases done
  | succ calls ih =>
    obtain ⟨more, rfl⟩ := Nat.exists_eq_add_of_le' (Nat.le_of_add_left_le spare)
    cases called : findAllCursor (db.answer call) { pagination with cursor := cursor } with
    | error thrown => simp [iterate, called] at done
    | ok page =>
      rw [iterate_called called] at done ⊢
      by_cases hasNext : page.pageMeta.hasNext
      · rw [if_pos hasNext] at done ⊢
        obtain ⟨rest, restDone, rfl⟩ := Option.map_eq_some_iff.mp done
        rw [ih restDone (by omega)]
        rfl
      · rwa [if_neg hasNext] at done ⊢

theorem iterate_unique {calls calls' call : Nat} {cursor : Option JsString}
    {rows rows' : List AITrigger} (done : iterate db pagination calls call cursor = some rows)
    (done' : iterate db pagination calls' call cursor = some rows') : rows = rows' := by
  have first := iterate_mono done (Nat.le_max_left calls calls')
  have second := iterate_mono done' (Nat.le_max_right calls calls')
  exact Option.some.inj (first.symm.trans second)

variable (apart : Apart (idRank order pagination) table)

/-- The table as the pages behind the first one go through it. -/
def canonical (order : ValueOrder) (pagination : CursorPaginationQuery Column)
    (table : List AITrigger) : List AITrigger := stableSort (pageOrder order pagination) table

include apart

theorem later_canonical {front rest : List AITrigger} {row : AITrigger}
    (place : canonical order pagination table = front ++ row :: rest) :
    later (pageOrder order pagination) row (canonical order pagination table) = rest := by
  have apartTable : Apart (pageOrder order pagination) table := Columns.apart_seekOrder apart
  have apartRows : Apart (pageOrder order pagination) (canonical order pagination table) :=
    apartTable.perm (stableSort_perm _ table).symm
  have sorted : Sorted (pageOrder order pagination) (canonical order pagination table) :=
    sorted_stableSort table
  rw [place] at apartRows sorted ⊢
  exact later_split apartRows sorted

/- From a cursor on, the rows behind its row are returned in order, each once. -/
theorem iterate_behind {calls call : Nat} {front rest : List AITrigger} {row : AITrigger}
    (place : canonical order pagination table = front ++ row :: rest)
    (enough : rest.length < calls) :
    iterate db pagination calls call (some (cursorOf pagination row)) = some rest := by
  induction calls generalizing call front rest row with
  | zero => cases enough
  | succ calls ih =>
    have answered := Columns.answers_behind apart (db.consistent call
      (order.columns.behind row pagination.sortField .id pagination.sortOrder pagination.limit))
    rw [← canonical, later_canonical apart place] at answered
    rw [iterate_called (findAllCursor_behind (db.answer call) row), answered]
    rcases page_cases pagination.limit_min rest with short | ⟨page, last, more, rfl, size, unread⟩
    · obtain ⟨data, hasNext⟩ := respond_last short
      rw [hasNext, data]
      rfl
    · obtain ⟨data, hasNext, nextCursor⟩ := respond_more size unread
      have further : canonical order pagination table = (front ++ row :: page) ++ last :: more := by
        rw [place]
        simp
      have fewer : more.length < calls := by
        simp only [List.length_append, List.length_cons] at enough
        omega
      rw [hasNext, data, nextCursor, ih further fewer]
      simp

/- After a first page that did not take all rows, the others are those behind its last one. -/
theorem visitsOnce_iff_later {front rest : List AITrigger} {last : AITrigger}
    (size : front.length + 1 = pagination.limit) (unread : rest ≠ [])
    (answered : db.answer 0 (firstQuery pagination) =
      (front ++ last :: rest).take (pagination.limit + 1))
    (same : (front ++ last :: rest).Perm table) :
    VisitsOnce db pagination ↔
      (front ++ [last] ++ later (pageOrder order pagination) last table).Perm table := by
  have inside : last ∈ canonical order pagination table :=
    (stableSort_perm _ table).symm.subset (same.subset (by simp))
  obtain ⟨before, behind, place⟩ := List.append_of_mem inside
  have remaining : (later (pageOrder order pagination) last table).Perm behind := by
    rw [← later_canonical apart place]
    exact (stableSort_perm _ table).symm.filter _
  have done : iterate db pagination (behind.length + 2) 0 none =
      some (front ++ [last] ++ behind) := by
    obtain ⟨data, hasNext, nextCursor⟩ := respond_more size unread
    rw [iterate_called (findAllCursor_first (db.answer 0)), answered, hasNext, data, nextCursor,
      iterate_behind apart place (by omega)]
    rfl
  rw [(remaining.append_left (front ++ [last])).congr_left]
  constructor
  · rintro ⟨calls, rows, finished, once⟩
    rwa [iterate_unique done finished]
  · intro once
    exact ⟨_, _, done, once⟩

/- The first answer takes all rows, or its page ends at one with more to come. -/
theorem visitsOnce_iff_cut : VisitsOnce db pagination ↔
    table.length ≤ pagination.limit ∨ FirstPageCut db pagination := by
  obtain ⟨sorted, same, ordered, answered⟩ := first_answer db pagination
  rcases page_cases pagination.limit_min sorted with short | ⟨front, last, rest, rfl, size, unread⟩
  · have all : VisitsOnce db pagination := by
      obtain ⟨data, hasNext⟩ := respond_last short
      refine ⟨1, sorted, ?_, same⟩
      rw [iterate_called (findAllCursor_first (db.answer 0)), answered, hasNext, data]
      rfl
    exact iff_of_true all (Or.inl (same.length_eq ▸ short))
  · have long : ¬ table.length ≤ pagination.limit := by
      have more := List.length_pos_of_ne_nil unread
      rw [← same.length_eq, List.length_append, List.length_cons]
      omega
    have split : (front ++ [last] ++ rest).Perm table := by
      rwa [List.append_assoc]
    rw [visitsOnce_iff_later apart size unread answered same, pageOrder, Columns.seekOrder,
      page_then_later apart split ordered, firstPageCut_iff size answered]
    simp [long]

/- A database that sorts ties against the ids fails on every tie across that end. -/
theorem tied_not_visited (long : ¬ table.length ≤ pagination.limit)
    (tied : ¬ Untied (sortRank order pagination) table pagination.limit) :
    ∃ db : order.columns.Database table, ¬ VisitsOnce db pagination := by
  have lawful : Std.TransCmp fun a b => idRank order pagination b a := Std.TransCmp.opposite
  let db := order.columns.sortedDatabase (fun a b => idRank order pagination b a) table
  let sorted := stableSort (compareLex (sortRank order pagination)
    fun a b => idRank order pagination b a) table
  have answered : db.answer 0 (firstQuery pagination) = sorted.take (pagination.limit + 1) := by
    show (stableSort (compareLex (order.columns.orderOf [(pagination.sortField,
      pagination.sortOrder)]) fun a b => idRank order pagination b a)
      (table.filter (order.columns.accepts (firstQuery pagination)))).take _ = _
    rw [Columns.orderOf_single, everyRow_accepted]
  have same : sorted.Perm table := stableSort_perm _ table
  have reversed : Sorted (compareLex (sortRank order pagination)
      fun a b => idRank order pagination b a) sorted := sorted_stableSort table
  have ordered : Sorted (sortRank order pagination) sorted := reversed.of_compareLex
  simp only [Untied, not_forall, not_or, Nat.not_le, Nat.not_lt] at tied
  obtain ⟨a, inA, b, inB, alike, different, before, upTo⟩ := tied
  refine ⟨db, fun visits => ?_⟩
  have cut := ((visitsOnce_iff_cut apart).mp visits).resolve_left long
  rcases page_cases pagination.limit_min sorted with
    short | ⟨front, last, rest, parts, size, unread⟩
  · exact long (same.length_eq ▸ short)
  · rw [parts] at answered same reversed ordered
    rw [firstPageCut_iff size answered] at cut
    have split : (front ++ [last] ++ rest).Perm table := by
      rwa [List.append_assoc]
    have tiedA : sortRank order pagination last a = .eq :=
      ordered.tied_at_last split (by omega) (by omega)
    have tiedB : sortRank order pagination last b = .eq := Std.TransCmp.eq_trans tiedA alike
    by_cases itself : last = a
    · exact not_cut_of_reversed apart reversed split inB tiedB (itself ▸ different) cut
    · exact not_cut_of_reversed apart reversed split inA tiedA itself cut

end Iteration

theorem apart_of_unique (order : ValueOrder) {table : List AITrigger}
    (unique : (table.map (·.id)).Nodup) (pagination : CursorPaginationQuery Column) :
    Apart (idRank order pagination) table := by
  refine List.Pairwise.imp (fun {a b} unequal same => unequal ?_) (List.pairwise_map.mp unique)
  cases direction : pagination.sortOrder with
  | asc =>
    rw [idRank, direction] at same
    exact order.ids a.id b.id same
  | desc =>
    rw [idRank, direction] at same
    exact (order.ids b.id a.id same).symm

/-- Every row is visited once by any database's answers if and only if all rows fit on one
    page or no two tied rows reach across the end of the first; by one database's answers if
    and only if its first page cuts tied rows by their ids. -/
theorem every_row_visited_once_iff (order : ValueOrder) {table : List AITrigger}
    (unique : (table.map (·.id)).Nodup) (pagination : CursorPaginationQuery Column) :
    ((∀ db : order.columns.Database table, VisitsOnce db pagination) ↔
      table.length ≤ pagination.limit ∨
        Untied (sortRank order pagination) table pagination.limit) ∧
    ∀ db : order.columns.Database table, VisitsOnce db pagination ↔
      table.length ≤ pagination.limit ∨ FirstPageCut db pagination := by
  have apart := apart_of_unique order unique pagination
  refine ⟨⟨fun always => ?_, fun condition db => ?_⟩, fun db => visitsOnce_iff_cut apart⟩
  · by_cases short : table.length ≤ pagination.limit
    · exact Or.inl short
    · refine Or.inr (by_contra fun tied => ?_)
      obtain ⟨db, missed⟩ := tied_not_visited apart short tied
      exact missed (always db)
  · rw [visitsOnce_iff_cut apart]
    by_cases short : table.length ≤ pagination.limit
    · exact Or.inl short
    · exact Or.inr (firstPageCut_of_untied short (condition.resolve_left short))

/-- Values by their JSON texts: texts by their units, small numbers by their digits. -/
def plainOrder : ValueOrder where
  compare _ a b := compare a.stringify b.stringify
  lawful _ := by
    show Std.TransCmp (compareOn Json.stringify)
    infer_instance
  ids a b same := by
    have sameText := Std.LawfulEqOrd.eq_of_compare same
    exact Json.number.inj (Json.stringify_inj.mp sameText)

def numbered (digit : Fin 9) : JsNumber := JsNumber.ofDigits false [digit.succ] 1

def trigger (digit : Fin 9) (name : UInt16) : AITrigger := ⟨numbered digit, [name], [], []⟩

def oneByName : CursorPaginationQuery Column := ⟨none, 1, .name, .asc, by decide⟩

theorem same_named_triggers_missed :
    ([trigger 0 97, trigger 1 97].map (·.id)).Nodup ∧
      ∃ db : plainOrder.columns.Database [trigger 0 97, trigger 1 97],
        ¬ VisitsOnce db oneByName := by
  have unique : ([trigger 0 97, trigger 1 97].map (·.id)).Nodup := by decide
  have apart := apart_of_unique plainOrder unique oneByName
  exact ⟨unique, tied_not_visited apart (by decide) (by decide)⟩

theorem differently_named_visited :
    VisitsOnce (plainOrder.columns.sortedDatabase (idRank plainOrder oneByName)
      [trigger 0 97, trigger 1 98]) oneByName :=
  (every_row_visited_once_iff plainOrder (by decide) oneByName).1.mpr (Or.inr (by decide)) _

end AstraPort.AiTriggers
