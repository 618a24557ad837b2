import AstraPort.Audit.CsvExport
import AstraPort.Foundation.Slicing
import AstraPort.Pagination.Pages

/- AuditQueryBuilder, and what findAll and export make of its answers. Entries are sorted by one
   column, so the database may order those that agree there as it likes, each time anew. -/
namespace AstraPort.Audit
open Slicing Pagination

/-- AuditLogFilterDto with its defaults. -/
structure AuditLogFilter where
  page : Nat := 1
  limit : Nat := 10
  sortBy : String := "createdAt"
  sortOrder : SortOrder := .desc
  startDate : Option String := none
  endDate : Option String := none
  eventType : Option String := none
  portfolioId : Option String := none
  userAction : Option String := none
  page_min : 1 ≤ page := by decide
  limit_min : 1 ≤ limit := by decide

/-- A text that is there and not empty. -/
def given (text : Option String) : Option String := text.filter fun text => decide (text ≠ "")

inductive AuditCondition where
  | userId (userId : String)
  | createdFrom (startDate : String)
  | createdUntil (endDate : String)
  | eventType (eventType : String)
  | portfolioId (portfolioId : String)
  | userAction (userAction : String)
  deriving DecidableEq

structure AuditQuery where
  conditions : List AuditCondition
  sortBy : String
  sortOrder : SortOrder
  skip : Nat
  take : Nat
  deriving DecidableEq

/-- AuditQueryBuilder.buildQuery. -/
def buildQuery (filter : AuditLogFilter) (userId : String) : AuditQuery where
  conditions := .userId userId ::
    (((given filter.startDate).map AuditCondition.createdFrom).toList ++
      ((given filter.endDate).map AuditCondition.createdUntil).toList ++
      ((given filter.eventType).map AuditCondition.eventType).toList ++
      ((given filter.portfolioId).map AuditCondition.portfolioId).toList ++
      ((given filter.userAction).map AuditCondition.userAction).toList)
  sortBy := filter.sortBy
  sortOrder := filter.sortOrder
  skip := (filter.page - 1) * filter.limit
  take := filter.limit

/-- AuditLogService.findAll over the answers of getManyAndCount. -/
def findAll (getManyAndCount : AuditQuery → List AuditLog × Nat) (filter : AuditLogFilter)
    (userId : String) : OffsetPage AuditLogEntryDto :=
  let (logs, total) := getManyAndCount (buildQuery filter userId)
  createOffsetPaginatedResponse (logs.map mapToDto) total filter.page filter.limit

def exportLimit : Nat := 10000

/-- The entries that AuditLogService.export hands to its exporter. -/
def exportedLogs (getMany : AuditQuery → List AuditLog) (filter : AuditLogFilter)
    (userId : String) : List AuditLogEntryDto :=
  let widened := { filter with limit := exportLimit, limit_min := by decide }
  (getMany (buildQuery widened userId)).map mapToDto

/-- How the database reads a date, and how it orders entries by a column. -/
structure AuditColumns where
  instant : String → Int
  rank : String → SortOrder → AuditLog → AuditLog → Ordering
  lawful : ∀ sortBy sortOrder, Std.TransCmp (rank sortBy sortOrder)

namespace AuditColumns
variable (columns : AuditColumns)

instance rank_lawful (sortBy : String) (sortOrder : SortOrder) :
    Std.TransCmp (columns.rank sortBy sortOrder) := columns.lawful sortBy sortOrder

def holds (log : AuditLog) : AuditCondition → Bool
  | .userId userId => log.userId = userId
  | .createdFrom startDate => columns.instant startDate ≤ log.createdAt.time
  | .createdUntil endDate => log.createdAt.time ≤ columns.instant endDate
  | .eventType eventType => log.eventType = eventType
  | .portfolioId portfolioId => log.portfolioId = some portfolioId
  | .userAction userAction => log.userAction = userAction

def selected (table : List AuditLog) (query : AuditQuery) : List AuditLog :=
  table.filter fun log => query.conditions.all (columns.holds log)

/-- The rows may be what the database answers to the query. -/
def Answers (table : List AuditLog) (query : AuditQuery) (rows : List AuditLog) : Prop :=
  ∃ sorted, Arrangement (columns.rank query.sortBy query.sortOrder)
    (columns.selected table query) sorted ∧ rows = (sorted.drop query.skip).take query.take

/-- A database over a table, free in every choice that ORDER BY leaves it. -/
structure Consistent (table : List AuditLog)
    (getManyAndCount : AuditQuery → List AuditLog × Nat) : Prop where
  rows : ∀ query, columns.Answers table query (getManyAndCount query).1
  count : ∀ query, (getManyAndCount query).2 = (columns.selected table query).length

/-- The entries a filter asks for: the user's own, between the dates, with the given values. -/
def matching (table : List AuditLog) (filter : AuditLogFilter) (userId : String) :
    List AuditLog :=
  table.filter fun log => decide (log.userId = userId ∧
    (∀ date ∈ given filter.startDate, columns.instant date ≤ log.createdAt.time) ∧
    (∀ date ∈ given filter.endDate, log.createdAt.time ≤ columns.instant date) ∧
    (∀ text ∈ given filter.eventType, log.eventType = text) ∧
    (∀ text ∈ given filter.portfolioId, log.portfolioId = some text) ∧
    ∀ text ∈ given filter.userAction, log.userAction = text)

theorem selected_matching (table : List AuditLog) (filter : AuditLogFilter) (userId : String) :
    columns.selected table (buildQuery filter userId) = columns.matching table filter userId := by
  have optional (value : Option String) (condition : String → AuditCondition) (log : AuditLog) :
      ((value.map condition).toList).all (columns.holds log) = true ↔
        ∀ text ∈ value, columns.holds log (condition text) = true := by
    cases value <;> simp
  apply List.filter_congr
  intro log _
  rw [Bool.eq_iff_iff]
  simp only [buildQuery, List.all_cons, List.all_append, Bool.and_eq_true, optional, holds,
    decide_eq_true_eq]
  tauto

end AuditColumns

/-- The filter of another page. -/
def AuditLogFilter.atPage (filter : AuditLogFilter) (index : Nat) : AuditLogFilter :=
  { filter with page := index + 1, page_min := by omega }

section Pages
variable {columns : AuditColumns} {table : List AuditLog} {filter : AuditLogFilter}
  {userId : String}

theorem findAll_total {getManyAndCount : AuditQuery → List AuditLog × Nat}
    (consistent : columns.Consistent table getManyAndCount) :
    (findAll getManyAndCount filter userId).pageMeta.totalPages =
      ((columns.matching table filter userId).length + filter.limit - 1) / filter.limit := by
  rw [← columns.selected_matching, ← consistent.count]
  rfl

/- A page is a slice of some arrangement of the entries that match. -/
theorem findAll_slice {getManyAndCount : AuditQuery → List AuditLog × Nat}
    (consistent : columns.Consistent table getManyAndCount) (index : Nat) :
    ∃ sorted, Arrangement (columns.rank filter.sortBy filter.sortOrder)
        (columns.matching table filter userId) sorted ∧
      (findAll getManyAndCount (filter.atPage index) userId).data =
        (sliceAt filter.limit index sorted).map mapToDto := by
  obtain ⟨sorted, arranged, rows⟩ := consistent.rows (buildQuery (filter.atPage index) userId)
  rw [columns.selected_matching] at arranged
  refine ⟨sorted, arranged, ?_⟩
  calc (findAll getManyAndCount (filter.atPage index) userId).data
    _ = (getManyAndCount (buildQuery (filter.atPage index) userId)).1.map mapToDto := rfl
    _ = (sliceAt filter.limit index sorted).map mapToDto := by rw [rows]; rfl

/- Any slices of arrangements are pages that some databases give. -/
theorem findAll_of_sliced {slices : Nat → List AuditLog}
    (sliced : Sliced (columns.rank filter.sortBy filter.sortOrder)
      (columns.matching table filter userId) filter.limit slices) :
    ∃ databases : Nat → AuditQuery → List AuditLog × Nat,
      (∀ index, columns.Consistent table (databases index)) ∧
      ∀ index, (findAll (databases index) (filter.atPage index) userId).data =
        (slices index).map mapToDto := by
  choose sorted arranged cut using sliced
  let plain (query : AuditQuery) : List AuditLog :=
    stableSort (columns.rank query.sortBy query.sortOrder) (columns.selected table query)
  let chosen (index : Nat) (query : AuditQuery) : List AuditLog :=
    if query = buildQuery (filter.atPage index) userId then sorted index else plain query
  refine ⟨fun index query => (((chosen index query).drop query.skip).take query.take,
    (columns.selected table query).length), ?_, ?_⟩
  · refine fun index => ⟨fun query => ⟨chosen index query, ?_, rfl⟩, fun query => rfl⟩
    dsimp only [chosen]
    split
    · rename_i own
      rw [own, columns.selected_matching]
      exact arranged index
    · exact stableSort_arrangement _
  · intro index
    rw [cut index]
    simp only [findAll, createOffsetPaginatedResponse, chosen, if_true]
    rfl

theorem matching_ids (unique : (table.map AuditLog.id).Nodup) :
    ((columns.matching table filter userId).map AuditLog.id).Nodup :=
  unique.sublist (List.filter_sublist.map _)

theorem pages_rows (unique : (table.map AuditLog.id).Nodup) {rows : List AuditLog}
    (inside : ∀ log ∈ rows, log ∈ columns.matching table filter userId)
    (same : (rows.map mapToDto).Perm ((columns.matching table filter userId).map mapToDto)) :
    rows.Perm (columns.matching table filter userId) := by
  have ids := same.map AuditLogEntryDto.id
  rw [List.map_map, List.map_map] at ids
  exact perm_of_keys (matching_ids unique) inside ids

/-- The pages of a filter hold each of the entries that match it once, however the database
    breaks ties for each of them, exactly when no tie reaches across the end of a page. -/
theorem audit_pages_together_iff (unique : (table.map AuditLog.id).Nodup) :
    (∀ databases : Nat → AuditQuery → List AuditLog × Nat,
      (∀ index, columns.Consistent table (databases index)) →
      ((List.range (findAll (databases 0) filter userId).pageMeta.totalPages).flatMap fun index =>
        (findAll (databases index) (filter.atPage index) userId).data).Perm
        ((columns.matching table filter userId).map mapToDto)) ↔
      ∀ index, CleanCut (columns.rank filter.sortBy filter.sortOrder)
        (columns.matching table filter userId) (index * filter.limit) := by
  have apart : (columns.matching table filter userId).Nodup :=
    List.Nodup.of_map AuditLog.id (matching_ids unique)
  have enough := @total_le_totalPages (columns.matching table filter userId).length filter.limit
    filter.limit_min
  rw [← slices_together_iff apart filter.limit_min enough]
  constructor
  · intro together slices sliced
    obtain ⟨databases, consistent, pages⟩ := findAll_of_sliced sliced
    have whole := together databases consistent
    rw [findAll_total (consistent 0), List.flatMap_congr fun index _ => pages index,
      ← List.map_flatMap] at whole
    apply pages_rows unique ?_ whole
    intro log member
    obtain ⟨index, _, inPage⟩ := List.mem_flatMap.mp member
    obtain ⟨sorted, arranged, cut⟩ := sliced index
    rw [cut] at inPage
    exact arranged.same.subset (List.mem_of_mem_drop (List.mem_of_mem_take inPage))
  · intro together databases consistent
    choose sorted arranged pages using fun index =>
      @findAll_slice columns table filter userId _ (consistent index) index
    have whole := together (fun index => sliceAt filter.limit index (sorted index))
      fun index => ⟨sorted index, arranged index, rfl⟩
    rw [findAll_total (consistent 0), List.flatMap_congr fun index _ => pages index,
      ← List.map_flatMap]
    exact whole.map mapToDto

end Pages

/-- Entries by the date of their making, whatever column is asked for. -/
def byDate : AuditColumns where
  instant _ := 0
  rank _ sortOrder a b :=
    match sortOrder with
    | .asc => compare a.createdAt.time b.createdAt.time
    | .desc => compare b.createdAt.time a.createdAt.time
  lawful _ sortOrder := by
    have forwards : Std.TransCmp fun a b : Int => compare a b := inferInstance
    have backwards : Std.TransCmp fun a b : Int => compare b a := Std.TransCmp.opposite
    cases sortOrder with
    | asc => exact @Seeking.lawful_through _ _ _ forwards fun log : AuditLog => log.createdAt.time
    | desc => exact @Seeking.lawful_through _ _ _ backwards fun log : AuditLog => log.createdAt.time

def entryAt (id : String) (createdAt : Date) : AuditLog :=
  ⟨id, "alice", "LOGIN", none, "login", .null, "127.0.0.1", "curl", "", none, createdAt⟩

/-- Two entries of one millisecond. -/
def tiedEntries : List AuditLog := [entryAt "log-1" .epoch, entryAt "log-2" .epoch]

/-- On pages of one entry each, one of them may be seen twice and the other not at all. -/
theorem tied_entries_missed :
    ¬ ∀ databases : Nat → AuditQuery → List AuditLog × Nat,
      (∀ index, byDate.Consistent tiedEntries (databases index)) →
      ((List.range (findAll (databases 0) { limit := 1 } "alice").pageMeta.totalPages).flatMap
        fun index => (findAll (databases index) (AuditLogFilter.atPage { limit := 1 } index)
          "alice").data).Perm
        ((byDate.matching tiedEntries { limit := 1 } "alice").map mapToDto) := by
  intro together
  have clean := (audit_pages_together_iff (by decide)).mp together 1
  exact absurd clean (by decide +kernel)

/-- An export of some page holds all entries that match its filter exactly when there are none,
    or when it is the first page and they are no more than the limit. -/
theorem export_complete_iff {columns : AuditColumns} {table : List AuditLog}
    {getMany : AuditQuery → List AuditLog}
    (answers : ∀ query, columns.Answers table query (getMany query)) (filter : AuditLogFilter)
    (userId : String) :
    (exportedLogs getMany filter userId).Perm
        ((columns.matching table filter userId).map mapToDto) ↔
      columns.matching table filter userId = [] ∨
        filter.page = 1 ∧ (columns.matching table filter userId).length ≤ exportLimit := by
  obtain ⟨sorted, arranged, rows⟩ := answers (buildQuery
    { filter with limit := exportLimit, limit_min := by decide } userId)
  have matched : columns.selected table (buildQuery
      { filter with limit := exportLimit, limit_min := by decide } userId) =
      columns.matching table filter userId := columns.selected_matching table _ userId
  rw [matched] at arranged
  have size := arranged.same.length_eq
  have exported : exportedLogs getMany filter userId =
      (sliceAt exportLimit (filter.page - 1) sorted).map mapToDto := by
    rw [exportedLogs, rows]
    rfl
  rw [exported, sliceAt]
  constructor
  · intro whole
    have lengths := whole.length_eq
    simp only [List.length_map, List.length_take, List.length_drop, exportLimit] at lengths ⊢
    have first := filter.page_min
    by_cases none : (columns.matching table filter userId).length = 0
    · exact .inl (List.length_eq_zero_iff.mp none)
    · exact .inr (by omega)
  · rintro (none | ⟨first, few⟩)
    · rw [none] at size ⊢
      simp [List.length_eq_zero_iff.mp size]
    · rw [first, Nat.sub_self, Nat.zero_mul, List.drop_zero, List.take_of_length_le (by omega)]
      exact arranged.same.map mapToDto

/-- Both entries are exported. -/
theorem tied_entries_exported :
    (exportedLogs (fun query => ((stableSort (byDate.rank query.sortBy query.sortOrder)
        (byDate.selected tiedEntries query)).drop query.skip).take query.take) {} "alice").Perm
      ((byDate.matching tiedEntries {} "alice").map mapToDto) :=
  (export_complete_iff (fun query => ⟨_, stableSort_arrangement _, rfl⟩) {} "alice").mpr
    (.inr (by decide +kernel))

end AstraPort.Audit
