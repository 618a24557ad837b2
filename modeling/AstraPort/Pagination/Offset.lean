import AstraPort.Foundation.Sorting

/- Offset pagination: the query of a page and what is told about it beside its rows. -/
namespace AstraPort.Pagination

inductive SortOrder where
  | asc
  | desc
  deriving DecidableEq

/-- PaginationQueryDto; pages are counted from one and no page is empty by its limit. -/
structure PaginationQuery where
  page : Option Nat
  limit : Option Nat
  sortBy : Option String
  sortOrder : Option SortOrder
  page_min : ∀ n ∈ page, 1 ≤ n
  limit_min : ∀ n ∈ limit, 1 ≤ n

structure PaginationMeta where
  total : Nat
  page : Nat
  limit : Nat
  totalPages : Nat
  hasNext : Bool
  hasPrevious : Bool
  deriving DecidableEq

structure OffsetPage (Row : Type) where
  data : List Row
  pageMeta : PaginationMeta
  deriving DecidableEq

def defaultPageSize : Nat := 10

/-- Math.ceil(total / limit) pages. -/
def buildPaginationMeta (total page limit : Nat) : PaginationMeta :=
  let totalPages := (total + limit - 1) / limit
  { total := total, page := page, limit := limit, totalPages := totalPages,
    hasNext := decide (page < totalPages), hasPrevious := decide (1 < page) }

def createOffsetPaginatedResponse {Row : Type} (data : List Row) (total page limit : Nat) :
    OffsetPage Row := ⟨data, buildPaginationMeta total page limit⟩

end AstraPort.Pagination
