import AstraPort.Pagination.Offset

/- The offset pages of a list. Cut from the same rows they put them together again, and what is
   told about a page says where it stands. Pages are counted from one, their indices from zero. -/
namespace AstraPort.Pagination
variable {Row : Type}

/-- The page at an index, of rows that are all at hand. -/
def offsetPage (rows : List Row) (limit index : Nat) : OffsetPage Row :=
  createOffsetPaginatedResponse ((rows.drop (index * limit)).take limit) rows.length (index + 1)
    limit

/-- The pages hold the rows, each once and in their order, and the metadata of each is right. -/
structure Partition (rows : List Row) (limit : Nat) (pageAt : Nat → OffsetPage Row) : Prop where
  together : ∀ index, ((List.range (pageAt index).pageMeta.totalPages).flatMap fun i =>
    (pageAt i).data) = rows
  numbered : ∀ index, (pageAt index).pageMeta.page = index + 1
  total : ∀ index, (pageAt index).pageMeta.total = rows.length
  full : ∀ index, index + 1 < (pageAt index).pageMeta.totalPages →
    (pageAt index).data.length = limit
  next : ∀ index, (pageAt index).pageMeta.hasNext = true ↔ (pageAt (index + 1)).data ≠ []
  previous : ∀ index, (pageAt index).pageMeta.hasPrevious = true ↔ 1 < index + 1
  beyond : ∀ index, (pageAt index).pageMeta.totalPages < index + 1 → (pageAt index).data = []

section Slices

theorem slice_page (rows : List Row) (start limit : Nat) :
    slice start ((start : Int) + limit) rows = (rows.drop start).take limit := by
  have not_negative (n : Nat) : ¬ (n : Int) < 0 := by omega
  have stop : (start : Int) + limit = ((start + limit : Nat) : Int) := by push_cast; rfl
  rw [slice, stop]
  simp only [not_negative, if_false, Int.toNat_natCast]
  rw [List.take_drop, ← List.take_eq_take_min]
  by_cases inside : start ≤ rows.length
  · rw [min_eq_left inside]
  · rw [min_eq_right (by omega), List.drop_of_length_le, List.drop_of_length_le]
    all_goals
      rw [List.length_take]
      omega

/- Consecutive slices of one length. -/
theorem flatMap_pages (rows : List Row) (limit count : Nat) :
    ((List.range count).flatMap fun index => (rows.drop (index * limit)).take limit) =
      rows.take (count * limit) := by
  induction count with
  | zero => simp
  | succ count ih =>
    rw [List.range_succ, List.flatMap_append, ih, Nat.succ_mul, List.take_add]
    simp

end Slices

section Meta
variable {total limit : Nat}

/- A page index is below Math.ceil(total / limit) when rows are left at its start. -/
theorem lt_totalPages_iff (positive : 1 ≤ limit) (index : Nat) :
    index < (total + limit - 1) / limit ↔ index * limit < total := by
  rw [Nat.lt_iff_add_one_le, Nat.le_div_iff_mul_le (by omega), Nat.succ_mul]
  omega

theorem total_le_totalPages (positive : 1 ≤ limit) :
    total ≤ (total + limit - 1) / limit * limit := by
  have last : ¬ (total + limit - 1) / limit * limit < total :=
    (lt_totalPages_iff positive ((total + limit - 1) / limit)).not.mp (lt_irrefl _)
  exact not_lt.mp last

end Meta

theorem offsetPage_empty_iff (rows : List Row) {limit : Nat} (positive : 1 ≤ limit) (index : Nat) :
    (offsetPage rows limit index).data = [] ↔
      ¬ index < (offsetPage rows limit index).pageMeta.totalPages := by
  simp only [offsetPage, createOffsetPaginatedResponse, buildPaginationMeta,
    lt_totalPages_iff positive, List.take_eq_nil_iff, List.drop_eq_nil_iff]
  omega

/- The pages of any rows partition them. -/
theorem offsetPage_partition (rows : List Row) {limit : Nat} (positive : 1 ≤ limit) :
    Partition rows limit (offsetPage rows limit) where
  together index := by
    simp only [offsetPage, createOffsetPaginatedResponse, buildPaginationMeta, flatMap_pages]
    exact List.take_of_length_le (total_le_totalPages positive)
  numbered index := rfl
  total index := rfl
  full index before_last := by
    simp only [offsetPage, createOffsetPaginatedResponse, buildPaginationMeta] at before_last ⊢
    rw [lt_totalPages_iff positive, Nat.succ_mul] at before_last
    rw [List.length_take, List.length_drop]
    omega
  next index := by
    rw [Ne, offsetPage_empty_iff rows positive, not_not]
    exact decide_eq_true_iff
  previous index := decide_eq_true_iff
  beyond index past_last := by
    rw [offsetPage_empty_iff rows positive]
    omega

end AstraPort.Pagination
