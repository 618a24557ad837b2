import AstraPort.Foundation.Sorting
import Mathlib.Data.List.Pairwise

/- Reading a table in pages, each beginning behind the last row of the page before. Rows
   are sorted by a rank that may tie some of them, and a second comparison tells tied rows
   apart. -/
namespace AstraPort.Seeking
variable {Row : Type} {compare rank tie : Row → Row → Ordering} {table : List Row}

/-- An order the comparison allows: no row stands before a lesser one. -/
def Sorted (compare : Row → Row → Ordering) (rows : List Row) : Prop :=
  rows.Pairwise fun a b => compare a b ≠ .gt

/-- The comparison tells all rows of the table apart. -/
def Apart (compare : Row → Row → Ordering) (table : List Row) : Prop :=
  table.Pairwise fun a b => compare a b ≠ .eq

/-- The rows that a query for what comes behind a row finds. -/
def later (compare : Row → Row → Ordering) (row : Row) (table : List Row) : List Row :=
  table.filter fun b => compare row b = .lt

/-- How many rows every allowed order has in front of all rows tied with this one. -/
def placesBefore (rank : Row → Row → Ordering) (table : List Row) (row : Row) : Nat :=
  table.countP fun b => rank b row = .lt

/-- How many rows stand up to the last one tied with this one. -/
def placesUpTo (rank : Row → Row → Ordering) (table : List Row) (row : Row) : Nat :=
  table.countP fun b => rank b row ≠ .gt

section Orders

/- Rows compared by something read from them. -/
theorem lawful_through {Value : Type} {compare : Value → Value → Ordering} [Std.TransCmp compare]
    (read : Row → Value) : Std.TransCmp fun a b => compare (read a) (read b) where
  eq_swap {a b} := by
    have turned : compare (read a) (read b) = (compare (read b) (read a)).swap :=
      Std.OrientedCmp.eq_swap
    exact turned
  isLE_trans {a b c} first second := by
    have onward : (compare (read a) (read c)).isLE := Std.TransCmp.isLE_trans first second
    exact onward

theorem Sorted.of_compareLex {rows : List Row} (sorted : Sorted (compareLex rank tie) rows) :
    Sorted rank rows :=
  List.Pairwise.imp (fun ordered greater => ordered (Ordering.then_eq_gt.mpr (Or.inl greater)))
    sorted

theorem sorted_stableSort [Std.TransCmp compare] (rows : List Row) :
    Sorted compare (stableSort compare rows) := by
  apply (stableSort_sorted compare rows).imp
  intro a b ordered greater
  rw [greater] at ordered
  cases ordered

variable [Std.TransCmp compare]

theorem Apart.eq_of_eq (apart : Apart compare table) {a b : Row} (inA : a ∈ table) (inB : b ∈ table)
    (same : compare a b = .eq) : a = b := by
  by_contra different
  have symmetric : Std.Symm fun a b : Row => compare a b ≠ .eq :=
    ⟨fun a b unequal => fun equal => unequal (Std.OrientedCmp.eq_comm.mp equal)⟩
  exact List.Pairwise.forall apart inA inB different same

theorem Apart.nodup (apart : Apart compare table) : table.Nodup := by
  refine List.Pairwise.imp (fun {a b} unequal same => ?_) apart
  rw [same] at unequal
  exact unequal Std.ReflCmp.compare_self

theorem Apart.perm {rows : List Row} (apart : Apart compare table) (same : table.Perm rows) :
    Apart compare rows :=
  same.pairwise apart fun unequal equal => unequal (Std.OrientedCmp.eq_comm.mp equal)

/-- Rows told apart have one allowed order only. -/
theorem sorted_unique {xs ys : List Row} (apart : Apart compare table) (sameX : xs.Perm table)
    (sameY : ys.Perm table) (sortedX : Sorted compare xs) (sortedY : Sorted compare ys) :
    xs = ys := by
  refine List.Perm.eq_of_pairwise (fun a b inA inB ab ba => ?_) sortedX sortedY
    (sameX.trans sameY.symm)
  apply apart.eq_of_eq (sameX.subset inA) (sameY.subset inB)
  have turned : compare b a = (compare a b).swap := Std.OrientedCmp.eq_swap
  cases comparison : compare a b with
  | eq => rfl
  | gt => exact absurd comparison ab
  | lt => exact absurd (by rw [turned, comparison]; rfl) ba

/-- In an order of rows told apart, what comes behind a row is what stands behind it. -/
theorem later_split {front back : List Row} {row : Row}
    (apart : Apart compare (front ++ row :: back))
    (sorted : Sorted compare (front ++ row :: back)) :
    later compare row (front ++ row :: back) = back := by
  obtain ⟨-, onward, across⟩ := List.pairwise_append.mp sorted
  obtain ⟨-, onwardApart, -⟩ := List.pairwise_append.mp apart
  have before : ∀ b ∈ front, ¬ compare row b = .lt := by
    intro b member less
    exact across b member row List.mem_cons_self (Std.OrientedCmp.gt_iff_lt.mpr less)
  have behind : ∀ b ∈ back, compare row b = .lt := by
    intro b member
    have ordered := (List.pairwise_cons.mp onward).1 b member
    have unequal := (List.pairwise_cons.mp onwardApart).1 b member
    cases comparison : compare row b with
    | lt => rfl
    | eq => exact absurd comparison unequal
    | gt => exact absurd comparison ordered
  have equal : compare row row = .eq := Std.ReflCmp.compare_self
  have itself : ¬ compare row row = .lt := by simp [equal]
  rw [later, List.filter_append, List.filter_cons,
    List.filter_eq_nil_iff.mpr (by simpa using before),
    List.filter_eq_self.mpr (by simpa using behind), if_neg (by simpa using itself),
    List.nil_append]

end Orders

section FirstPage
variable {front rest : List Row} {last : Row}

/-- Of the rows tied with the last one of a page, those on the page are the ones that the
    second comparison does not call later. -/
def CutByTie (rank tie : Row → Row → Ordering) (table page : List Row) (last : Row) : Prop :=
  ∀ b ∈ table, rank last b = .eq → (b ∈ page ↔ tie last b ≠ .lt)

/-- No two tied rows are on both sides of, or at, the given place. -/
def Untied (rank : Row → Row → Ordering) (table : List Row) (place : Nat) : Prop :=
  ∀ a ∈ table, ∀ b ∈ table, rank a b = .eq → a ≠ b →
    place ≤ placesBefore rank table a ∨ placesUpTo rank table a < place

instance [DecidableEq Row] (place : Nat) : Decidable (Untied rank table place) :=
  inferInstanceAs (Decidable (∀ a ∈ table, ∀ b ∈ table, rank a b = .eq → a ≠ b →
    place ≤ placesBefore rank table a ∨ placesUpTo rank table a < place))

theorem Sorted.behind_last (sorted : Sorted rank (front ++ last :: rest)) {b : Row}
    (member : b ∈ rest) : rank last b ≠ .gt :=
  (List.pairwise_cons.mp (List.pairwise_append.mp sorted).2.1).1 b member

theorem Sorted.not_behind [Std.TransCmp rank] (sorted : Sorted rank (front ++ last :: rest))
    {b : Row} (member : b ∈ front ++ [last]) : rank last b ≠ .lt := by
  intro less
  rcases List.mem_append.mp member with earlier | itself
  · exact (List.pairwise_append.mp sorted).2.2 b earlier last List.mem_cons_self
      (Std.OrientedCmp.gt_iff_lt.mpr less)
  · have equal : rank last last = .eq := Std.ReflCmp.compare_self
    rw [List.mem_singleton.mp itself, equal] at less
    cases less

theorem mem_later {b : Row} : b ∈ later (compareLex rank tie) last table ↔
    b ∈ table ∧ (rank last b = .lt ∨ rank last b = .eq ∧ tie last b = .lt) := by
  simp [later, compareLex, Ordering.then_eq_lt]

/- Rows sorted by rank, the first of them on a page: together with all rows that come behind
   the last one by both comparisons they are the table, each row once, if and only if the
   page cuts the rows tied with its last one as the second comparison does. -/
theorem page_then_later [Std.TransCmp rank] [Std.TransCmp tie] (apart : Apart tie table)
    (same : (front ++ [last] ++ rest).Perm table) (sorted : Sorted rank (front ++ last :: rest)) :
    (front ++ [last] ++ later (compareLex rank tie) last table).Perm table ↔
      CutByTie rank tie table (front ++ [last]) last := by
  have nodup : (front ++ [last] ++ rest).Nodup := same.nodup_iff.mpr apart.nodup
  have member {b : Row} : b ∈ table ↔ b ∈ front ++ [last] ∨ b ∈ rest := by
    rw [← same.mem_iff, List.mem_append]
  have offPage {b : Row} (inTable : b ∈ table) : b ∈ rest ↔ b ∉ front ++ [last] :=
    ⟨fun inRest onPage => List.disjoint_of_nodup_append nodup onPage inRest,
      (member.mp inTable).resolve_left⟩
  have laterNodup : (later (compareLex rank tie) last table).Nodup := apart.nodup.filter _
  rw [← same.congr_right, List.perm_append_left_iff,
    List.perm_ext_iff_of_nodup laterNodup nodup.of_append_right]
  constructor
  · intro agree b inTable tied
    rw [← not_iff_not, ← offPage inTable, ← agree, mem_later]
    simp [inTable, tied]
  · intro cut b
    rw [mem_later]
    constructor
    · rintro ⟨inTable, less | ⟨tied, less⟩⟩
      · exact (offPage inTable).mpr fun onPage => sorted.not_behind onPage less
      · exact (offPage inTable).mpr fun onPage => (cut b inTable tied).mp onPage less
    · intro inRest
      have inTable := member.mpr (Or.inr inRest)
      refine ⟨inTable, ?_⟩
      cases ranked : rank last b with
      | lt => exact Or.inl rfl
      | gt => exact absurd ranked (sorted.behind_last inRest)
      | eq =>
        refine Or.inr ⟨rfl, ?_⟩
        by_contra notLess
        exact (offPage inTable).mp inRest ((cut b inTable ranked).mpr notLess)

theorem countP_front {p : Row → Bool} {front back : List Row} (none : ∀ b ∈ back, p b = false) :
    (front ++ back).countP p ≤ front.length := by
  have nothing : back.countP p = 0 := List.countP_eq_zero.mpr (by simpa using none)
  rw [List.countP_append, nothing]
  exact List.countP_le_length

theorem front_countP {p : Row → Bool} {front back : List Row} (all : ∀ b ∈ front, p b = true) :
    front.length ≤ (front ++ back).countP p := by
  rw [List.countP_append, List.countP_eq_length.mpr all]
  exact Nat.le_add_right _ _

variable [Std.TransCmp rank]

/- The last row of a page takes the last place among those the page covers. -/
theorem Sorted.last_placed (sorted : Sorted rank (front ++ last :: rest))
    (same : (front ++ [last] ++ rest).Perm table) :
    placesBefore rank table last ≤ front.length ∧ front.length < placesUpTo rank table last := by
  have equal : rank last last = .eq := Std.ReflCmp.compare_self
  unfold placesBefore placesUpTo
  rw [← same.countP_eq, ← same.countP_eq]
  constructor
  · rw [List.append_assoc]
    apply countP_front
    intro b member
    rw [List.mem_append, List.mem_singleton] at member
    rcases member with rfl | behind
    · simp [equal]
    · simpa using fun less => sorted.behind_last behind (Std.OrientedCmp.gt_iff_lt.mpr less)
  · have covered : (front ++ [last]).length ≤
        (front ++ [last] ++ rest).countP fun b => rank b last ≠ .gt := by
      apply front_countP
      intro b member
      simpa using fun greater => sorted.not_behind member (Std.OrientedCmp.gt_iff_lt.mp greater)
    rw [List.length_append, List.length_singleton] at covered
    exact covered

/- The rows tied with one whose places go beyond the page's end are tied with its last. -/
theorem Sorted.tied_at_last (sorted : Sorted rank (front ++ last :: rest))
    (same : (front ++ [last] ++ rest).Perm table) {a : Row}
    (before : placesBefore rank table a ≤ front.length)
    (upTo : front.length < placesUpTo rank table a) : rank last a = .eq := by
  unfold placesBefore at before
  unfold placesUpTo at upTo
  rw [← same.countP_eq] at before upTo
  cases ranked : rank last a with
  | eq => rfl
  | lt =>
    have covered : (front ++ [last]).length ≤
        (front ++ [last] ++ rest).countP fun b => rank b a = .lt := by
      apply front_countP
      intro b member
      have ordered : rank b last ≠ .gt := fun greater =>
        sorted.not_behind member (Std.OrientedCmp.gt_iff_lt.mp greater)
      simpa using Std.TransCmp.lt_of_isLE_of_lt (Ordering.isLE_iff_ne_gt.mpr ordered) ranked
    rw [List.length_append, List.length_singleton] at covered
    omega
  | gt =>
    have beyond : (front ++ ([last] ++ rest)).countP (fun b => rank b a ≠ .gt) ≤ front.length := by
      apply countP_front
      intro b member
      have less : rank a last = .lt := Std.OrientedCmp.gt_iff_lt.mp ranked
      rw [List.mem_append, List.mem_singleton] at member
      rcases member with rfl | behind
      · simpa using ranked
      · have lessToo : rank a b = .lt := Std.TransCmp.lt_of_lt_of_isLE less
          (Ordering.isLE_iff_ne_gt.mpr (sorted.behind_last behind))
        simpa using Std.OrientedCmp.gt_iff_lt.mpr lessToo
    rw [List.append_assoc] at upTo
    omega

/- Where no tie reaches across the page's end, its last row is tied with no other. -/
theorem cut_of_untied [Std.TransCmp tie] (sorted : Sorted rank (front ++ last :: rest))
    (same : (front ++ [last] ++ rest).Perm table)
    (untied : Untied rank table (front.length + 1)) :
    CutByTie rank tie table (front ++ [last]) last := by
  intro b inTable tied
  have inLast : last ∈ table := same.subset (by simp)
  obtain ⟨before, upTo⟩ := sorted.last_placed same
  by_cases itself : last = b
  · subst itself
    have equal : tie last last = .eq := Std.ReflCmp.compare_self
    simp [equal]
  · rcases untied last inLast b inTable tied itself with far | near
    · omega
    · omega

/- A database may sort tied rows against the second comparison. A page that ends among them
   is then cut the wrong way. -/
theorem not_cut_of_reversed [Std.TransCmp tie] (apart : Apart tie table)
    (sorted : Sorted (compareLex rank fun a b => tie b a) (front ++ last :: rest))
    (same : (front ++ [last] ++ rest).Perm table) {b : Row} (inTable : b ∈ table)
    (tied : rank last b = .eq) (other : last ≠ b) :
    ¬ CutByTie rank tie table (front ++ [last]) last := by
  intro cut
  have inLast : last ∈ table := same.subset (by simp)
  have nodup : (front ++ [last] ++ rest).Nodup := same.nodup_iff.mpr apart.nodup
  have place : b ∈ front ∨ b ∈ rest := by
    have member := same.symm.subset inTable
    simp only [List.mem_append, List.mem_singleton, Ne.symm other, or_false] at member
    exact member
  rcases place with earlier | behind
  · have turned : rank b last = .eq := Std.OrientedCmp.eq_comm.mp tied
    have ordered := (List.pairwise_append.mp sorted).2.2 b earlier last List.mem_cons_self
    have notLess := (cut b inTable tied).mp (List.mem_append_left _ earlier)
    simp only [compareLex, turned, Ordering.then] at ordered
    cases compared : tie last b with
    | lt => exact notLess compared
    | gt => exact ordered compared
    | eq => exact other (apart.eq_of_eq inLast inTable compared)
  · have ordered := (List.pairwise_cons.mp (List.pairwise_append.mp sorted).2.1).1 b behind
    simp only [compareLex, tied, Ordering.then] at ordered
    have notLess : tie last b ≠ .lt := fun less => ordered (Std.OrientedCmp.gt_iff_lt.mpr less)
    exact List.disjoint_of_nodup_append nodup ((cut b inTable tied).mpr notLess) behind

end FirstPage
end AstraPort.Seeking
