import AstraPort.Foundation.Seeking
import Mathlib.Data.List.Nodup

/- Reading a table in slices of one length, each cut from an arrangement of its own. The rank
   that the arrangements follow may tie rows, and tied rows may stand in any order each time. -/
namespace AstraPort.Slicing
open Seeking
variable {Row : Type} {rank : Row → Row → Ordering} {table xs ys : List Row} {limit : Nat}

/-- The rows up to a place are the same in every arrangement: those tied with each other stand
    on one side of it. -/
def CleanCut (rank : Row → Row → Ordering) (table : List Row) (place : Nat) : Prop :=
  ∀ row ∈ table, placesUpTo rank table row ≤ place ∨ place ≤ placesBefore rank table row

instance (place : Nat) : Decidable (CleanCut rank table place) :=
  inferInstanceAs (Decidable (∀ row ∈ table, _))

/-- An arrangement of the table. -/
structure Arrangement (rank : Row → Row → Ordering) (table rows : List Row) : Prop where
  same : rows.Perm table
  sorted : Sorted rank rows

def sliceAt (limit index : Nat) (rows : List Row) : List Row := (rows.drop (index * limit)).take limit

/-- Every slice comes from some arrangement. -/
def Sliced (rank : Row → Row → Ordering) (table : List Row) (limit : Nat)
    (slices : Nat → List Row) : Prop :=
  ∀ index, ∃ rows, Arrangement rank table rows ∧ slices index = sliceAt limit index rows

section Places

theorem mem_take_split {row : Row} {place : Nat} (member : row ∈ xs.take place) :
    ∃ front back, xs = front ++ row :: back ∧ front.length < place := by
  obtain ⟨front, back, taken⟩ := List.append_of_mem member
  refine ⟨front, back ++ xs.drop place, ?_, ?_⟩
  · calc xs
      _ = xs.take place ++ xs.drop place := (List.take_append_drop place xs).symm
      _ = front ++ row :: (back ++ xs.drop place) := by simp [taken]
  · have bound := congrArg List.length taken
    simp only [List.length_take, List.length_append, List.length_cons] at bound
    omega

theorem mem_drop_split {row : Row} {place : Nat} (member : row ∈ xs.drop place) :
    ∃ front back, xs = front ++ row :: back ∧ place ≤ front.length := by
  obtain ⟨front, back, dropped⟩ := List.append_of_mem member
  refine ⟨xs.take place ++ front, back, ?_, ?_⟩
  · calc xs
      _ = xs.take place ++ xs.drop place := (List.take_append_drop place xs).symm
      _ = xs.take place ++ front ++ row :: back := by simp [dropped]
  · have bound := congrArg List.length dropped
    simp only [List.length_drop, List.length_append, List.length_cons] at bound
    simp only [List.length_append, List.length_take]
    omega

variable [Std.TransCmp rank]

theorem Arrangement.placed {front back : List Row} {row : Row}
    (arranged : Arrangement rank table (front ++ row :: back)) :
    placesBefore rank table row ≤ front.length ∧ front.length < placesUpTo rank table row := by
  apply arranged.sorted.last_placed
  simpa using arranged.same

/- A clean cut takes the rows whose ties end before it. -/
theorem Arrangement.take_eq (arranged : Arrangement rank table xs) {place : Nat}
    (clean : CleanCut rank table place) :
    xs.take place = xs.filter fun row => placesUpTo rank table row ≤ place := by
  have front : ∀ row ∈ xs.take place, placesUpTo rank table row ≤ place := by
    intro row member
    obtain ⟨before, after, rfl, inside⟩ := mem_take_split member
    have placed := arranged.placed
    have own : row ∈ table := arranged.same.subset (by simp)
    obtain ended | begins := clean row own
    · exact ended
    · omega
  have back : ∀ row ∈ xs.drop place, ¬ placesUpTo rank table row ≤ place := by
    intro row member
    obtain ⟨before, after, rfl, outside⟩ := mem_drop_split member
    have placed := arranged.placed
    omega
  calc xs.take place
    _ = (xs.take place).filter (fun row => placesUpTo rank table row ≤ place) ++
          (xs.drop place).filter (fun row => placesUpTo rank table row ≤ place) := by
      rw [List.filter_eq_self.mpr (by simpa using front),
        List.filter_eq_nil_iff.mpr (by simpa using back), List.append_nil]
    _ = xs.filter fun row => placesUpTo rank table row ≤ place := by
      rw [← List.filter_append, List.take_append_drop]

theorem take_perm (one : Arrangement rank table xs) (other : Arrangement rank table ys) {place : Nat}
    (clean : CleanCut rank table place) : (xs.take place).Perm (ys.take place) := by
  rw [one.take_eq clean, other.take_eq clean]
  exact (one.same.trans other.same.symm).filter _

theorem take_succ (rows : List Row) (index : Nat) :
    rows.take ((index + 1) * limit) = rows.take (index * limit) ++ sliceAt limit index rows := by
  rw [Nat.succ_mul, List.take_add, sliceAt]

/- Between two clean cuts all arrangements have the same rows. -/
theorem slice_perm (one : Arrangement rank table xs) (other : Arrangement rank table ys) {index : Nat}
    (begins : CleanCut rank table (index * limit))
    (ends : CleanCut rank table ((index + 1) * limit)) :
    (sliceAt limit index xs).Perm (sliceAt limit index ys) := by
  have whole := take_perm one other ends
  rw [take_succ, take_succ] at whole
  have joined := ((take_perm one other begins).symm.append_right _).trans whole
  exact (List.perm_append_left_iff _).mp joined

theorem stableSort_arrangement (table : List Row) : Arrangement rank table (stableSort rank table) :=
  ⟨stableSort_perm rank table, sorted_stableSort table⟩

end Places

/- Rows of a table in which a key occurs once, found again by their keys. -/
theorem perm_of_keys {Key : Type} {key : Row → Key} (unique : (table.map key).Nodup)
    (inside : ∀ row ∈ xs, row ∈ table) (same : (xs.map key).Perm (table.map key)) :
    xs.Perm table := by
  have once : xs.Nodup := List.Nodup.of_map key (same.nodup_iff.mpr unique)
  apply (List.perm_ext_iff_of_nodup once (List.Nodup.of_map key unique)).mpr
  intro row
  constructor
  · exact inside row
  · intro own
    obtain ⟨other, member, agrees⟩ := List.mem_map.mp
      (same.symm.subset (List.mem_map_of_mem own))
    rwa [← List.inj_on_of_nodup_map unique (inside other member) own agrees]

section Slices
variable [Std.TransCmp rank] {slices : Nat → List Row}

theorem slices_perm (sliced : Sliced rank table limit slices)
    (clean : ∀ index, CleanCut rank table (index * limit)) (count : Nat) :
    ((List.range count).flatMap slices).Perm ((stableSort rank table).take (count * limit)) := by
  induction count with
  | zero => simp
  | succ count ih =>
    obtain ⟨rows, arranged, cut⟩ := sliced count
    rw [List.range_succ, List.flatMap_append, take_succ]
    apply ih.append
    rw [List.flatMap_singleton, cut]
    exact slice_perm arranged (stableSort_arrangement table) (clean count) (clean (count + 1))

/- Where rows are tied across a place, they may change sides there. -/
theorem swapped_of_tied {place : Nat} (tied : ¬ CleanCut rank table place) :
    ∃ front x y back, Arrangement rank table (front ++ x :: y :: back) ∧
      Arrangement rank table (front ++ y :: x :: back) ∧ front.length + 1 = place := by
  obtain ⟨row, own, straddles⟩ : ∃ row ∈ table, ¬ (placesUpTo rank table row ≤ place ∨
      place ≤ placesBefore rank table row) := by simpa [CleanCut] using tied
  have arranged := @stableSort_arrangement _ rank _ table
  have inside : place < (stableSort rank table).length := by
    have bound : placesUpTo rank table row ≤ table.length := List.countP_le_length
    have size := arranged.same.length_eq
    omega
  obtain ⟨front, rows, split, size⟩ : ∃ front rows, stableSort rank table = front ++ rows ∧
      front.length + 1 = place :=
    ⟨(stableSort rank table).take (place - 1), _, (List.take_append_drop _ _).symm, by
      rw [List.length_take]
      omega⟩
  rw [split] at arranged inside
  rw [List.length_append] at inside
  obtain _ | ⟨x, _ | ⟨y, back⟩⟩ := rows
  · simp only [List.length_nil] at inside
    omega
  · simp only [List.length_cons, List.length_nil] at inside
    omega
  · have ofX : rank x row = .eq := by
      have whole : (front ++ [x] ++ y :: back).Perm table := by simpa using arranged.same
      exact arranged.sorted.tied_at_last whole (by omega) (by omega)
    have ofY : rank y row = .eq := by
      have later : Sorted rank ((front ++ [x]) ++ y :: back) := by simpa using arranged.sorted
      have whole : (front ++ [x] ++ [y] ++ back).Perm table := by simpa using arranged.same
      apply later.tied_at_last whole
      all_goals
        rw [List.length_append, List.length_singleton]
        omega
    have turned : rank y x ≠ .gt := by
      have equal : rank y x = .eq := Std.TransCmp.eq_trans ofY (Std.OrientedCmp.eq_comm.mp ofX)
      simp [equal]
    refine ⟨front, x, y, back, arranged, ⟨?_, ?_⟩, size⟩
    · exact ((List.Perm.swap x y back).append_left front).trans arranged.same
    · obtain ⟨before, after, across⟩ := List.pairwise_append.mp arranged.sorted
      obtain ⟨fromX, afterX⟩ := List.pairwise_cons.mp after
      obtain ⟨fromY, rest⟩ := List.pairwise_cons.mp afterX
      refine List.pairwise_append.mpr ⟨before, ?_, ?_⟩
      · refine List.pairwise_cons.mpr ⟨?_, List.pairwise_cons.mpr ⟨?_, rest⟩⟩
        · intro b member
          obtain rfl | behind := List.mem_cons.mp member
          · exact turned
          · exact fromY b behind
        · exact fun b member => fromX b (List.mem_cons_of_mem _ member)
      · intro a inFront b member
        apply across a inFront b
        simp only [List.mem_cons] at member ⊢
        tauto

/- The slices before and behind a place where tied rows change sides share a row. -/
theorem shared_of_tied (positive : 1 ≤ limit) {index : Nat}
    (tied : ¬ CleanCut rank table (index * limit)) :
    ∃ slices, Sliced rank table limit slices ∧ 1 ≤ index ∧ index * limit < table.length ∧
      ∃ x, x ∈ slices (index - 1) ∧ x ∈ slices index := by
  obtain ⟨front, x, y, back, one, other, size⟩ := swapped_of_tied tied
  have later : 1 ≤ index := by
    rcases index with _ | index
    · omega
    · omega
  have short : index * limit < table.length := by
    have total := one.same.length_eq
    simp only [List.length_append, List.length_cons] at total
    omega
  refine ⟨fun i => sliceAt limit i (if i = index then front ++ y :: x :: back
    else front ++ x :: y :: back), ?_, later, short, x, ?_, ?_⟩
  · intro i
    refine ⟨_, ?_, rfl⟩
    split
    · exact other
    · exact one
  · have last : (front ++ x :: y :: back)[front.length]? = some x := by simp
    have before : index * limit = (index - 1) * limit + limit := by
      rw [← Nat.succ_mul]
      congr 1
      omega
    dsimp only
    rw [if_neg (by omega), sliceAt]
    apply List.mem_of_getElem? (i := limit - 1)
    rw [List.getElem?_take_of_lt (by omega), List.getElem?_drop, ← last]
    congr 1
    omega
  · have first : (front ++ y :: x :: back)[front.length + 1]? = some x := by
      rw [List.getElem?_append_right (by omega)]
      simp
    dsimp only
    rw [if_pos rfl, sliceAt]
    apply List.mem_of_getElem? (i := 0)
    rw [List.getElem?_take_of_lt (by omega), List.getElem?_drop, ← first, size]
    rfl

/-- Slices hold every row of a table without repetitions once, however ties are broken for each
    of them, if and only if no tie reaches across the end of a slice. -/
theorem slices_together_iff (apart : table.Nodup) (positive : 1 ≤ limit) {count : Nat}
    (enough : table.length ≤ count * limit) :
    (∀ slices, Sliced rank table limit slices →
      ((List.range count).flatMap slices).Perm table) ↔
      ∀ index, CleanCut rank table (index * limit) := by
  constructor
  · intro together index
    by_contra tied
    obtain ⟨slices, sliced, later, short, x, before, behind⟩ := shared_of_tied positive tied
    have once : ((List.range count).flatMap slices).Nodup :=
      (together slices sliced).nodup_iff.mpr apart
    have inside : index < count := by
      by_contra outside
      have bound : count * limit ≤ index * limit := Nat.mul_le_mul_right limit (by omega)
      omega
    have disjoint := List.pairwise_iff_getElem.mp (List.nodup_flatMap.mp once).2 (index - 1) index
      (by rw [List.length_range]; omega) (by rwa [List.length_range]) (by omega)
    simp only [List.getElem_range] at disjoint
    exact disjoint before behind
  · intro clean slices sliced
    have whole := slices_perm sliced clean count
    have size := (stableSort_perm rank table).length_eq
    rw [List.take_of_length_le (by omega)] at whole
    exact whole.trans (stableSort_perm rank table)

end Slices
end AstraPort.Slicing
