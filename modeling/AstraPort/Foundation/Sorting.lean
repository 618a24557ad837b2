import Mathlib.Data.List.Sort
import Mathlib.Data.Int.Init

/- Array.prototype.sort and slice. Sorting is stable; the comparison of texts is the
   host's, a consistent one. -/
namespace AstraPort
variable {Element : Type}

/-- The sign of a.localeCompare(b), for one locale. -/
structure Collation where
  compare : String → String → Ordering
  lawful : Std.TransCmp compare

/-- sort with a comparison: elements it calls equal stay in their order. -/
def stableSort (compare : Element → Element → Ordering) (elements : List Element) : List Element :=
  elements.insertionSort fun a b => (compare a b).isLE

theorem stableSort_perm (compare : Element → Element → Ordering) (elements : List Element) :
    (stableSort compare elements).Perm elements := List.perm_insertionSort _ elements

theorem stableSort_sorted (compare : Element → Element → Ordering) [Std.TransCmp compare]
    (elements : List Element) :
    (stableSort compare elements).Pairwise fun a b => (compare a b).isLE = true := by
  let r : Element → Element → Prop := fun a b => (compare a b).isLE = true
  have total : Std.Total r := ⟨fun a b => by
    have turned : compare b a = (compare a b).swap := Std.OrientedCmp.eq_swap
    cases comparison : compare a b <;> simp [r, turned, comparison]⟩
  have transitive : IsTrans Element r :=
    ⟨fun a b c first second => Std.TransCmp.isLE_trans first second⟩
  exact List.pairwise_insertionSort r elements

section Replacing
variable {compare : Element → Element → Ordering} {old new : Element}

/- Inserting an element treats two alike that compare with it alike. -/
theorem orderedInsert_replaced (front back : List Element) {x : Element}
    (same : compare x new = compare x old) : ∃ front' back',
    (front ++ old :: back).orderedInsert (fun a b => (compare a b).isLE) x =
      front' ++ old :: back' ∧
    (front ++ new :: back).orderedInsert (fun a b => (compare a b).isLE) x =
      front' ++ new :: back' := by
  induction front with
  | nil =>
    simp only [List.nil_append, List.orderedInsert_cons, same]
    split
    · exact ⟨[x], back, rfl, rfl⟩
    · exact ⟨[], _, rfl, rfl⟩
  | cons y front ih =>
    obtain ⟨front', back', first, second⟩ := ih
    simp only [List.cons_append, List.orderedInsert_cons]
    split
    · exact ⟨x :: y :: front, back, rfl, rfl⟩
    · exact ⟨y :: front', back', by rw [first]; rfl, by rw [second]; rfl⟩

theorem orderedInsert_alike {elements : List Element}
    (same : ∀ other ∈ elements, compare new other = compare old other) : ∃ front back,
    elements.orderedInsert (fun a b => (compare a b).isLE) old = front ++ old :: back ∧
    elements.orderedInsert (fun a b => (compare a b).isLE) new = front ++ new :: back := by
  induction elements with
  | nil => exact ⟨[], [], rfl, rfl⟩
  | cons y elements ih =>
    obtain ⟨front, back, first, second⟩ := ih fun other member =>
      same other (List.mem_cons_of_mem _ member)
    simp only [List.orderedInsert_cons, same y List.mem_cons_self]
    split
    · exact ⟨[], y :: elements, rfl, rfl⟩
    · exact ⟨y :: front, back, by rw [first]; rfl, by rw [second]; rfl⟩

/- An element that compares with all others as its replacement does is sorted to the same
   place. -/
theorem stableSort_replaced {before after : List Element}
    (same : ∀ other ∈ before ++ after, compare new other = compare old other ∧
      compare other new = compare other old) : ∃ front back,
    stableSort compare (before ++ old :: after) = front ++ old :: back ∧
    stableSort compare (before ++ new :: after) = front ++ new :: back := by
  induction before with
  | nil =>
    exact orderedInsert_alike fun other member =>
      (same other ((stableSort_perm compare after).subset member)).1
  | cons x before ih =>
    obtain ⟨front, back, first, second⟩ := ih fun other member =>
      same other (List.mem_cons_of_mem _ member)
    obtain ⟨front', back', first', second'⟩ :=
      orderedInsert_replaced front back (same x List.mem_cons_self).2
    simp only [stableSort] at first second
    refine ⟨front', back', ?_, ?_⟩
    · rw [stableSort, List.cons_append, List.insertionSort_cons, first, first']
    · rw [stableSort, List.cons_append, List.insertionSort_cons, second, second']

end Replacing

/-- slice with both ends; negative ones count from the end. -/
def slice (start stop : Int) (elements : List Element) : List Element :=
  let clamp (i : Int) : Nat :=
    if i < 0 then (elements.length + i).toNat else min i.toNat elements.length
  (elements.take (clamp stop)).drop (clamp start)

end AstraPort
