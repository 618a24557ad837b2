import AstraPort.Foundation.JsString
import AstraPort.Foundation.Sorting

/- The order of an object's own properties, and properties sorted by their keys. A list in
   the first of these orders is known from its members alone. -/
namespace AstraPort
variable {Value : Type}

/-- The number whose decimal the key is, when it is an array index. -/
def arrayIndex (key : JsString) : Option Nat :=
  let n := key.foldl (fun n u => n * 10 + (u.toNat - 48)) 0
  if (Nat.toDigits 10 n).flatMap codeUnits = key ∧ n < 4294967295 then some n else none

/-- Object.keys(…).sort() with the values along: by code units. -/
def sortKeys (members : List (JsString × Value)) : List (JsString × Value) :=
  stableSort (fun a b => compare a.1 b.1) members

/-- Object.fromEntries for distinct keys: array indices come first and ascend, other keys
    stand as they were made. -/
def ownOrder (members : List (JsString × Value)) : List (JsString × Value) :=
  stableSort (fun a b => compare (arrayIndex a.1) (arrayIndex b.1))
    (members.filter fun m => (arrayIndex m.1).isSome) ++
  members.filter fun m => (arrayIndex m.1).isNone

/-- Which of two keys comes first once they were sorted and made an object of. -/
def KeyBefore (a b : JsString) : Prop :=
  match arrayIndex a, arrayIndex b with
  | some m, some n => m < n
  | some _, none => True
  | none, some _ => False
  | none, none => compare a b = .lt

def Arranged (members : List (JsString × Value)) : Prop :=
  members.Pairwise fun a b => KeyBefore a.1 b.1

/-- Which of two different keys of an object its own order lists first; two keys that are no
    array indices may stand either way. -/
def ownBefore (a b : JsString) : Bool :=
  match arrayIndex b with
  | none => true
  | some n => (arrayIndex a).any fun m => decide (m < n)

def InOwnOrder (members : List (JsString × Value)) : Prop :=
  members.Pairwise fun a b => ownBefore a.1 b.1 = true

instance InOwnOrder.decidable (members : List (JsString × Value)) : Decidable (InOwnOrder members) :=
  inferInstanceAs (Decidable (members.Pairwise fun a b => ownBefore a.1 b.1 = true))

def DistinctKeys (members : List (JsString × Value)) : Prop := (members.map Prod.fst).Nodup

theorem arrayIndex_some {key : JsString} {n : Nat} (index : arrayIndex key = some n) :
    (Nat.toDigits 10 n).flatMap codeUnits = key := by
  unfold arrayIndex at index
  dsimp only at index
  split at index
  · rename_i canonical
    cases index
    exact canonical.1
  · cases index

theorem arrayIndex_inj {a b : JsString} {n : Nat} (left : arrayIndex a = some n)
    (right : arrayIndex b = some n) : a = b := by
  rw [← arrayIndex_some left, arrayIndex_some right]

theorem keyBefore_asymm {a b : JsString} (first : KeyBefore a b) : ¬ KeyBefore b a := by
  intro second
  unfold KeyBefore at first second
  cases indexA : arrayIndex a <;> cases indexB : arrayIndex b <;> rw [indexA, indexB] at first second
  · have turned : compare b a = (compare a b).swap := Std.OrientedOrd.eq_swap
    rw [turned, first] at second
    cases second
  · exact first
  · exact second
  · exact Nat.lt_asymm first second

section Orders
variable {members : List (JsString × Value)}

theorem sortKeys_perm (members : List (JsString × Value)) : (sortKeys members).Perm members :=
  stableSort_perm _ members

theorem ownOrder_perm (members : List (JsString × Value)) : (ownOrder members).Perm members := by
  have indices := stableSort_perm (fun a b => compare (arrayIndex a.1) (arrayIndex b.1))
    (members.filter fun m => (arrayIndex m.1).isSome)
  have others : (members.filter fun m => (arrayIndex m.1).isNone) =
      members.filter fun m => !(arrayIndex m.1).isSome := by simp
  rw [ownOrder, others]
  exact (indices.append_right _).trans (List.filter_append_perm _ members)

theorem distinct_perm {others : List (JsString × Value)} (perm : others.Perm members)
    (distinct : DistinctKeys members) : DistinctKeys others :=
  (perm.map Prod.fst).nodup_iff.mpr distinct

theorem distinct_pairwise (distinct : DistinctKeys members) :
    members.Pairwise fun a b => a.1 ≠ b.1 := List.pairwise_map.mp distinct

theorem distinct_value (distinct : DistinctKeys members) {key : JsString} {v w : Value}
    (first : (key, v) ∈ members) (second : (key, w) ∈ members) : v = w :=
  congrArg Prod.snd (List.inj_on_of_nodup_map distinct first second rfl)

/- Sorting keys that differ leaves each strictly below the next. -/
theorem sortKeys_sorted (distinct : DistinctKeys members) :
    (sortKeys members).Pairwise fun a b => compare a.1 b.1 = .lt := by
  have lawful : Std.TransCmp fun a b : JsString × Value => compare a.1 b.1 :=
    inferInstanceAs (Std.TransCmp (compareOn Prod.fst))
  have sorted := stableSort_sorted (fun a b : JsString × Value => compare a.1 b.1) members
  have apart := distinct_pairwise (distinct_perm (sortKeys_perm members) distinct)
  apply (sorted.and apart).imp
  intro a b both
  obtain ⟨le, ne⟩ := both
  cases order : compare a.1 b.1 with
  | lt => rfl
  | eq => exact absurd (Std.LawfulEqCmp.eq_of_compare order) ne
  | gt =>
    rw [order] at le
    cases le

/- Among array indices, the order of their numbers. -/
theorem indices_arranged (distinct : DistinctKeys members) :
    Arranged (stableSort (fun a b => compare (arrayIndex a.1) (arrayIndex b.1))
      (members.filter fun m => (arrayIndex m.1).isSome)) := by
  have lawful : Std.TransCmp fun a b : JsString × Value =>
      compare (arrayIndex a.1) (arrayIndex b.1) :=
    inferInstanceAs (Std.TransCmp (compareOn fun m : JsString × Value => arrayIndex m.1))
  have perm := stableSort_perm (fun a b => compare (arrayIndex a.1) (arrayIndex b.1))
    (members.filter fun m => (arrayIndex m.1).isSome)
  have sorted := stableSort_sorted (fun a b => compare (arrayIndex a.1) (arrayIndex b.1))
    (members.filter fun m => (arrayIndex m.1).isSome)
  have kept : DistinctKeys (members.filter fun m => (arrayIndex m.1).isSome) :=
    (List.filter_sublist.map Prod.fst).nodup distinct
  have apart := distinct_pairwise (distinct_perm perm kept)
  apply (sorted.and apart).imp_of_mem
  intro a b first second both
  obtain ⟨le, ne⟩ := both
  obtain ⟨m, indexA⟩ := Option.isSome_iff_exists.mp (List.mem_filter.mp (perm.subset first)).2
  obtain ⟨n, indexB⟩ := Option.isSome_iff_exists.mp (List.mem_filter.mp (perm.subset second)).2
  have differ : m ≠ n := by
    rintro rfl
    exact ne (arrayIndex_inj indexA indexB)
  rw [indexA, indexB] at le
  have below : m ≤ n := Nat.isLE_compare.mp le
  rw [KeyBefore, indexA, indexB]
  exact Nat.lt_of_le_of_ne below differ

theorem ownOrder_arranged (distinct : DistinctKeys members)
    (sorted : members.Pairwise fun a b => compare a.1 b.1 = .lt) : Arranged (ownOrder members) := by
  refine List.pairwise_append.mpr ⟨indices_arranged distinct, ?_, ?_⟩
  · apply (sorted.filter _).imp_of_mem
    intro a b first second lt
    have noIndexA := Option.isNone_iff_eq_none.mp (List.mem_filter.mp first).2
    have noIndexB := Option.isNone_iff_eq_none.mp (List.mem_filter.mp second).2
    rw [KeyBefore, noIndexA, noIndexB]
    exact lt
  · intro a first b second
    obtain ⟨m, indexA⟩ := Option.isSome_iff_exists.mp
      (List.mem_filter.mp ((stableSort_perm _ _).subset first)).2
    have noIndexB := Option.isNone_iff_eq_none.mp (List.mem_filter.mp second).2
    rw [KeyBefore, indexA, noIndexB]
    trivial

/- An object lists what was written into it in its own order. -/
theorem ownOrder_inOwnOrder (distinct : DistinctKeys members) : InOwnOrder (ownOrder members) := by
  refine List.pairwise_append.mpr ⟨?_, ?_, ?_⟩
  · apply (indices_arranged distinct).imp_of_mem
    intro a b first second before
    obtain ⟨m, indexA⟩ := Option.isSome_iff_exists.mp
      (List.mem_filter.mp ((stableSort_perm _ _).subset first)).2
    obtain ⟨n, indexB⟩ := Option.isSome_iff_exists.mp
      (List.mem_filter.mp ((stableSort_perm _ _).subset second)).2
    rw [KeyBefore, indexA, indexB] at before
    rw [ownBefore, indexB, indexA]
    exact decide_eq_true before
  · apply List.pairwise_of_forall_mem_list
    intro a _ b second
    have noIndexB := Option.isNone_iff_eq_none.mp (List.mem_filter.mp second).2
    rw [ownBefore, noIndexB]
  · intro a _ b second
    have noIndexB := Option.isNone_iff_eq_none.mp (List.mem_filter.mp second).2
    rw [ownBefore, noIndexB]

/- Array indices stand in front of all other keys, so the order splits there. -/
theorem filter_inOwnOrder (ordered : InOwnOrder members) :
    (members.filter fun m => (arrayIndex m.1).isSome) ++
      (members.filter fun m => (arrayIndex m.1).isNone) = members := by
  induction members with
  | nil => rfl
  | cons m rest ih =>
    obtain ⟨before, ordered⟩ := List.pairwise_cons.mp ordered
    cases index : arrayIndex m.1 with
    | some n => simp [index, ih ordered]
    | none =>
      have others : ∀ other ∈ rest, arrayIndex other.1 = none := by
        intro other member
        have later := before other member
        cases number : arrayIndex other.1 with
        | none => rfl
        | some n =>
          rw [ownBefore, number, index] at later
          cases later
      have no_indices : rest.filter (fun m => (arrayIndex m.1).isSome) = [] := by
        rw [List.filter_eq_nil_iff]
        intro other member
        simp [others other member]
      have all_others : rest.filter (fun m => (arrayIndex m.1).isNone) = rest := by
        rw [List.filter_eq_self]
        intro other member
        simp [others other member]
      simp [index, no_indices, all_others]

/- Writing members in their own order makes the same object again. -/
theorem ownOrder_eq_self (ordered : InOwnOrder members) : ownOrder members = members := by
  have sorted : stableSort (fun a b => compare (arrayIndex a.1) (arrayIndex b.1))
      (members.filter fun m => (arrayIndex m.1).isSome) =
      members.filter fun m => (arrayIndex m.1).isSome := by
    apply List.Pairwise.insertionSort_eq
    apply (ordered.filter _).imp_of_mem
    intro a b first second before
    obtain ⟨m, indexA⟩ := Option.isSome_iff_exists.mp (List.mem_filter.mp first).2
    obtain ⟨n, indexB⟩ := Option.isSome_iff_exists.mp (List.mem_filter.mp second).2
    rw [ownBefore, indexB, indexA] at before
    simp only [indexA, indexB]
    exact Nat.isLE_compare.mpr (Nat.le_of_lt (of_decide_eq_true before))
  rw [ownOrder, sorted, filter_inOwnOrder ordered]

/-- Members in the order they get: sorted, then made an object of. -/
theorem sorted_own_arranged (distinct : DistinctKeys members) :
    Arranged (ownOrder (sortKeys members)) :=
  ownOrder_arranged (distinct_perm (sortKeys_perm members) distinct) (sortKeys_sorted distinct)

theorem mem_sorted_own {m : JsString × Value} : m ∈ ownOrder (sortKeys members) ↔ m ∈ members :=
  ((ownOrder_perm _).trans (sortKeys_perm members)).mem_iff

/- Leaving members out and changing values keeps the order. -/
theorem arranged_filterMap {Other : Type} (arranged : Arranged members)
    (f : JsString × Value → Option (JsString × Other))
    (keeps : ∀ m n, f m = some n → n.1 = m.1) : Arranged (members.filterMap f) := by
  refine List.Pairwise.filterMap f ?_ arranged
  intro m m' before n shown n' shown'
  rw [keeps m n shown, keeps m' n' shown']
  exact before

/- Two arranged lists with the same members are the same list. -/
theorem arranged_ext {others : List (JsString × Value)} (arranged : Arranged members)
    (arranged' : Arranged others) (same : ∀ m, m ∈ members ↔ m ∈ others) : members = others := by
  have once {list : List (JsString × Value)} (ordered : Arranged list) : list.Nodup := by
    apply ordered.imp
    rintro a b before rfl
    exact keyBefore_asymm before before
  have perm := (List.perm_ext_iff_of_nodup (once arranged) (once arranged')).mpr same
  refine perm.eq_of_pairwise ?_ arranged arranged'
  intro a b _ _ before after
  exact absurd after (keyBefore_asymm before)

end Orders
end AstraPort
