import AstraPort.Foundation.InsertionMap

/- Least-recently-used caches over insertion-ordered maps: the order of the map is the order
   of use, so the first entry is the one to go. -/
namespace AstraPort
namespace InsertionMap
variable {Key Value : Type} [DecidableEq Key]

/-- Writes a key as the newest, whether it was there or not. -/
def touch (m : InsertionMap Key Value) (k : Key) (v : Value) : InsertionMap Key Value :=
  (m.delete k).set k v

omit [DecidableEq Key] in
theorem ext_entries {m n : InsertionMap Key Value} (same : m.entries = n.entries) : m = n := by
  cases m
  cases n
  simpa using same

theorem key_of_get (m : InsertionMap Key Value) {k : Key} {v : Value}
    (found : m.get k = some v) : k ∈ m.keys := by
  by_contra absent
  rw [(get_none_iff m).mpr absent] at found
  cases found

/-- The map without its first entry. -/
def dropFirst (m : InsertionMap Key Value) : InsertionMap Key Value :=
  ⟨m.entries.tail, m.distinct.sublist ((List.tail_sublist m.entries).map Prod.fst)⟩

theorem set_absent {m : InsertionMap Key Value} {k : Key} (v : Value) (absent : k ∉ m.keys) :
    (m.set k v).entries = m.entries ++ [(k, v)] := by simp only [set, absent, ↓reduceDIte]

theorem set_present {m : InsertionMap Key Value} {k : Key} (v : Value) (present : k ∈ m.keys) :
    (m.set k v).entries = m.entries.map (overwrite k v) := by
  simp only [set, present, ↓reduceDIte]

theorem touch_entries (m : InsertionMap Key Value) (k : Key) (v : Value) :
    (m.touch k v).entries = m.entries.filter (fun e => decide (e.1 ≠ k)) ++ [(k, v)] := by
  have absent : k ∉ (m.delete k).keys := (get_none_iff _).mp (get_delete_self m k)
  rw [touch, set_absent v absent]
  rfl

theorem get_touch_ne (m : InsertionMap Key Value) {k other : Key} (v : Value) (ne : other ≠ k) :
    (m.touch k v).get other = m.get other := by
  rw [touch, get_set_ne _ _ ne, get_delete_ne m ne]

theorem touch_size_le (m : InsertionMap Key Value) (k : Key) (v : Value) :
    (m.touch k v).size ≤ m.size + 1 := by
  have kept := List.length_filter_le (fun e : Key × Value => decide (e.1 ≠ k)) m.entries
  simp only [size, touch_entries, List.length_append, List.length_singleton]
  omega

theorem touch_size_present {m : InsertionMap Key Value} {k : Key} (v : Value)
    (present : k ∈ m.keys) : (m.touch k v).size ≤ m.size := by
  obtain ⟨e, member, rfl⟩ := List.mem_map.mp present
  have fewer : (m.entries.filter fun other => decide (other.1 ≠ e.1)).length < m.entries.length :=
    List.length_filter_lt_length_iff_exists.mpr ⟨e, member, by simp⟩
  simp only [size, touch_entries, List.length_append, List.length_singleton]
  omega

/- A write in place makes a key the newest exactly when it is new or newest already. -/
theorem set_eq_touch_iff (m : InsertionMap Key Value) (k : Key) (v : Value) :
    m.set k v = m.touch k v ↔ k ∉ m.keys ∨ m.keys.getLast? = some k := by
  by_cases present : k ∈ m.keys
  · simp only [present, not_true_eq_false, false_or]
    constructor
    · intro same
      have keys := congrArg (fun n : InsertionMap Key Value => (n.entries.map Prod.fst).getLast?) same
      simp only [set_present v present, overwrite_keys, touch_entries] at keys
      exact keys.trans (by simp)
    · intro newest
      obtain ⟨front, split⟩ := List.getLast?_eq_some_iff.mp newest
      obtain ⟨entries, last, joined, fronts, lasts⟩ := List.map_eq_append_iff.mp split
      obtain ⟨⟨key, old⟩, rfl, same⟩ := List.map_eq_singleton_iff.mp lasts
      obtain rfl : key = k := same
      have distinct := m.distinct
      rw [joined, List.map_append, List.nodup_append] at distinct
      have others : ∀ e ∈ entries, e.1 ≠ key := fun e member =>
        distinct.2.2 e.1 (List.mem_map_of_mem member) key (by simp)
      apply ext_entries
      rw [set_present v present, touch_entries, joined, List.map_append, List.filter_append]
      have kept : entries.filter (fun e => decide (e.1 ≠ key)) = entries :=
        List.filter_eq_self.mpr fun e member => by simpa using others e member
      have written : entries.map (overwrite key v) = entries :=
        (List.map_congr_left fun e member => by simp [overwrite, others e member]).trans
          (List.map_id _)
      rw [kept, written]
      simp [overwrite]
  · simp only [present, not_false_eq_true, true_or, iff_true]
    rw [touch, delete_absent m ((get_none_iff m).mpr present)]

/- A write that drops the first entry makes a present key the newest without loss exactly
   when that entry was its own. -/
theorem dropFirst_set_eq_touch_iff {m : InsertionMap Key Value} {k : Key} (v : Value)
    (present : k ∈ m.keys) :
    m.dropFirst.set k v = m.touch k v ↔ m.keys.head? = some k := by
  obtain ⟨entries, distinct⟩ := m
  cases entries with
  | nil => simp [keys] at present
  | cons first rest =>
    have fresh : first.1 ∉ rest.map Prod.fst := (List.nodup_cons.mp distinct).1
    have head : (keys ⟨first :: rest, distinct⟩).head? = some first.1 := rfl
    rw [head, Option.some.injEq]
    constructor
    · intro same
      by_contra ne
      have kept := get_touch_ne ⟨first :: rest, distinct⟩ v ne
      rw [← same, get_set_ne _ _ ne] at kept
      have gone : (dropFirst ⟨first :: rest, distinct⟩).get first.1 = none :=
        (get_none_iff _).mpr fresh
      rw [gone] at kept
      exact (get_none_iff _).mp kept.symm (by simp [keys])
    · rintro rfl
      apply ext_entries
      have appended : ((dropFirst ⟨first :: rest, distinct⟩).set first.1 v).entries =
          rest ++ [(first.1, v)] := set_absent v fresh
      rw [appended, touch_entries]
      have kept : rest.filter (fun e => decide (e.1 ≠ first.1)) = rest :=
        List.filter_eq_self.mpr fun e member => by
          simpa using fun same : e.1 = first.1 => fresh (same ▸ List.mem_map_of_mem member)
      rw [List.filter_cons_of_neg (by simp), kept]

end InsertionMap

/-- A cache of bounded size, its entries from the least to the most recently used. -/
structure Lru (Key Value : Type) where
  capacity : Nat
  positive : 0 < capacity
  store : InsertionMap Key Value
  bounded : store.size ≤ capacity

namespace Lru
variable {Key Value : Type} [DecidableEq Key]

omit [DecidableEq Key] in
def blank (capacity : Nat) (positive : 0 < capacity) : Lru Key Value :=
  ⟨capacity, positive, InsertionMap.empty, Nat.zero_le _⟩

/-- A hit makes its key the most recently used. -/
def get (cache : Lru Key Value) (k : Key) : Lru Key Value × Option Value :=
  match found : cache.store.get k with
  | none => (cache, none)
  | some v =>
    ({ cache with
       store := cache.store.touch k v
       bounded := Nat.le_trans
         (InsertionMap.touch_size_present v (cache.store.key_of_get found)) cache.bounded },
     some v)

/-- Only a new key takes a place, the least recently used one's when there is no other. -/
def room (cache : Lru Key Value) (k : Key) : InsertionMap Key Value :=
  if k ∈ cache.store.keys ∨ cache.store.size < cache.capacity then cache.store
  else cache.store.dropFirst

theorem room_bounded (cache : Lru Key Value) (k : Key) (v : Value) :
    ((cache.room k).touch k v).size ≤ cache.capacity := by
  unfold room
  split
  · rename_i fits
    rcases fits with present | space
    · exact Nat.le_trans (InsertionMap.touch_size_present v present) cache.bounded
    · exact Nat.le_trans (InsertionMap.touch_size_le cache.store k v) space
  · have dropped : cache.store.dropFirst.size = cache.store.size - 1 := List.length_tail
    have size := InsertionMap.touch_size_le cache.store.dropFirst k v
    have bounded := cache.bounded
    have positive := cache.positive
    omega

def set (cache : Lru Key Value) (k : Key) (v : Value) : Lru Key Value :=
  { cache with store := (cache.room k).touch k v, bounded := cache.room_bounded k v }

def remove (cache : Lru Key Value) (k : Key) : Lru Key Value :=
  { cache with
    store := cache.store.delete k
    bounded := Nat.le_trans (List.length_filter_le _ _) cache.bounded }

/- What a lookup leaves and answers. -/
theorem get_spec (cache : Lru Key Value) (k : Key) :
    (cache.get k).1.store = ((cache.store.get k).map (cache.store.touch k)).getD cache.store ∧
      (cache.get k).1.capacity = cache.capacity ∧ (cache.get k).2 = cache.store.get k := by
  unfold get
  split <;> rename_i found <;> exact ⟨by simp [found], rfl, found.symm⟩

end Lru
end AstraPort
