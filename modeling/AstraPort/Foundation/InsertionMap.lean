import Mathlib.Data.List.Nodup
import Mathlib.Algebra.BigOperators.Group.List.Basic

/- Finite maps whose keys keep the order of their first insertion, after the
   ECMAScript Map: writing a present key keeps its place, a new key goes last.
   No two entries share a key, by construction. -/
namespace AstraPort

structure InsertionMap (Key Value : Type) where
  entries : List (Key × Value)
  distinct : (entries.map Prod.fst).Nodup

namespace InsertionMap
variable {Key Value Total : Type} [DecidableEq Key]

def empty : InsertionMap Key Value := ⟨[], List.nodup_nil⟩

def get (m : InsertionMap Key Value) (k : Key) : Option Value := m.entries.lookup k

def keys (m : InsertionMap Key Value) : List Key := m.entries.map Prod.fst

def values (m : InsertionMap Key Value) : List Value := m.entries.map Prod.snd

def size (m : InsertionMap Key Value) : Nat := m.entries.length

def overwrite (k : Key) (v : Value) (e : Key × Value) : Key × Value := if e.1 = k then (k, v) else e

theorem overwrite_key (k : Key) (v : Value) (e : Key × Value) : (overwrite k v e).1 = e.1 := by
  unfold overwrite
  split <;> simp_all

theorem overwrite_keys (k : Key) (v : Value) (es : List (Key × Value)) :
    (es.map (overwrite k v)).map Prod.fst = es.map Prod.fst := by
  simp [List.map_map, Function.comp_def, overwrite_key]

def set (m : InsertionMap Key Value) (k : Key) (v : Value) : InsertionMap Key Value :=
  if present : k ∈ m.keys then ⟨m.entries.map (overwrite k v), by
    rw [overwrite_keys]; exact m.distinct⟩
  else ⟨m.entries ++ [(k, v)], by
    rw [List.map_append, List.map_singleton]
    exact m.distinct.append (List.nodup_singleton k) (by simpa [keys] using present)⟩

/-- Deletion of every entry a test rejects, as a loop over the live map does it. -/
def keep (m : InsertionMap Key Value) (p : Key → Value → Bool) : InsertionMap Key Value :=
  ⟨m.entries.filter fun e => p e.1 e.2, m.distinct.sublist (List.filter_sublist.map _)⟩

def delete (m : InsertionMap Key Value) (k : Key) : InsertionMap Key Value :=
  m.keep fun other _ => decide (other ≠ k)

theorem lookup_mem {es : List (Key × Value)} (distinct : (es.map Prod.fst).Nodup)
    {k : Key} {v : Value} : es.lookup k = some v ↔ (k, v) ∈ es := by
  induction es with
  | nil => simp
  | cons e es ih =>
    obtain ⟨key, value⟩ := e
    simp only [List.map_cons, List.nodup_cons] at distinct
    by_cases same : k = key
    · subst key
      have absent : (k, v) ∉ es := fun member =>
        distinct.1 (List.mem_map_of_mem (f := Prod.fst) member)
      simp [absent, eq_comm]
    · have unequal : (k == key) = false := by simpa using same
      simp [List.lookup_cons, unequal, ih distinct.2, same]

theorem get_iff_mem (m : InsertionMap Key Value) {k : Key} {v : Value} :
    m.get k = some v ↔ (k, v) ∈ m.entries := lookup_mem m.distinct

theorem mem_values (m : InsertionMap Key Value) {v : Value} :
    v ∈ m.values ↔ ∃ k, m.get k = some v := by
  simp only [values, List.mem_map, get_iff_mem]
  exact ⟨fun ⟨e, member, eq⟩ => ⟨e.1, eq ▸ member⟩, fun ⟨k, member⟩ => ⟨(k, v), member, rfl⟩⟩

theorem get_none_iff (m : InsertionMap Key Value) {k : Key} : m.get k = none ↔ k ∉ m.keys := by
  simp only [get, keys, List.lookup_eq_none_iff, List.mem_map, not_exists, not_and]
  constructor
  · intro none e member eq
    have := none e member
    simp [eq] at this
  · intro absent e member
    have := absent e member
    simpa using fun eq : k = e.1 => this eq.symm

theorem get_ext {a b : Option Value} (same : ∀ v, a = some v ↔ b = some v) : a = b :=
  Option.ext same

@[simp] theorem get_empty (k : Key) : (empty : InsertionMap Key Value).get k = none := rfl

theorem set_entries_iff (m : InsertionMap Key Value) (k : Key) (v : Value) (other : Key)
    (w : Value) : (other, w) ∈ (m.set k v).entries ↔
      (other = k ∧ w = v) ∨ (other ≠ k ∧ (other, w) ∈ m.entries) := by
  unfold set
  split
  · rename_i present
    simp only [List.mem_map]
    constructor
    · rintro ⟨e, member, eq⟩
      unfold overwrite at eq
      split at eq
      · simp only [Prod.mk.injEq] at eq
        exact Or.inl ⟨eq.1.symm, eq.2.symm⟩
      · rename_i ne
        subst eq
        exact Or.inr ⟨ne, member⟩
    · rintro (⟨rfl, rfl⟩ | ⟨ne, member⟩)
      · obtain ⟨e, member, eq⟩ := List.mem_map.mp present
        exact ⟨e, member, by simp [overwrite, eq]⟩
      · exact ⟨(other, w), member, by simp [overwrite, ne]⟩
  · rename_i absent
    simp only [List.mem_append, List.mem_singleton, Prod.mk.injEq]
    constructor
    · rintro (member | eq)
      · refine Or.inr ⟨?_, member⟩
        rintro rfl
        exact absent (List.mem_map_of_mem (f := Prod.fst) member)
      · exact Or.inl eq
    · rintro (eq | ⟨_, member⟩)
      · exact Or.inr eq
      · exact Or.inl member

@[simp] theorem get_set_self (m : InsertionMap Key Value) (k : Key) (v : Value) :
    (m.set k v).get k = some v := by
  rw [get_iff_mem, set_entries_iff]
  simp

@[simp] theorem get_set_ne (m : InsertionMap Key Value) {k other : Key} (v : Value)
    (ne : other ≠ k) : (m.set k v).get other = m.get other := by
  apply get_ext
  intro w
  rw [get_iff_mem, get_iff_mem, set_entries_iff]
  simp [ne]

theorem get_set (m : InsertionMap Key Value) (k other : Key) (v : Value) :
    (m.set k v).get other = if other = k then some v else m.get other := by
  split
  · rename_i same
    rw [same, get_set_self]
  · rename_i ne
    exact get_set_ne m v ne

theorem get_set_cases {m : InsertionMap Key Value} {k other : Key} {v found : Value}
    (held : (m.set k v).get other = some found) :
    (other = k ∧ found = v) ∨ (other ≠ k ∧ m.get other = some found) := by
  rw [get_set] at held
  split at held
  · rename_i same
    exact Or.inl ⟨same, (Option.some.inj held).symm⟩
  · rename_i ne
    exact Or.inr ⟨ne, held⟩

/- What holds of every entry holds of every entry after a write of which it holds. -/
theorem get_set_all {m : InsertionMap Key Value} {k : Key} {v : Value} {good : Key → Value → Prop}
    (own : good k v) (all : ∀ other found, m.get other = some found → good other found) :
    ∀ other found, (m.set k v).get other = some found → good other found := by
  intro other found held
  rcases get_set_cases held with ⟨rfl, rfl⟩ | ⟨_, before⟩
  · exact own
  · exact all other found before

theorem get_loaded_all {Item : Type*} {key : Item → Key} {value : Item → Value}
    {good : Key → Value → Prop} (own : ∀ item, good (key item) (value item)) (items : List Item)
    {m : InsertionMap Key Value} (all : ∀ other found, m.get other = some found → good other found) :
    ∀ other found, (items.foldl (fun m item => m.set (key item) (value item)) m).get other =
      some found → good other found := by
  induction items generalizing m with
  | nil => exact all
  | cons item rest ih => exact ih (get_set_all (own item) all)

theorem get_keep (m : InsertionMap Key Value) (p : Key → Value → Bool) (k : Key) :
    (m.keep p).get k = (m.get k).filter (p k) := by
  apply get_ext
  intro v
  rw [get_iff_mem, Option.filter_eq_some_iff, get_iff_mem]
  simp [keep]

@[simp] theorem get_delete_self (m : InsertionMap Key Value) (k : Key) :
    (m.delete k).get k = none := by
  rw [delete, get_keep]
  cases m.get k <;> simp

@[simp] theorem get_delete_ne (m : InsertionMap Key Value) {k other : Key} (ne : other ≠ k) :
    (m.delete k).get other = m.get other := by
  rw [delete, get_keep]
  cases m.get other <;> simp [ne]

theorem get_cons {es : List (Key × Value)} {e : Key × Value} {k : Key}
    (distinct : ((e :: es).map Prod.fst).Nodup) : (mk (e :: es) distinct).get k =
      if k = e.1 then some e.2 else (mk es (List.nodup_cons.mp distinct).2).get k := by
  unfold get
  rw [List.lookup_cons]
  by_cases same : k = e.1
  · simp [same]
  · have unequal : (k == e.1) = false := by simpa using same
    rw [unequal, if_neg same]

theorem keys_set (m : InsertionMap Key Value) (k : Key) (v : Value) :
    (m.set k v).keys = if k ∈ m.keys then m.keys else m.keys ++ [k] := by
  unfold set
  split
  · exact overwrite_keys k v m.entries
  · rw [keys, List.map_append]
    rfl

/- What is made of the entries is told by the keys and what stands under them. -/
theorem filterMap_entries {Result : Type} (m : InsertionMap Key Value)
    (make : Value → Option Result) :
    m.entries.filterMap (fun e => (make e.2).map fun made => (e.1, made)) =
      m.keys.filterMap fun k => ((m.get k).bind make).map fun made => (k, made) := by
  rw [keys, List.filterMap_map]
  apply List.filterMap_congr
  intro e member
  have found : m.get e.1 = some e.2 := m.get_iff_mem.mpr member
  rw [Function.comp_apply, found, Option.bind_some]

/- The other keys, where the key that is written is known by another name. -/
theorem get_set_others (m : InsertionMap Key Value) (v : Value) {k own : Key} (same : own = k) :
    ∀ other, other ≠ own → (m.set k v).get other = m.get other := by
  subst same
  exact fun other ne => get_set_ne m v ne

theorem get_delete_others (m : InsertionMap Key Value) {k own : Key} (same : own = k) :
    ∀ other, other ≠ own → (m.delete k).get other = m.get other := by
  subst same
  exact fun other ne => get_delete_ne m ne

/- What holds of the value written holds of the one found there. -/
theorem get_set_own {m : InsertionMap Key Value} {v : Value} {k own : Key} (same : own = k)
    {good : Value → Prop} (holds : good v) : ∀ w, (m.set k v).get own = some w → good w := by
  subst same
  intro w found
  rw [get_set_self] at found
  exact Option.some.inj found ▸ holds

theorem get_delete_own {m : InsertionMap Key Value} {k own : Key} (same : own = k)
    {good : Value → Prop} : ∀ w, (m.delete k).get own = some w → good w := by
  subst same
  intro w found
  simp at found

theorem get_of_delete {m : InsertionMap Key Value} {k other : Key} {v : Value}
    (found : (m.delete k).get other = some v) : m.get other = some v := by
  rw [delete, get_keep, Option.filter_eq_some_iff] at found
  exact found.1

theorem get_delete_absent {m : InsertionMap Key Value} {other : Key} (k : Key)
    (absent : m.get other = none) : (m.delete k).get other = none := by
  rw [delete, get_keep, absent]
  rfl

theorem delete_absent (m : InsertionMap Key Value) {k : Key} (absent : m.get k = none) :
    m.delete k = m := by
  have kept : (m.delete k).entries = m.entries := by
    refine List.filter_eq_self.mpr fun e member => ?_
    have ne : e.1 ≠ k := fun same =>
      (get_none_iff m).mp absent (same ▸ List.mem_map_of_mem (f := Prod.fst) member)
    simpa using ne
  cases m
  simpa only [delete, keep, mk.injEq] using kept

/-- Two maps with the same entries, in the same order, under the keys that are shown. -/
def Agree (shown : Key → Bool) (m m' : InsertionMap Key Value) : Prop :=
  (m.entries.filter fun e => shown e.1) = m'.entries.filter fun e => shown e.1

section Agreement
variable {shown : Key → Bool} {m m' : InsertionMap Key Value}

omit [DecidableEq Key] in
theorem Agree.mem (agree : Agree shown m m') {k : Key} {v : Value} (seen : shown k = true) :
    (k, v) ∈ m.entries ↔ (k, v) ∈ m'.entries := by
  have same : (k, v) ∈ (m.entries.filter fun e => shown e.1) ↔
      (k, v) ∈ m'.entries.filter fun e => shown e.1 := by rw [agree]
  simpa [seen] using same

theorem Agree.get (agree : Agree shown m m') {k : Key} (seen : shown k = true) :
    m.get k = m'.get k := by
  apply get_ext
  intro v
  rw [get_iff_mem, get_iff_mem, agree.mem seen]

omit [DecidableEq Key] in
theorem Agree.narrow {fewer : Key → Bool} (agree : Agree shown m m')
    (narrower : ∀ k, fewer k = true → shown k = true) : Agree fewer m m' := by
  have split (n : InsertionMap Key Value) : (n.entries.filter fun e => fewer e.1) =
      (n.entries.filter fun e => shown e.1).filter fun e => fewer e.1 := by
    rw [List.filter_filter]
    refine List.filter_congr fun e _ => ?_
    cases kept : fewer e.1 with
    | false => simp
    | true => simp [narrower _ kept]
  rw [Agree, split m, split m', agree]

theorem filter_overwrite (shown : Key → Bool) (k : Key) (v : Value) (es : List (Key × Value)) :
    ((es.map (overwrite k v)).filter fun e => shown e.1) =
      (es.filter fun e => shown e.1).map (overwrite k v) := by
  rw [List.filter_map]
  congr 1
  exact List.filter_congr fun e _ => by simp [overwrite_key]

/- A write to a key that is not shown. -/
theorem agree_set_hidden (m : InsertionMap Key Value) {k : Key} (v : Value)
    (hidden : shown k = false) : Agree shown (m.set k v) m := by
  unfold Agree set
  split
  · rw [filter_overwrite]
    refine (List.map_congr_left fun e member => ?_).trans (List.map_id _)
    have ne : e.1 ≠ k := by
      rintro rfl
      simp [hidden] at member
    simp [overwrite, ne]
  · simp [List.filter_append, hidden]

theorem Agree.set (agree : Agree shown m m') (k : Key) (v : Value) :
    Agree shown (m.set k v) (m'.set k v) := by
  cases seen : shown k with
  | false =>
    exact (agree_set_hidden m v seen).trans (agree.trans (agree_set_hidden m' v seen).symm)
  | true =>
    have present : k ∈ m.keys ↔ k ∈ m'.keys := by
      rw [← not_iff_not, ← get_none_iff, ← get_none_iff, agree.get seen]
    by_cases found : k ∈ m.keys
    · simp only [Agree, InsertionMap.set, found, present.mp found, ↓reduceDIte]
      rw [filter_overwrite, filter_overwrite, agree]
    · simp only [Agree, InsertionMap.set, found, mt present.mpr found, ↓reduceDIte,
        List.filter_append]
      rw [agree]

/- A deletion that spares what is shown. -/
theorem agree_keep_hidden (m : InsertionMap Key Value) {p : Key → Value → Bool}
    (spared : ∀ k v, m.get k = some v → shown k = true → p k v = true) :
    Agree shown (m.keep p) m := by
  simp only [Agree, keep, List.filter_filter]
  refine List.filter_congr fun e member => ?_
  cases seen : shown e.1 with
  | false => simp
  | true => simp [spared e.1 e.2 ((get_iff_mem m).mpr member) seen]

omit [DecidableEq Key] in
theorem Agree.keep (agree : Agree shown m m') (p : Key → Value → Bool) :
    Agree shown (m.keep p) (m'.keep p) := by
  simp only [Agree, InsertionMap.keep, List.filter_filter]
  simp only [Bool.and_comm (shown _), ← List.filter_filter]
  rw [agree]

/- Values picked by a test that only shown entries pass. -/
theorem Agree.values (agree : Agree shown m m') {q : Value → Bool}
    (covered : ∀ k v, m.get k = some v → q v = true → shown k = true)
    (covered' : ∀ k v, m'.get k = some v → q v = true → shown k = true) :
    m.values.filter q = m'.values.filter q := by
  have picked (n : InsertionMap Key Value)
      (all : ∀ k v, n.get k = some v → q v = true → shown k = true) :
      n.values.filter q =
        ((n.entries.filter fun e => shown e.1).filter fun e => q e.2).map Prod.snd := by
    rw [InsertionMap.values, List.filter_map, List.filter_filter]
    congr 1
    refine List.filter_congr fun e member => ?_
    cases wanted : q e.2 with
    | false => simp [wanted]
    | true => simp [wanted, all e.1 e.2 ((get_iff_mem n).mpr member) wanted]
  rw [picked m covered, picked m' covered', agree]

end Agreement

/- A write under a new key comes last. -/
theorem values_set_fresh (m : InsertionMap Key Value) {k : Key} (v : Value)
    (fresh : m.get k = none) : (m.set k v).values = m.values ++ [v] := by
  have unknown : k ∉ m.keys := (get_none_iff m).mp fresh
  simp [values, set, unknown]

/-- Sums over all entries, and what one write or one deletion changes in them. -/
def total [AddCommMonoid Total] (m : InsertionMap Key Value) (f : Key → Value → Total) : Total :=
  (m.entries.map fun e => f e.1 e.2).sum

theorem sum_overwrite [AddCommMonoid Total] (f : Key → Value → Total)
    {es : List (Key × Value)} (distinct : (es.map Prod.fst).Nodup) {k : Key} {old : Value}
    (v : Value) (member : (k, old) ∈ es) :
    ((es.map (overwrite k v)).map fun e => f e.1 e.2).sum + f k old =
      (es.map fun e => f e.1 e.2).sum + f k v := by
  induction es with
  | nil => simp at member
  | cons e es ih =>
    obtain ⟨key, value⟩ := e
    simp only [List.map_cons, List.nodup_cons] at distinct
    simp only [List.map_cons, List.sum_cons]
    rcases List.mem_cons.mp member with eq | member
    · simp only [Prod.mk.injEq] at eq
      obtain ⟨rfl, rfl⟩ := eq
      have untouched : es.map (overwrite k v) = es := by
        refine (List.map_congr_left ?_).trans (List.map_id es)
        intro e he
        have ne : e.1 ≠ k := fun eq => distinct.1 (eq ▸ List.mem_map_of_mem (f := Prod.fst) he)
        simp [overwrite, ne]
      simp only [overwrite, ↓reduceIte, untouched]
      rw [add_right_comm, add_comm (f k v), add_right_comm, add_comm (f k old)]
    · have ne : key ≠ k := fun eq =>
        distinct.1 (eq ▸ List.mem_map_of_mem (f := Prod.fst) member)
      have rest := ih distinct.2 member
      simp only [overwrite, ne, ↓reduceIte] at rest ⊢
      rw [add_assoc, rest, add_assoc]

theorem total_set_present [AddCommMonoid Total] (m : InsertionMap Key Value)
    (f : Key → Value → Total) {k : Key} {old : Value} (v : Value) (present : m.get k = some old) :
    (m.set k v).total f + f k old = m.total f + f k v := by
  have member := (get_iff_mem m).mp present
  have known : k ∈ m.keys := List.mem_map_of_mem (f := Prod.fst) member
  simp only [total, set, known, ↓reduceDIte]
  exact sum_overwrite f m.distinct v member

theorem total_set_fresh [AddCommMonoid Total] (m : InsertionMap Key Value)
    (f : Key → Value → Total) {k : Key} (v : Value) (fresh : m.get k = none) :
    (m.set k v).total f = m.total f + f k v := by
  have unknown : k ∉ m.keys := (get_none_iff m).mp fresh
  simp [total, set, unknown]

theorem sum_without [AddCommMonoid Total] (f : Key → Value → Total)
    {es : List (Key × Value)} (distinct : (es.map Prod.fst).Nodup) {k : Key} {old : Value}
    (member : (k, old) ∈ es) :
    ((es.filter fun e => decide (e.1 ≠ k)).map fun e => f e.1 e.2).sum + f k old =
      (es.map fun e => f e.1 e.2).sum := by
  induction es with
  | nil => simp at member
  | cons e es ih =>
    obtain ⟨key, value⟩ := e
    simp only [List.map_cons, List.nodup_cons] at distinct
    rcases List.mem_cons.mp member with eq | member
    · simp only [Prod.mk.injEq] at eq
      obtain ⟨rfl, rfl⟩ := eq
      have untouched : (es.filter fun e => decide (e.1 ≠ k)) = es := by
        rw [List.filter_eq_self]
        intro e he
        have ne : e.1 ≠ k := fun eq => distinct.1 (eq ▸ List.mem_map_of_mem (f := Prod.fst) he)
        simpa using ne
      rw [List.filter_cons_of_neg (by simp), untouched, List.map_cons, List.sum_cons, add_comm]
    · have ne : key ≠ k := fun eq =>
        distinct.1 (eq ▸ List.mem_map_of_mem (f := Prod.fst) member)
      have rest := ih distinct.2 member
      simp only [List.filter_cons, ne, ne_eq, not_false_eq_true, decide_true, ↓reduceIte,
        List.map_cons, List.sum_cons] at rest ⊢
      rw [add_assoc, rest]

theorem total_delete [AddCommMonoid Total] (m : InsertionMap Key Value)
    (f : Key → Value → Total) {k : Key} {old : Value} (present : m.get k = some old) :
    (m.delete k).total f + f k old = m.total f :=
  sum_without f m.distinct ((get_iff_mem m).mp present)

end InsertionMap
end AstraPort
