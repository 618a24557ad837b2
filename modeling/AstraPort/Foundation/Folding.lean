import AstraPort.Foundation.InsertionMap

/- Lists of writes: each to a place of its own, where what is written stands at the end, and to
   the keys of a map, where the newest write of a key stands. -/
namespace AstraPort

section Folding
variable {State Write Place : Type} {write : State → Write → State} {place : Write → Place}
  {Stands : State → Write → Prop}

/-- A write to one place leaves what stands at every other. -/
structure WritesApart (write : State → Write → State) (place : Write → Place)
    (Stands : State → Write → Prop) : Prop where
  written : ∀ s w, Stands (write s w) w
  kept : ∀ s w w', place w' ≠ place w → Stands s w → Stands (write s w') w

theorem WritesApart.stands_after (apart : WritesApart write place Stands) {s : State} {w : Write}
    (stands : Stands s w) {writes : List Write} (elsewhere : place w ∉ writes.map place) :
    Stands (writes.foldl write s) w := by
  induction writes generalizing s with
  | nil => exact stands
  | cons w' writes ih =>
    rw [List.map_cons, List.mem_cons, not_or] at elsewhere
    exact ih (apart.kept s w w' (Ne.symm elsewhere.1) stands) elsewhere.2

theorem WritesApart.stands (apart : WritesApart write place Stands) {writes : List Write}
    (distinct : (writes.map place).Nodup) (s : State) :
    ∀ w ∈ writes, Stands (writes.foldl write s) w := by
  induction writes generalizing s with
  | nil => simp
  | cons w writes ih =>
    rw [List.map_cons, List.nodup_cons] at distinct
    rw [List.forall_mem_cons]
    exact ⟨apart.stands_after (apart.written s w) distinct.1, ih distinct.2 (write s w)⟩

end Folding

namespace InsertionMap
variable {Write Key Value : Type} [DecidableEq Key] {key : Write → Key} {value : Write → Value}

/- A map after writes has of every key what was written to it last. -/
theorem get_writes (writes : List Write) (m : InsertionMap Key Value) (k : Key) :
    (writes.foldl (fun m w => m.set (key w) (value w)) m).get k =
      ((writes.reverse.find? fun w => key w = k).map value).or (m.get k) := by
  induction writes generalizing m with
  | nil => rfl
  | cons w writes ih =>
    rw [List.foldl_cons, ih, get_set, List.reverse_cons, List.find?_append, List.find?_singleton]
    cases writes.reverse.find? fun w => key w = k with
    | some w' => rfl
    | none =>
      by_cases same : key w = k
      · simp [same]
      · simp [same, Ne.symm same]

/- The entries of a map, changed and written into another: they stand before what was there. -/
theorem get_copied {Image : Type} (m : InsertionMap Key Value) (f : Value → Image)
    (base : InsertionMap Key Image) (k : Key) :
    (m.entries.foldl (fun image e => image.set e.1 (f e.2)) base).get k =
      ((m.get k).map f).or (base.get k) := by
  rw [get_writes]
  cases found : m.entries.reverse.find? fun e => e.1 = k with
  | none =>
    have absent : m.get k = none := by
      rw [get_none_iff, keys]
      intro inside
      obtain ⟨e, member, same⟩ := List.mem_map.mp inside
      have differ := List.find?_eq_none.mp found e (List.mem_reverse.mpr member)
      exact differ (by simpa using same)
    rw [absent]
    rfl
  | some e =>
    have same : e.1 = k := by simpa using List.find?_some found
    have member : (k, e.2) ∈ m.entries := same ▸ List.mem_reverse.mp (List.mem_of_find?_eq_some found)
    rw [(get_iff_mem m).mpr member]
    rfl

end InsertionMap
end AstraPort
