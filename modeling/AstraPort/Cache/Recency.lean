import AstraPort.Foundation.Lru
import AstraPort.Foundation.Machine
import AstraPort.Cache.Backends

/- L1 against a least-recently-used cache of the same capacity. The order of the backend's map
   is meant to be the order of use; reads keep it so, but a write of a present key is made in
   place, and makes room although it needs none. -/
namespace AstraPort.Cache
namespace MemoryCacheBackend
variable {Value : Type}

/-- Like get, with the time the entry has left. -/
def getWithTtl (memory : MemoryCacheBackend Value) (key : String) (now : Nat) :
    MemoryCacheBackend Value × Option (Value × Nat) :=
  match memory.store.get key with
  | none => (memory, none)
  | some entry =>
    let pttlMs : Int := entry.expiresAt - now
    if pttlMs ≤ 0 then ({ memory with store := memory.store.delete key }, none)
    else ({ memory with store := (memory.store.delete key).set key entry },
      some (entry.value, pttlMs.toNat))

end MemoryCacheBackend

inductive MemoryCall (Value : Type) where
  | get (key : String) (now : Nat)
  | getWithTtl (key : String) (now : Nat)
  | set (key : String) (value : Value) (ttlMs now : Nat)
  | del (key : String) (now : Nat)
  deriving DecidableEq

def MemoryCall.now {Value : Type} : MemoryCall Value → Nat
  | .get _ now => now
  | .getWithTtl _ now => now
  | .set _ _ _ now => now
  | .del _ now => now

inductive MemoryAnswer (Value : Type) where
  | got (value : Option Value)
  | gotWithTtl (found : Option (Value × Nat))
  | done
  deriving DecidableEq

section Machines
variable {Value : Type}

def memoryStep (memory : MemoryCacheBackend Value) :
    MemoryCall Value → MemoryCacheBackend Value × MemoryAnswer Value
  | .get key now => ((memory.get key now).1, .got (memory.get key now).2)
  | .getWithTtl key now => ((memory.getWithTtl key now).1, .gotWithTtl (memory.getWithTtl key now).2)
  | .set key value ttlMs now => (memory.set key value ttlMs now, .done)
  | .del key _ => (memory.del key, .done)

def memoryMachine (Value : Type) (maxKeys : Nat) :
    Machine (MemoryCacheBackend Value) (MemoryCall Value) (MemoryAnswer Value) :=
  ⟨⟨maxKeys, InsertionMap.empty⟩, fun memory call => some (memoryStep memory call)⟩

/-- The same calls on a least-recently-used cache of entries. -/
def lruStep (cache : Lru String (CacheEntry Value)) :
    MemoryCall Value → Lru String (CacheEntry Value) × MemoryAnswer Value
  | .get key _ => ((cache.get key).1, .got ((cache.get key).2.map CacheEntry.value))
  | .getWithTtl key now => ((cache.get key).1,
      .gotWithTtl ((cache.get key).2.map fun entry => (entry.value, entry.expiresAt - now)))
  | .set key value ttlMs now => (cache.set key ⟨value, now + ttlMs⟩, .done)
  | .del key _ => (cache.remove key, .done)

def lruMachine (Value : Type) {maxKeys : Nat} (positive : 0 < maxKeys) :
    Machine (Lru String (CacheEntry Value)) (MemoryCall Value) (MemoryAnswer Value) :=
  ⟨Lru.blank maxKeys positive, fun cache call => some (lruStep cache call)⟩

/-- No entry has expired when a call is made. -/
def Unexpired : Machine.Permit (MemoryCacheBackend Value) (MemoryCall Value) (MemoryAnswer Value) :=
  fun _ memory call => ∀ e ∈ memory.store.entries, call.now < e.2.expiresAt

instance (past : List (MemoryCall Value × MemoryAnswer Value)) (memory : MemoryCacheBackend Value)
    (call : MemoryCall Value) : Decidable (Unexpired past memory call) :=
  inferInstanceAs (Decidable (∀ e ∈ memory.store.entries, call.now < e.2.expiresAt))

/-- A present key is written only where it is the newest of a cache with room, or the oldest of
    a full one. -/
def WritesInOrder (memory : MemoryCacheBackend Value) : MemoryCall Value → Prop
  | .set key _ _ _ => key ∉ memory.store.keys ∨
      if memory.store.size < memory.maxKeys then memory.store.keys.getLast? = some key
      else memory.store.keys.head? = some key
  | _ => True

/-- The backend and the reference, cache for cache: the same entries in the same order of use. -/
structure LruMirror (memory : MemoryCacheBackend Value) (cache : Lru String (CacheEntry Value)) :
    Prop where
  capacity : cache.capacity = memory.maxKeys
  store : cache.store = memory.store

variable {memory : MemoryCacheBackend Value} {cache : Lru String (CacheEntry Value)}

theorem LruMirror.get (mirrors : LruMirror memory cache) (key : String) {now : Nat}
    (unexpired : ∀ e ∈ memory.store.entries, now < e.2.expiresAt) :
    LruMirror (memory.get key now).1 (cache.get key).1 ∧
      (memory.get key now).2 = (cache.get key).2.map CacheEntry.value := by
  obtain ⟨store, capacity, answer⟩ := cache.get_spec key
  rw [mirrors.store] at store answer
  rw [mirrors.capacity] at capacity
  cases found : memory.store.get key with
  | none =>
    rw [found] at store answer
    rw [MemoryCacheBackend.get, found, answer]
    exact ⟨⟨capacity, store⟩, rfl⟩
  | some entry =>
    have live : ¬ entry.expiresAt ≤ now :=
      Nat.not_le.mpr (unexpired (key, entry) ((InsertionMap.get_iff_mem _).mp found))
    rw [found] at store answer
    rw [MemoryCacheBackend.get, found, answer]
    simp only [if_neg live]
    exact ⟨⟨capacity, store⟩, rfl⟩

/- The two reads differ in their answers alone. -/
theorem getWithTtl_get (memory : MemoryCacheBackend Value) (key : String) (now : Nat) :
    (memory.getWithTtl key now).1 = (memory.get key now).1 := by
  unfold MemoryCacheBackend.getWithTtl MemoryCacheBackend.get
  cases memory.store.get key with
  | none => rfl
  | some entry =>
    by_cases expired : entry.expiresAt ≤ now
    · have none_left : (entry.expiresAt : Int) - now ≤ 0 := by omega
      simp [expired, none_left]
    · have some_left : ¬ (entry.expiresAt : Int) - now ≤ 0 := by omega
      simp [expired, some_left]

theorem evictExpired_unexpired {store : InsertionMap String (CacheEntry Value)} {now : Nat}
    (unexpired : ∀ e ∈ store.entries, now < e.2.expiresAt) :
    MemoryCacheBackend.evictExpired store now = store := by
  refine InsertionMap.ext_entries (List.filter_eq_self.mpr fun e member => ?_)
  have live := unexpired e member
  simp [Nat.not_le.mpr live]

theorem dropOldest_fits {maxKeys : Nat} {entries : List (String × CacheEntry Value)}
    (fits : entries.length < maxKeys) :
    MemoryCacheBackend.dropOldest maxKeys entries = entries := by
  cases entries with
  | nil => rfl
  | cons oldest rest =>
    rw [MemoryCacheBackend.dropOldest, if_neg (by simpa using fits)]

/- In a store within bounds, at most one entry makes room. -/
theorem makeRoom_bounded {maxKeys : Nat} {store : InsertionMap String (CacheEntry Value)}
    (bounded : store.size ≤ maxKeys) : MemoryCacheBackend.makeRoom maxKeys store =
      if store.size < maxKeys then store else store.dropFirst := by
  split
  · rename_i fits
    exact InsertionMap.ext_entries (dropOldest_fits fits)
  · rename_i full
    apply InsertionMap.ext_entries
    obtain ⟨entries, distinct⟩ := store
    cases entries with
    | nil => rfl
    | cons oldest rest =>
      simp only [InsertionMap.size, List.length_cons] at bounded full
      have drop : MemoryCacheBackend.dropOldest maxKeys (oldest :: rest) =
          MemoryCacheBackend.dropOldest maxKeys rest := by
        rw [MemoryCacheBackend.dropOldest, if_pos (Nat.le_of_not_lt full)]
      exact drop.trans (dropOldest_fits bounded)

theorem LruMirror.set_iff (mirrors : LruMirror memory cache) {key : String} {value : Value}
    {ttlMs now : Nat} (unexpired : ∀ e ∈ memory.store.entries, now < e.2.expiresAt) :
    LruMirror (memory.set key value ttlMs now) (cache.set key ⟨value, now + ttlMs⟩) ↔
      WritesInOrder memory (.set key value ttlMs now) := by
  have bounded : memory.store.size ≤ memory.maxKeys := by
    rw [← mirrors.store, ← mirrors.capacity]
    exact cache.bounded
  have stores : LruMirror (memory.set key value ttlMs now) (cache.set key ⟨value, now + ttlMs⟩) ↔
      (if memory.store.size < memory.maxKeys then memory.store else memory.store.dropFirst).set key
        ⟨value, now + ttlMs⟩ = (if key ∈ memory.store.keys ∨ memory.store.size < memory.maxKeys then
          memory.store else memory.store.dropFirst).touch key ⟨value, now + ttlMs⟩ := by
    have written : (cache.set key ⟨value, now + ttlMs⟩).store =
        (if key ∈ memory.store.keys ∨ memory.store.size < memory.maxKeys then
          memory.store else memory.store.dropFirst).touch key ⟨value, now + ttlMs⟩ := by
      simp only [Lru.set, Lru.room, mirrors.store, mirrors.capacity]
    have made : (memory.set key value ttlMs now).store =
        (if memory.store.size < memory.maxKeys then memory.store
          else memory.store.dropFirst).set key ⟨value, now + ttlMs⟩ := by
      rw [MemoryCacheBackend.set, evictExpired_unexpired unexpired, makeRoom_bounded bounded]
    rw [← written, ← made]
    exact ⟨fun after => after.store.symm, fun same => ⟨mirrors.capacity, same.symm⟩⟩
  rw [stores, WritesInOrder]
  by_cases room : memory.store.size < memory.maxKeys
  · simp only [room, or_true, ↓reduceIte]
    exact InsertionMap.set_eq_touch_iff _ _ _
  · simp only [room, or_false, ↓reduceIte]
    by_cases present : key ∈ memory.store.keys
    · simp only [present, not_true_eq_false, false_or, ↓reduceIte]
      exact InsertionMap.dropFirst_set_eq_touch_iff _ present
    · simp only [present, not_false_eq_true, true_or, iff_true, ↓reduceIte]
      refine (InsertionMap.set_eq_touch_iff _ _ _).mpr (Or.inl fun kept => present ?_)
      exact ((List.tail_sublist memory.store.entries).map Prod.fst).subset kept

/- One call from equal caches: the answers are equal, and the caches stay so exactly when a
   present key is not written out of order. -/
theorem LruMirror.step (mirrors : LruMirror memory cache) {call : MemoryCall Value}
    (unexpired : ∀ e ∈ memory.store.entries, call.now < e.2.expiresAt) :
    (memoryStep memory call).2 = (lruStep cache call).2 ∧
      (LruMirror (memoryStep memory call).1 (lruStep cache call).1 ↔ WritesInOrder memory call) := by
  cases call with
  | get key now =>
    obtain ⟨after, answer⟩ := mirrors.get key unexpired
    exact ⟨congrArg MemoryAnswer.got answer, iff_of_true after trivial⟩
  | getWithTtl key now =>
    obtain ⟨after, _⟩ := mirrors.get key unexpired
    rw [← getWithTtl_get] at after
    refine ⟨?_, iff_of_true after trivial⟩
    obtain ⟨_, _, answer⟩ := cache.get_spec key
    rw [mirrors.store] at answer
    simp only [memoryStep, lruStep, answer]
    unfold MemoryCacheBackend.getWithTtl
    cases found : memory.store.get key with
    | none => rfl
    | some entry =>
      have live := unexpired (key, entry) ((InsertionMap.get_iff_mem _).mp found)
      have left : ¬ (entry.expiresAt : Int) - now ≤ 0 := by
        simp only [MemoryCall.now] at live
        omega
      have time : ((entry.expiresAt : Int) - now).toNat = entry.expiresAt - now := by omega
      simp only [if_neg left, time, Option.map_some]
  | set key value ttlMs now => exact ⟨rfl, mirrors.set_iff unexpired⟩
  | del key now =>
    refine ⟨rfl, iff_of_true ⟨mirrors.capacity, ?_⟩ trivial⟩
    exact congrArg (fun store => InsertionMap.delete store key) mirrors.store

/-- The history is one of a least-recently-used cache, which now holds the same entries in the
    same order of use. -/
def BehavesAsLru {maxKeys : Nat} (positive : 0 < maxKeys)
    (past : List (MemoryCall Value × MemoryAnswer Value)) (memory : MemoryCacheBackend Value) :
    Prop :=
  ∃ cache, (lruMachine Value positive).Run Machine.anything past cache ∧ LruMirror memory cache

/-- While no entry expires, the backend is a least-recently-used cache throughout a run exactly
    when every key written again is at that moment the newest of a cache with room, or the
    oldest of a full one. -/
theorem true_lru_iff {maxKeys : Nat} (positive : 0 < maxKeys)
    {past : List (MemoryCall Value × MemoryAnswer Value)} {memory : MemoryCacheBackend Value}
    (run : (memoryMachine Value maxKeys).Run Unexpired past memory) :
    (memoryMachine Value maxKeys).Always Unexpired (BehavesAsLru positive) past ↔
      (memoryMachine Value maxKeys).Each Unexpired
        (fun before call _ _ => WritesInOrder before call) past := by
  refine run.always_iff_each ⟨Lru.blank maxKeys positive, Machine.Run.start, rfl, rfl⟩ ?_
  intro past memory call after answer _ behaves unexpired moved
  obtain ⟨cache, abstract, mirrors⟩ := behaves
  obtain ⟨answers, stays⟩ := mirrors.step unexpired
  obtain ⟨rfl, rfl⟩ := Prod.mk.inj (Option.some.inj moved)
  have stepped : (lruMachine Value positive).step cache call =
      some ((lruStep cache call).1, (memoryStep memory call).2) := by
    rw [answers]
    rfl
  rw [← stays]
  constructor
  · rintro ⟨later, reached, same⟩
    obtain rfl := reached.state_unique (abstract.next trivial stepped)
    exact same
  · exact fun same => ⟨_, abstract.next trivial stepped, same⟩

end Machines

/-- Two keys written, the older one read, then a third written. -/
def readThenWrite : List (MemoryCall Nat) :=
  [.set "hot" 1 60000 0, .set "cold" 2 60000 1, .get "hot" 2, .set "new" 3 60000 3]

/-- With room for two the key that was not read is the one to go. -/
theorem true_lru_read_then_write :
    ∃ past memory, past.reverse.map Prod.fst = readThenWrite ∧
      (memoryMachine Nat 2).Run Unexpired past memory ∧
      memory.store.keys = ["hot", "new"] ∧
      (memoryMachine Nat 2).Always Unexpired (BehavesAsLru Nat.two_pos) past := by
  have first : (memoryMachine Nat 2).Run Unexpired _ _ :=
    Machine.Run.start.next (i := .set "hot" 1 60000 0) (by decide) rfl
  have second := first.next (i := .set "cold" 2 60000 1) (by decide) rfl
  have third := second.next (i := .get "hot" 2) (by decide) rfl
  have fourth := third.next (i := .set "new" 3 60000 3) (by decide) rfl
  refine ⟨_, _, rfl, fourth, by decide, (true_lru_iff _ fourth).mpr ?_⟩
  refine (third.each_cons (by decide) rfl).mpr ⟨Or.inl (by decide), ?_⟩
  refine (second.each_cons (by decide) rfl).mpr ⟨trivial, ?_⟩
  refine (first.each_cons (by decide) rfl).mpr ⟨Or.inl (by decide), ?_⟩
  exact (Machine.Run.start.each_cons (by decide) rfl).mpr ⟨Or.inl (by decide), Machine.each_nil⟩

/-- Two keys of two, the newer one written again: the other is evicted. -/
theorem present_key_evicts :
    ¬ ∀ (maxKeys : Nat) (positive : 0 < maxKeys) (past : List (MemoryCall Nat × MemoryAnswer Nat))
      (memory : MemoryCacheBackend Nat), (memoryMachine Nat maxKeys).Run Unexpired past memory →
      BehavesAsLru positive past memory := by
  intro always
  have first : (memoryMachine Nat 2).Run Unexpired _ _ :=
    Machine.Run.start.next (i := .set "a" 1 60000 0) (by decide) rfl
  have second := first.next (i := .set "b" 2 60000 1) (by decide) rfl
  have third := second.next (i := .set "b" 3 60000 2) (by decide) rfl
  obtain ⟨cache, reached, mirrors⟩ := always 2 Nat.two_pos _ _ third
  have one : (lruMachine Nat Nat.two_pos).Run Machine.anything _ _ :=
    Machine.Run.start.next (i := .set "a" 1 60000 0) trivial rfl
  have two := one.next (i := .set "b" 2 60000 1) trivial rfl
  have three := two.next (i := .set "b" 3 60000 2) trivial rfl
  obtain rfl := reached.state_unique three
  exact absurd (congrArg InsertionMap.keys mirrors.store) (by decide)

end AstraPort.Cache
