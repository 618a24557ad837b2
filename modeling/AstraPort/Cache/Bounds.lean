import AstraPort.Cache.Recency

/- L1 against an unbounded map with an expiry per key. The bound costs entries, which a read
   then misses; it never makes one up. -/
namespace AstraPort.Cache
open MemoryCacheBackend (startsWith evictExpired makeRoom dropOldest)

/-- Every call on the backend, with the readings of the clock it takes: a set sweeps expired
    entries by a first reading and dates its own by a second. -/
inductive MemoryOp (Value : Type) where
  | get (key : String) (now : Nat)
  | getWithTtl (key : String) (now : Nat)
  | set (key : String) (value : Value) (ttlMs swept now : Nat)
  | del (key : String)
  | invalidateByPrefix (text : String)
  | clear
  deriving DecidableEq

inductive MemoryReply (Value : Type) where
  | got (value : Option Value)
  | gotWithTtl (found : Option (Value × Nat))
  | removed (count : Nat)
  | done
  deriving DecidableEq

def MemoryOp.readings {Value : Type} : MemoryOp Value → List Nat
  | .get _ now => [now]
  | .getWithTtl _ now => [now]
  | .set _ _ _ swept now => [swept, now]
  | .del _ => []
  | .invalidateByPrefix _ => []
  | .clear => []

def MemoryOp.isRead {Value : Type} : MemoryOp Value → Bool
  | .get _ _ => true
  | .getWithTtl _ _ => true
  | .set _ _ _ _ _ => false
  | .del _ => false
  | .invalidateByPrefix _ => false
  | .clear => false

section Bounds
variable {Value : Type}

/-- The write of a set, its two readings apart. -/
def MemoryCacheBackend.setSwept (memory : MemoryCacheBackend Value) (key : String) (value : Value)
    (ttlMs swept now : Nat) : MemoryCacheBackend Value :=
  { memory with
    store := (makeRoom memory.maxKeys (evictExpired memory.store swept)).set key
      { value := value, expiresAt := now + ttlMs } }

theorem set_eq_setSwept (memory : MemoryCacheBackend Value) (key : String) (value : Value)
    (ttlMs now : Nat) : memory.set key value ttlMs now = memory.setSwept key value ttlMs now now :=
  rfl

def boundedStep (memory : MemoryCacheBackend Value) :
    MemoryOp Value → MemoryCacheBackend Value × MemoryReply Value
  | .get key now => ((memory.get key now).1, .got (memory.get key now).2)
  | .getWithTtl key now => ((memory.getWithTtl key now).1, .gotWithTtl (memory.getWithTtl key now).2)
  | .set key value ttlMs swept now => (memory.setSwept key value ttlMs swept now, .done)
  | .del key => (memory.del key, .done)
  | .invalidateByPrefix text =>
    ((memory.invalidateByPrefix text).1, .removed (memory.invalidateByPrefix text).2)
  | .clear => (memory.clear, .done)

def boundedMachine (Value : Type) (maxKeys : Nat) :
    Machine (MemoryCacheBackend Value) (MemoryOp Value) (MemoryReply Value) :=
  ⟨⟨maxKeys, InsertionMap.empty⟩, fun memory op => some (boundedStep memory op)⟩

/-- No reading lies before an earlier one, within a call or across calls. -/
def ReadingsAdvance :
    Machine.Permit (MemoryCacheBackend Value) (MemoryOp Value) (MemoryReply Value) :=
  fun past _ op => op.readings.Pairwise (· ≤ ·) ∧
    ∀ e ∈ past, ∀ earlier ∈ e.1.readings, ∀ reading ∈ op.readings, earlier ≤ reading

instance (past : List (MemoryOp Value × MemoryReply Value)) (memory : MemoryCacheBackend Value)
    (op : MemoryOp Value) : Decidable (ReadingsAdvance past memory op) :=
  inferInstanceAs (Decidable (op.readings.Pairwise (· ≤ ·) ∧
    ∀ e ∈ past, ∀ earlier ∈ e.1.readings, ∀ reading ∈ op.readings, earlier ≤ reading))

/-- The unbounded map after the same calls. -/
def unbounded : List (MemoryOp Value × MemoryReply Value) → TtlMap String Value
  | [] => TtlMap.nothing
  | (.get _ _, _) :: past => unbounded past
  | (.getWithTtl _ _, _) :: past => unbounded past
  | (.set key value ttlMs _ now, _) :: past => (unbounded past).store key value (now + ttlMs)
  | (.del key, _) :: past => (unbounded past).forget fun other => decide (other = key)
  | (.invalidateByPrefix text, _) :: past => (unbounded past).forget (startsWith text)
  | (.clear, _) :: past => (unbounded past).forget fun _ => true

/-- Reads answer nothing, or what the unbounded map answers at that moment: the value, and
    the time it has left. -/
structure ReadsTruly (past : List (MemoryOp Value × MemoryReply Value)) : Prop where
  values : ∀ later key now reply earlier, past = later ++ (.get key now, reply) :: earlier →
    reply = .got none ∨ reply = .got ((unbounded earlier).look now key)
  times : ∀ later key now reply earlier, past = later ++ (.getWithTtl key now, reply) :: earlier →
    reply = .gotWithTtl none ∨ reply = .gotWithTtl (((unbounded earlier).live now key).map
      fun entry => (entry.value, entry.expiry - now))

/-- A key just set is read back: until it expires, and as long as only reads came between. -/
def ReadsBack (past : List (MemoryOp Value × MemoryReply Value)) : Prop :=
  ∀ later key now reply reads value ttlMs swept written stored earlier,
    past = later ++ (.get key now, reply) ::
      (reads ++ (.set key value ttlMs swept written, stored) :: earlier) →
    (∀ e ∈ reads, e.1.isRead = true) → now < written + ttlMs → reply = .got (some value)

variable {memory : MemoryCacheBackend Value}

/- What each call leaves of the entries, and how many. -/
theorem dropOldest_length {maxKeys : Nat} (positive : 1 ≤ maxKeys)
    (entries : List (String × CacheEntry Value)) :
    (dropOldest maxKeys entries).length + 1 ≤ maxKeys := by
  induction entries with
  | nil => exact positive
  | cons oldest rest ih =>
    rw [dropOldest]
    split
    · exact ih
    · rename_i room
      rw [List.length_cons]
      omega

theorem set_size_le (store : InsertionMap String (CacheEntry Value)) (key : String)
    (entry : CacheEntry Value) : (store.set key entry).size ≤ store.size + 1 := by
  by_cases present : key ∈ store.keys
  · rw [InsertionMap.size, InsertionMap.set_present entry present, List.length_map]
    exact Nat.le_succ _
  · rw [InsertionMap.size, InsertionMap.set_absent entry present, List.length_append]
    exact Nat.le_refl _

theorem keep_size_le (store : InsertionMap String (CacheEntry Value))
    (p : String → CacheEntry Value → Bool) : (store.keep p).size ≤ store.size :=
  List.length_filter_le _ _

theorem get_size_le (memory : MemoryCacheBackend Value) (key : String) (now : Nat) :
    (memory.get key now).1.store.size ≤ memory.store.size := by
  rw [MemoryCacheBackend.get]
  split
  · exact Nat.le_refl _
  · rename_i entry found
    split
    · exact keep_size_le memory.store _
    · exact InsertionMap.touch_size_present entry (memory.store.key_of_get found)

theorem setSwept_size_le (positive : 1 ≤ memory.maxKeys) (key : String) (value : Value)
    (ttlMs swept now : Nat) :
    (memory.setSwept key value ttlMs swept now).store.size ≤ memory.maxKeys := by
  have room := dropOldest_length positive (evictExpired memory.store swept).entries
  have written := set_size_le (makeRoom memory.maxKeys (evictExpired memory.store swept)) key
    ⟨value, now + ttlMs⟩
  exact Nat.le_trans written room

theorem boundedStep_maxKeys (memory : MemoryCacheBackend Value) (op : MemoryOp Value) :
    (boundedStep memory op).1.maxKeys = memory.maxKeys := by
  have read (key : String) (now : Nat) : (memory.get key now).1.maxKeys = memory.maxKeys := by
    rw [MemoryCacheBackend.get]
    split
    · rfl
    · split <;> rfl
  cases op with
  | get key now => exact read key now
  | getWithTtl key now =>
    simp only [boundedStep, getWithTtl_get]
    exact read key now
  | set key value ttlMs swept now => rfl
  | del key => rfl
  | invalidateByPrefix text => rfl
  | clear => rfl

theorem boundedStep_size (positive : 1 ≤ memory.maxKeys)
    (bounded : memory.store.size ≤ memory.maxKeys) (op : MemoryOp Value) :
    (boundedStep memory op).1.store.size ≤ memory.maxKeys := by
  cases op with
  | get key now => exact Nat.le_trans (get_size_le memory key now) bounded
  | getWithTtl key now =>
    simp only [boundedStep, getWithTtl_get]
    exact Nat.le_trans (get_size_le memory key now) bounded
  | set key value ttlMs swept now => exact setSwept_size_le positive key value ttlMs swept now
  | del key => exact Nat.le_trans (keep_size_le memory.store _) bounded
  | invalidateByPrefix text => exact Nat.le_trans (keep_size_le memory.store _) bounded
  | clear => exact Nat.zero_le _

/-- Every entry is one of the unbounded map's. -/
def PartOf (memory : MemoryCacheBackend Value) (m : TtlMap String Value) : Prop :=
  ∀ key entry, memory.store.get key = some entry → m key = some ⟨entry.value, entry.expiresAt⟩

theorem boundedStep_partOf {past : List (MemoryOp Value × MemoryReply Value)}
    (part : PartOf memory (unbounded past)) (op : MemoryOp Value) (reply : MemoryReply Value) :
    PartOf (boundedStep memory op).1 (unbounded ((op, reply) :: past)) := by
  have read (key : String) (now : Nat) : PartOf (memory.get key now).1 (unbounded past) :=
    fun other entry present => part other entry (memory.get_store key now present)
  intro other entry present
  cases op with
  | get key now => exact read key now other entry present
  | getWithTtl key now =>
    simp only [boundedStep, getWithTtl_get] at present
    exact read key now other entry present
  | set key value ttlMs swept now =>
    rcases InsertionMap.get_set_cases present with ⟨rfl, rfl⟩ | ⟨ne, before⟩
    · simp [unbounded, TtlMap.store]
    · have kept := part other entry (MemoryCacheBackend.evictExpired_store
        (MemoryCacheBackend.makeRoom_store before))
      simpa [unbounded, TtlMap.store, ne] using kept
  | del key =>
    obtain ⟨ne, before⟩ := memory.del_store key present
    simpa [unbounded, TtlMap.forget, ne] using part other entry before
  | invalidateByPrefix text =>
    obtain ⟨spared, before⟩ := memory.invalidateByPrefix_store text present
    simpa [unbounded, TtlMap.forget, spared] using part other entry before
  | clear => cases present

/- A read of an entry finds it live or not at all, in the unbounded map as well. -/
theorem PartOf.get_answer {m : TtlMap String Value} (part : PartOf memory m) (key : String)
    (now : Nat) : (memory.get key now).2 = none ∨ (memory.get key now).2 = m.look now key := by
  rw [memory.get_answer key now]
  cases found : memory.store.get key with
  | none => exact Or.inl rfl
  | some entry =>
    rw [TtlMap.look, TtlMap.live, part key entry found]
    by_cases live : now < entry.expiresAt <;> simp [Option.filter, live]

theorem PartOf.getWithTtl_answer {m : TtlMap String Value} (part : PartOf memory m) (key : String)
    (now : Nat) : (memory.getWithTtl key now).2 = none ∨ (memory.getWithTtl key now).2 =
      (m.live now key).map fun entry => (entry.value, entry.expiry - now) := by
  rw [MemoryCacheBackend.getWithTtl]
  cases found : memory.store.get key with
  | none => exact Or.inl rfl
  | some entry =>
    rw [TtlMap.live, part key entry found]
    by_cases live : now < entry.expiresAt
    · have left : ¬ (entry.expiresAt : Int) - now ≤ 0 := by omega
      have time : ((entry.expiresAt : Int) - now).toNat = entry.expiresAt - now := by omega
      simp [Option.filter, live, left, time]
    · have expired : (entry.expiresAt : Int) - now ≤ 0 := by omega
      simp [expired]

/- A read before the expiry of an entry leaves it, whichever key it reads. -/
theorem boundedStep_read_keeps {key : String} {entry : CacheEntry Value} {op : MemoryOp Value}
    (read : op.isRead = true) (early : ∀ reading ∈ op.readings, reading < entry.expiresAt)
    (held : memory.store.get key = some entry) :
    (boundedStep memory op).1.store.get key = some entry := by
  have kept (other : String) {now : Nat} (live : now < entry.expiresAt) :
      (memory.get other now).1.store.get key = some entry := by
    rw [MemoryCacheBackend.get]
    split
    · exact held
    · rename_i found present
      by_cases same : key = other
      · subst other
        obtain rfl : found = entry := Option.some.inj (present.symm.trans held)
        rw [if_neg (Nat.not_le.mpr live)]
        exact InsertionMap.get_set_self _ _ _
      · split
        · exact (InsertionMap.get_delete_ne _ same).trans held
        · rw [InsertionMap.get_set_ne _ _ same, InsertionMap.get_delete_ne _ same, held]
  cases op with
  | get other now => exact kept other (early now (by simp [MemoryOp.readings]))
  | getWithTtl other now =>
    simp only [boundedStep, getWithTtl_get]
    exact kept other (early now (by simp [MemoryOp.readings]))
  | set other value ttlMs swept now => cases read
  | del other => cases read
  | invalidateByPrefix text => cases read
  | clear => cases read

section Runs
variable {maxKeys : Nat} {past : List (MemoryOp Value × MemoryReply Value)}

theorem run_bounded (positive : 1 ≤ maxKeys)
    (run : (boundedMachine Value maxKeys).Run ReadingsAdvance past memory) :
    memory.maxKeys = maxKeys ∧ memory.store.size ≤ maxKeys := by
  refine run.invariant (fun _ memory => memory.maxKeys = maxKeys ∧ memory.store.size ≤ maxKeys)
    ⟨rfl, Nat.zero_le _⟩ ?_
  rintro past memory op after reply - ⟨capacity, bounded⟩ - moved
  obtain ⟨rfl, rfl⟩ := Prod.mk.inj (Option.some.inj moved)
  have size := boundedStep_size (capacity ▸ positive) (capacity ▸ bounded) op
  exact ⟨(boundedStep_maxKeys memory op).trans capacity, capacity ▸ size⟩

theorem run_partOf (run : (boundedMachine Value maxKeys).Run ReadingsAdvance past memory) :
    PartOf memory (unbounded past) := by
  refine run.invariant (fun past memory => PartOf memory (unbounded past)) ?_ ?_
  · intro key entry present
    cases present
  · intro past memory op after reply _ part _ moved
    obtain ⟨rfl, rfl⟩ := Prod.mk.inj (Option.some.inj moved)
    exact boundedStep_partOf part op _

theorem run_readsTruly (run : (boundedMachine Value maxKeys).Run ReadingsAdvance past memory) :
    ReadsTruly past := by
  constructor
  · intro later key now reply earlier split
    obtain ⟨before, after, reached, _, moved⟩ := run.exchange split
    obtain ⟨_, rfl⟩ := Prod.mk.inj (Option.some.inj moved)
    rcases (run_partOf reached).get_answer key now with missed | hit
    · exact Or.inl (congrArg MemoryReply.got missed)
    · exact Or.inr (congrArg MemoryReply.got hit)
  · intro later key now reply earlier split
    obtain ⟨before, after, reached, _, moved⟩ := run.exchange split
    obtain ⟨_, rfl⟩ := Prod.mk.inj (Option.some.inj moved)
    rcases (run_partOf reached).getWithTtl_answer key now with missed | hit
    · exact Or.inl (congrArg MemoryReply.gotWithTtl missed)
    · exact Or.inr (congrArg MemoryReply.gotWithTtl hit)

/- After a set the entry stays through every read made before its expiry. -/
theorem set_stays {reads earlier : List (MemoryOp Value × MemoryReply Value)} {key : String}
    {value : Value} {ttlMs swept written : Nat} {stored : MemoryReply Value}
    (run : (boundedMachine Value maxKeys).Run ReadingsAdvance
      (reads ++ (.set key value ttlMs swept written, stored) :: earlier) memory)
    (only_reads : ∀ e ∈ reads, e.1.isRead = true)
    (early : ∀ e ∈ reads, ∀ reading ∈ e.1.readings, reading < written + ttlMs) :
    memory.store.get key = some ⟨value, written + ttlMs⟩ := by
  refine run.after rfl (fun reads memory => (∀ e ∈ reads, e.1.isRead = true) →
    (∀ e ∈ reads, ∀ reading ∈ e.1.readings, reading < written + ttlMs) →
    memory.store.get key = some ⟨value, written + ttlMs⟩) ?_ ?_ only_reads early
  · intro before after _ _ moved _ _
    obtain ⟨rfl, _⟩ := Prod.mk.inj (Option.some.inj moved)
    exact InsertionMap.get_set_self _ _ _
  · intro reads memory op after reply _ held _ moved only_reads early
    obtain ⟨rfl, rfl⟩ := Prod.mk.inj (Option.some.inj moved)
    simp only [List.forall_mem_cons] at only_reads early
    exact boundedStep_read_keeps only_reads.1 early.1 (held only_reads.2 early.2)

theorem run_readsBack (run : (boundedMachine Value maxKeys).Run ReadingsAdvance past memory) :
    ReadsBack past := by
  intro later key now reply reads value ttlMs swept written stored earlier split only_reads live
  obtain ⟨before, after, reached, forward, moved⟩ := run.exchange split
  obtain ⟨_, rfl⟩ := Prod.mk.inj (Option.some.inj moved)
  have early : ∀ e ∈ reads, ∀ reading ∈ e.1.readings, reading < written + ttlMs := by
    intro e member reading taken
    have ordered := forward.2 e (List.mem_append_left _ member) reading taken now
      (by simp [MemoryOp.readings])
    exact Nat.lt_of_le_of_lt ordered live
  have held := set_stays reached only_reads early
  apply congrArg MemoryReply.got
  rw [before.get_answer key now, held]
  simp [Option.filter, live]

/-- The backend never holds more than maxKeys entries, reads answer nothing or the truth, and a
    key just set is read back. -/
theorem bounded_never_lies (positive : 1 ≤ maxKeys)
    (run : (boundedMachine Value maxKeys).Run ReadingsAdvance past memory) :
    memory.store.size ≤ maxKeys ∧ ReadsTruly past ∧ ReadsBack past :=
  ⟨(run_bounded positive run).2, run_readsTruly run, run_readsBack run⟩

end Runs
end Bounds

/-- Two writes to a cache of one entry, the second read back through a read of the first. -/
theorem bounded_never_lies_one_key : ∃ past memory, past.length = 4 ∧
    (boundedMachine Nat 1).Run ReadingsAdvance past memory ∧
    memory.store.size ≤ 1 ∧ ReadsTruly past ∧ ReadsBack past := by
  have first : (boundedMachine Nat 1).Run ReadingsAdvance _ _ :=
    Machine.Run.start.next (i := .set "a" 1 60000 0 0) (by decide) rfl
  have second := first.next (i := .set "b" 2 60000 1 2) (by decide) rfl
  have third := second.next (i := .getWithTtl "a" 3) (by decide) rfl
  have fourth := third.next (i := .get "b" 4) (by decide) rfl
  exact ⟨_, _, rfl, fourth, bounded_never_lies (Nat.le_refl 1) fourth⟩

end AstraPort.Cache
