import AstraPort.Foundation.InsertionMap
import AstraPort.Foundation.TtlMap

/- The two cache layers. L1 is an insertion-ordered map of bounded size; L2 is a
   Redis server behind a client, whose commands answer none where they reject. -/
namespace AstraPort.Cache

structure CacheEntry (Value : Type) where
  value : Value
  expiresAt : Nat
  deriving DecidableEq

structure MemoryCacheBackend (Value : Type) where
  maxKeys : Nat
  store : InsertionMap String (CacheEntry Value)

namespace MemoryCacheBackend
variable {Value : Type}

/-- A hit is inserted again, so that the order of the map is the order of use. -/
def get (memory : MemoryCacheBackend Value) (key : String) (now : Nat) :
    MemoryCacheBackend Value × Option Value :=
  match memory.store.get key with
  | none => (memory, none)
  | some entry =>
    if entry.expiresAt ≤ now then ({ memory with store := memory.store.delete key }, none)
    else ({ memory with store := (memory.store.delete key).set key entry }, some entry.value)

def evictExpired (store : InsertionMap String (CacheEntry Value)) (now : Nat) :
    InsertionMap String (CacheEntry Value) :=
  store.keep fun _ entry => !decide (entry.expiresAt ≤ now)

/-- Drops the oldest entries until there is room for one more. -/
def dropOldest (maxKeys : Nat) : List (String × CacheEntry Value) → List (String × CacheEntry Value)
  | [] => []
  | oldest :: rest => if maxKeys ≤ rest.length + 1 then dropOldest maxKeys rest else oldest :: rest

theorem dropOldest_suffix (maxKeys : Nat) (entries : List (String × CacheEntry Value)) :
    dropOldest maxKeys entries <:+ entries := by
  induction entries with
  | nil => exact List.suffix_refl []
  | cons oldest rest ih =>
    rw [dropOldest]
    split
    · exact ih.trans (List.suffix_cons oldest rest)
    · exact List.suffix_refl _

def makeRoom (maxKeys : Nat) (store : InsertionMap String (CacheEntry Value)) :
    InsertionMap String (CacheEntry Value) :=
  ⟨dropOldest maxKeys store.entries,
    store.distinct.sublist ((dropOldest_suffix maxKeys store.entries).sublist.map Prod.fst)⟩

def set (memory : MemoryCacheBackend Value) (key : String) (value : Value) (ttlMs now : Nat) :
    MemoryCacheBackend Value :=
  { memory with
    store := (makeRoom memory.maxKeys (evictExpired memory.store now)).set key
      { value := value, expiresAt := now + ttlMs } }

def del (memory : MemoryCacheBackend Value) (key : String) : MemoryCacheBackend Value :=
  { memory with store := memory.store.delete key }

def startsWith (text key : String) : Bool := text.toList.isPrefixOf key.toList

def invalidateByPrefix (memory : MemoryCacheBackend Value) (text : String) :
    MemoryCacheBackend Value × Nat :=
  ({ memory with store := memory.store.keep fun key _ => !startsWith text key },
    (memory.store.keys.filter (startsWith text)).length)

def clear (memory : MemoryCacheBackend Value) : MemoryCacheBackend Value :=
  { memory with store := InsertionMap.empty }

/- No operation but set brings an entry in; the others only take entries away. -/
theorem get_store (memory : MemoryCacheBackend Value) (key : String) (now : Nat)
    {other : String} {entry : CacheEntry Value}
    (present : (memory.get key now).1.store.get other = some entry) :
    memory.store.get other = some entry := by
  unfold get at present
  split at present
  · exact present
  · rename_i found held
    split at present
    · exact InsertionMap.get_of_delete present
    · by_cases same : other = key
      · subst other
        rw [InsertionMap.get_set_self] at present
        rw [held, present]
      · rwa [InsertionMap.get_set_ne _ _ same, InsertionMap.get_delete_ne _ same] at present

theorem get_answer (memory : MemoryCacheBackend Value) (key : String) (now : Nat) :
    (memory.get key now).2 =
      ((memory.store.get key).filter fun entry => decide (now < entry.expiresAt)).map
        CacheEntry.value := by
  unfold get
  cases memory.store.get key with
  | none => rfl
  | some entry => by_cases expired : entry.expiresAt ≤ now <;> simp [Option.filter, expired]

theorem evictExpired_store {store : InsertionMap String (CacheEntry Value)} {now : Nat}
    {key : String} {entry : CacheEntry Value}
    (present : (evictExpired store now).get key = some entry) : store.get key = some entry := by
  rw [evictExpired, InsertionMap.get_keep, Option.filter_eq_some_iff] at present
  exact present.1

theorem makeRoom_store {maxKeys : Nat} {store : InsertionMap String (CacheEntry Value)}
    {key : String} {entry : CacheEntry Value}
    (present : (makeRoom maxKeys store).get key = some entry) : store.get key = some entry := by
  rw [InsertionMap.get_iff_mem] at present ⊢
  exact (dropOldest_suffix maxKeys store.entries).subset present

theorem set_store (memory : MemoryCacheBackend Value) (key : String) (value : Value)
    (ttlMs now : Nat) {other : String} {entry : CacheEntry Value}
    (present : (memory.set key value ttlMs now).store.get other = some entry) :
    (other = key ∧ entry = ⟨value, now + ttlMs⟩) ∨
      (other ≠ key ∧ memory.store.get other = some entry) := by
  rcases InsertionMap.get_set_cases present with written | ⟨ne, before⟩
  · exact Or.inl written
  · exact Or.inr ⟨ne, evictExpired_store (makeRoom_store before)⟩

theorem del_store (memory : MemoryCacheBackend Value) (key : String) {other : String}
    {entry : CacheEntry Value} (present : (memory.del key).store.get other = some entry) :
    other ≠ key ∧ memory.store.get other = some entry := by
  by_cases same : other = key
  · subst other
    simp [del] at present
  · exact ⟨same, by simpa [del, same] using present⟩

theorem invalidateByPrefix_store (memory : MemoryCacheBackend Value) (text : String)
    {key : String} {entry : CacheEntry Value}
    (present : (memory.invalidateByPrefix text).1.store.get key = some entry) :
    startsWith text key = false ∧ memory.store.get key = some entry := by
  simp only [invalidateByPrefix, InsertionMap.get_keep, Option.filter_eq_some_iff,
    Bool.not_eq_true'] at present
  exact ⟨present.2, present.1⟩

end MemoryCacheBackend

/-- JSON.stringify and JSON.parse; none where parsing throws. -/
structure JsonCodec (Value : Type) where
  stringify : Value → String
  parse : String → Option Value

/-- Commands of the client on the contents of its server: GET and PTTL in one
    pipeline, SET with PX, DEL. -/
structure RedisClient (Store : Type) where
  getWithPttl : Store → Nat → String → Option (Option String × Int)
  setPx : Store → Nat → String → String → Nat → Option Store
  del : Store → Nat → List String → Option Store

/-- The answers of one SCAN loop to its pattern, in the order they arrive: each the
    keys of one reply, none for a rejected call. -/
abbrev ScanReplies := String → List (Option (List String))

structure RedisCacheBackend (Store : Type) where
  keyPrefix : String
  configured : Bool
  online : Bool
  store : Store

namespace RedisCacheBackend
variable {Store Value : Type}

def available (redis : RedisCacheBackend Store) : Bool := redis.configured && redis.online

def getWithTtl (client : RedisClient Store) (codec : JsonCodec Value)
    (redis : RedisCacheBackend Store) (key : String) (now : Nat) : Option (Value × Nat) :=
  if redis.available then
    match client.getWithPttl redis.store now (redis.keyPrefix ++ key) with
    | some (some rawValue, pttlMs) =>
      let effectivePttl := if 0 < pttlMs then pttlMs.toNat else 0
      (codec.parse rawValue).map fun value => (value, effectivePttl)
    | some (none, _) => none
    | none => none
  else none

/-- A rejected command is swallowed and leaves the server as it was. -/
def keepStore (redis : RedisCacheBackend Store) (result : Option Store) :
    RedisCacheBackend Store := { redis with store := result.getD redis.store }

def set (client : RedisClient Store) (codec : JsonCodec Value) (redis : RedisCacheBackend Store)
    (key : String) (value : Value) (ttlMs now : Nat) : RedisCacheBackend Store :=
  if redis.available then
    redis.keepStore
      (client.setPx redis.store now (redis.keyPrefix ++ key) (codec.stringify value) ttlMs)
  else redis

def del (client : RedisClient Store) (redis : RedisCacheBackend Store) (key : String)
    (now : Nat) : RedisCacheBackend Store :=
  if redis.available then redis.keepStore (client.del redis.store now [redis.keyPrefix ++ key])
  else redis

/-- The body of the SCAN loop: delete what each reply lists and count it; the count
    is lost when a command rejects. -/
def deleteReplies (client : RedisClient Store) (now : Nat) :
    Store → List (Option (List String)) → Store × Option Nat
  | store, [] => (store, some 0)
  | store, none :: _ => (store, none)
  | store, some keys :: rest =>
    if keys = [] then deleteReplies client now store rest
    else match client.del store now keys with
      | none => (store, none)
      | some store =>
        let swept := deleteReplies client now store rest
        (swept.1, swept.2.map (keys.length + ·))

def invalidateByPrefix (client : RedisClient Store) (redis : RedisCacheBackend Store)
    (text : String) (scan : ScanReplies) (now : Nat) : RedisCacheBackend Store × Nat :=
  if redis.available then
    let swept := deleteReplies client now redis.store (scan (redis.keyPrefix ++ text ++ "*"))
    ({ redis with store := swept.1 }, swept.2.getD 0)
  else (redis, 0)

def clear (client : RedisClient Store) (redis : RedisCacheBackend Store) (scan : ScanReplies)
    (now : Nat) : RedisCacheBackend Store :=
  if redis.available then
    { redis with store := (deleteReplies client now redis.store (scan (redis.keyPrefix ++ "*"))).1 }
  else redis

end RedisCacheBackend

/-- Characters with a meaning of their own in a MATCH pattern. -/
def globCharacters : List Char := ['*', '?', '[', ']', '\\']

def Literal (text : String) : Prop := ∀ c ∈ text.toList, c ∉ globCharacters

instance (text : String) : Decidable (Literal text) :=
  inferInstanceAs (Decidable (∀ c ∈ text.toList, c ∉ globCharacters))

/-- A server that answers every command: it holds a key exactly until its expiry,
    reports the time left with the value, and matches a literal prefix as written. -/
structure RedisClient.Healthy {Store : Type} (client : RedisClient Store) (blank : Store) where
  held : Store → Nat → String → Option (TtlEntry String)
  glob : String → String → Prop
  blank_holds : ∀ now key, held blank now key = none
  get_answers : ∀ store now key, client.getWithPttl store now key =
    some (match held store now key with
      | some entry => (some entry.value, (entry.expiry : Int) - now)
      | none => (none, -2))
  set_holds : ∀ store now key raw ttlMs, 0 < ttlMs →
    ∃ stored, client.setPx store now key raw ttlMs = some stored ∧
      ∀ later ≥ now, ∀ other, held stored later other =
        if other = key then (if later < now + ttlMs then some ⟨raw, now + ttlMs⟩ else none)
        else held store later other
  del_forgets : ∀ store now keys, ∃ left, client.del store now keys = some left ∧
    ∀ later ≥ now, ∀ other, held left later other =
      if other ∈ keys then none else held store later other
  glob_literal : ∀ text, Literal text → ∀ key,
    glob (text ++ "*") key ↔ text.toList <+: key.toList

def listed (replies : List (Option (List String))) : List String := (replies.filterMap id).flatten

theorem mem_listed_cons (key : String) (keys : List String) (rest : List (Option (List String))) :
    key ∈ listed (some keys :: rest) ↔ key ∈ keys ∨ key ∈ listed rest := by
  simp [listed]

/-- What a SCAN loop on a healthy server answers: only matching keys, and every
    matching key that is held. -/
structure RedisClient.Healthy.Scans {Store : Type} {client : RedisClient Store} {blank : Store}
    (healthy : client.Healthy blank) (store : Store) (now : Nat) (pattern : String)
    (replies : List (Option (List String))) : Prop where
  never_rejects : none ∉ replies
  only_matching : ∀ key ∈ listed replies, healthy.glob pattern key
  all_matching : ∀ key, healthy.glob pattern key → healthy.held store now key ≠ none →
    key ∈ listed replies

namespace RedisCacheBackend
variable {Store : Type} {client : RedisClient Store} {blank : Store}

/- After the loop the keys listed in its replies are gone and the others untouched. -/
theorem deleteReplies_held (healthy : client.Healthy blank) (now : Nat) {store : Store}
    {replies : List (Option (List String))} (answered : none ∉ replies) {later : Nat}
    (ahead : now ≤ later) (key : String) :
    healthy.held (deleteReplies client now store replies).1 later key =
      if key ∈ listed replies then none else healthy.held store later key := by
  induction replies generalizing store with
  | nil => simp [deleteReplies, listed]
  | cons reply rest ih =>
    cases reply with
    | none => simp at answered
    | some keys =>
      have rest_answered : none ∉ rest := fun bad => answered (List.mem_cons_of_mem _ bad)
      rw [deleteReplies]
      split
      · rename_i nothing
        rw [ih rest_answered]
        simp [nothing, mem_listed_cons]
      · obtain ⟨left, deleted, forgets⟩ := healthy.del_forgets store now keys
        simp only [deleted]
        rw [ih rest_answered, forgets later ahead]
        by_cases now_listed : key ∈ keys <;> simp [mem_listed_cons, now_listed]

end RedisCacheBackend
end AstraPort.Cache
