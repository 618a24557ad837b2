import AstraPort.Cache.Service

/- On a healthy server the two layers together behave as one unbounded map with an
   expiry per key: L2 is that map, and every entry of L1 is one of its entries. -/
namespace AstraPort.Cache
open MemoryCacheBackend (startsWith)

section Refinement
variable {Value Store : Type} {client : RedisClient Store} {blank : Store}
  (codec : JsonCodec Value) (config : CacheConfiguration) (healthy : client.Healthy blank)

/-- What a caller and the server may do: stored values survive a round trip, lifetimes
    are positive, prefixes to invalidate are literal, SCAN covers what is held. -/
def Proper (service : CacheService Value Store) : CacheCall Value → Prop
  | .get _ _ => True
  | .set _ value ttlMs _ =>
    0 < ttlMs.getD config.defaultTtlMs ∧ codec.parse (codec.stringify value) = some value
  | .del _ _ => True
  | .invalidateByPrefix text scan now =>
    Literal text ∧ healthy.Scans service.redis.store now (config.keyPrefix ++ text ++ "*")
      (scan (config.keyPrefix ++ text ++ "*"))
  | .clear scan now =>
    healthy.Scans service.redis.store now (config.keyPrefix ++ "*") (scan (config.keyPrefix ++ "*"))

def OneAtATime : Machine.Permit (CacheService Value Store) (CacheCall Value) (CacheAnswer Value) :=
  fun past service call =>
    Machine.ClockAdvances CacheCall.now past service call ∧ Proper codec config healthy service call

def seen : CacheCall Value → TtlCall String Value
  | .get key now => .get key now
  | .set key value ttlMs now => .store key value (ttlMs.getD config.defaultTtlMs) now
  | .del key _ => .forget fun other => decide (other = key)
  | .invalidateByPrefix text _ _ => .forget (startsWith text)
  | .clear _ _ => .forget fun _ => true

def shown : CacheAnswer Value → Option Value
  | .got value => value
  | .done => none
  | .invalidated _ => none

def serialized (entry : TtlEntry Value) : TtlEntry String :=
  ⟨codec.stringify entry.value, entry.expiry⟩

/-- Coupling of the two layers with the one map. -/
structure Coupled (past : List (CacheCall Value × CacheAnswer Value))
    (service : CacheService Value Store) (m : TtlMap String Value) : Prop where
  reachable : service.redis.available = true
  same_prefix : service.redis.keyPrefix = config.keyPrefix
  survives : ∀ key entry, m key = some entry →
    codec.parse (codec.stringify entry.value) = some entry.value
  memory_part : ∀ key entry, service.memory.store.get key = some entry →
    m key = some ⟨entry.value, entry.expiresAt⟩
  redis_whole : ∀ now, (∀ e ∈ past, e.1.now ≤ now) → ∀ key,
    healthy.held service.redis.store now (config.keyPrefix ++ key) =
      (m.live now key).map (serialized codec)

theorem startsWith_iff (text key : String) : startsWith text key = true ↔
    text.toList <+: key.toList := List.isPrefixOf_iff_prefix

theorem prefixed_startsWith (keyPrefix text key : String) :
    (keyPrefix ++ text).toList <+: (keyPrefix ++ key).toList ↔ text.toList <+: key.toList := by
  rw [String.toList_append, String.toList_append, List.prefix_append_right_inj]

variable {codec config healthy} {past : List (CacheCall Value × CacheAnswer Value)}
  {service : CacheService Value Store} {m : TtlMap String Value}

theorem Coupled.longer (coupled : Coupled codec config healthy past service m)
    (e : CacheCall Value × CacheAnswer Value) :
    Coupled codec config healthy (e :: past) service m :=
  { coupled with
    redis_whole := fun now ahead =>
      coupled.redis_whole now fun e member => ahead e (List.mem_cons_of_mem _ member) }

theorem Coupled.with_memory (coupled : Coupled codec config healthy past service m)
    {memory : MemoryCacheBackend Value}
    (part : ∀ key entry, memory.store.get key = some entry →
      m key = some ⟨entry.value, entry.expiresAt⟩) :
    Coupled codec config healthy past { service with memory := memory } m :=
  { coupled with memory_part := part }

theorem redis_answers (coupled : Coupled codec config healthy past service m) {now : Nat}
    (ahead : ∀ e ∈ past, e.1.now ≤ now) (key : String) :
    service.redis.getWithTtl client codec key now =
      (m.live now key).map fun entry => (entry.value, entry.expiry - now) := by
  simp only [RedisCacheBackend.getWithTtl, coupled.reachable, ↓reduceIte, healthy.get_answers,
    coupled.same_prefix, coupled.redis_whole now ahead key]
  cases present : m.live now key with
  | none => rfl
  | some entry =>
    have known := TtlMap.live_some.mp present
    have round_trip := coupled.survives key entry known.1
    have time_left : ((entry.expiry : Int) - now).toNat = entry.expiry - now := by omega
    have some_time : (0 : Int) < (entry.expiry : Int) - now := by omega
    simp only [serialized, Option.map_some, if_pos some_time, round_trip, time_left]

theorem get_refines (coupled : Coupled codec config healthy past service m)
    (enabled : config.enabled = true) {now : Nat} (ahead : ∀ e ∈ past, e.1.now ≤ now)
    (key : String) : (service.get client codec config key now).2 = m.look now key ∧
      Coupled codec config healthy past (service.get client codec config key now).1 m := by
  have kept : ∀ other entry, (service.memory.get key now).1.store.get other = some entry →
      m other = some ⟨entry.value, entry.expiresAt⟩ := fun other entry present =>
    coupled.memory_part other entry (MemoryCacheBackend.get_store service.memory key now present)
  have answer := MemoryCacheBackend.get_answer service.memory key now
  have from_redis := redis_answers coupled ahead key
  rw [CacheService.get, if_pos enabled]
  split
  · rename_i memory memoryValue hit
    simp only [hit] at answer kept
    refine ⟨?_, coupled.with_memory kept⟩
    obtain ⟨entry, present, value⟩ := Option.map_eq_some_iff.mp answer.symm
    obtain ⟨stored, unexpired⟩ := Option.filter_eq_some_iff.mp present
    have live : m.live now key = some ⟨entry.value, entry.expiresAt⟩ :=
      TtlMap.live_some.mpr ⟨coupled.memory_part key entry stored, of_decide_eq_true unexpired⟩
    rw [TtlMap.look, live, Option.map_some, value]
  · rename_i memory missed
    simp only [missed] at kept
    rw [from_redis, TtlMap.look]
    cases present : m.live now key with
    | none => exact ⟨rfl, coupled.with_memory kept⟩
    | some entry =>
      refine ⟨rfl, coupled.with_memory ?_⟩
      obtain ⟨stored, unexpired⟩ := TtlMap.live_some.mp present
      intro other copy held
      -- the promoted copy expires with its original: now + (expiry - now) = expiry
      rcases MemoryCacheBackend.set_store memory key entry.value _ now held with
        ⟨rfl, rfl⟩ | ⟨_, before⟩
      · have same_expiry : now + max 1 (entry.expiry - now) = entry.expiry := by omega
        rw [same_expiry, stored]
      · exact kept other copy before

theorem prefixed_eq (keyPrefix key other : String) :
    keyPrefix ++ other = keyPrefix ++ key ↔ other = key := by
  rw [← String.toList_inj, ← String.toList_inj, String.toList_append, String.toList_append,
    List.append_cancel_left_eq]

theorem set_refines (coupled : Coupled codec config healthy past service m)
    (enabled : config.enabled = true) {now : Nat} (key : String) {value : Value}
    {ttlMs : Option Nat} (positive : 0 < ttlMs.getD config.defaultTtlMs)
    (round_trip : codec.parse (codec.stringify value) = some value) :
    Coupled codec config healthy ((.set key value ttlMs now, .done) :: past)
      (service.set client codec config key value ttlMs now)
      (m.store key value (now + ttlMs.getD config.defaultTtlMs)) := by
  obtain ⟨stored, answered, holds⟩ := healthy.set_holds service.redis.store now
    (config.keyPrefix ++ key) (codec.stringify value) _ positive
  have redis : service.redis.set client codec key value (ttlMs.getD config.defaultTtlMs) now =
      { service.redis with store := stored } := by
    simp [RedisCacheBackend.set, coupled.reachable, RedisCacheBackend.keepStore,
      coupled.same_prefix, answered]
  simp only [CacheService.set, enabled, ↓reduceIte, redis]
  refine ⟨coupled.reachable, coupled.same_prefix, ?_, ?_, ?_⟩
  · intro other entry present
    simp only [TtlMap.store] at present
    split at present
    · obtain rfl := Option.some.inj present
      exact round_trip
    · exact coupled.survives other entry present
  · intro other entry present
    rcases MemoryCacheBackend.set_store service.memory key value _ now present with
      ⟨rfl, rfl⟩ | ⟨ne, before⟩
    · simp [TtlMap.store]
    · simpa [TtlMap.store, ne] using coupled.memory_part other entry before
  · intro later ahead other
    have reached : now ≤ later := ahead _ (List.mem_cons_self)
    have whole := coupled.redis_whole later
      (fun e member => ahead e (List.mem_cons_of_mem _ member)) other
    simp only [holds later reached, prefixed_eq, whole, TtlMap.live_store]
    by_cases same : other = key
    · by_cases unexpired : later < now + ttlMs.getD config.defaultTtlMs <;>
        simp [same, unexpired, serialized]
    · simp [same]

/- Every deleting call drops the same keys from L1, from L2 and from the map. -/
theorem forget_refines (coupled : Coupled codec config healthy past service m)
    {call : CacheCall Value} {answer : CacheAnswer Value} {gone : String → Bool}
    {memory : MemoryCacheBackend Value} {left : Store}
    (memory_drops : ∀ key entry, memory.store.get key = some entry →
      gone key = false ∧ service.memory.store.get key = some entry)
    (redis_drops : ∀ later, call.now ≤ later → (∀ e ∈ past, e.1.now ≤ later) → ∀ key,
      healthy.held left later (config.keyPrefix ++ key) =
        if gone key then none
        else healthy.held service.redis.store later (config.keyPrefix ++ key)) :
    Coupled codec config healthy ((call, answer) :: past)
      { memory := memory, redis := { service.redis with store := left } } (m.forget gone) := by
  refine ⟨coupled.reachable, coupled.same_prefix, ?_, ?_, ?_⟩
  · intro key entry present
    simp only [TtlMap.forget, Option.ite_none_left_eq_some] at present
    exact coupled.survives key entry present.2
  · intro key entry present
    obtain ⟨stays, before⟩ := memory_drops key entry present
    simpa [TtlMap.forget, stays] using coupled.memory_part key entry before
  · intro later ahead key
    have earlier : ∀ e ∈ past, e.1.now ≤ later := fun e member =>
      ahead e (List.mem_cons_of_mem _ member)
    rw [redis_drops later (ahead _ List.mem_cons_self) earlier, TtlMap.live_forget,
      coupled.redis_whole later earlier]
    cases gone key <;> rfl

/- A SCAN loop over a literal prefix drops exactly the keys that start with it. -/
theorem scan_drops (coupled : Coupled codec config healthy past service m) {now : Nat}
    (ahead : ∀ e ∈ past, e.1.now ≤ now) (text : String)
    (literal : Literal (config.keyPrefix ++ text)) {replies : List (Option (List String))}
    (scans : healthy.Scans service.redis.store now (config.keyPrefix ++ text ++ "*") replies)
    {later : Nat} (reached : now ≤ later) (past_later : ∀ e ∈ past, e.1.now ≤ later)
    (key : String) :
    healthy.held (RedisCacheBackend.deleteReplies client now service.redis.store replies).1 later
        (config.keyPrefix ++ key) =
      if startsWith text key then none
      else healthy.held service.redis.store later (config.keyPrefix ++ key) := by
  have matching : healthy.glob (config.keyPrefix ++ text ++ "*") (config.keyPrefix ++ key) ↔
      startsWith text key = true := by
    rw [healthy.glob_literal _ literal, prefixed_startsWith, startsWith_iff]
  rw [RedisCacheBackend.deleteReplies_held healthy now scans.never_rejects reached]
  by_cases starts : startsWith text key = true
  · by_cases named : config.keyPrefix ++ key ∈ listed replies
    · simp [starts, named]
    · have absent : healthy.held service.redis.store now (config.keyPrefix ++ key) = none := by
        by_contra held
        exact named (scans.all_matching _ (matching.mpr starts) held)
      rw [coupled.redis_whole now ahead, Option.map_eq_none_iff] at absent
      have still := TtlMap.dead_stays_dead absent reached
      simp [starts, coupled.redis_whole later past_later, still]
  · have unnamed : config.keyPrefix ++ key ∉ listed replies := fun named =>
      starts (matching.mp (scans.only_matching _ named))
    simp [starts, unnamed]

theorem step_refines (enabled : config.enabled = true) (literal : Literal config.keyPrefix)
    (coupled : Coupled codec config healthy past service m) {call : CacheCall Value}
    (permitted : OneAtATime codec config healthy past service call)
    {after : CacheService Value Store} {answer : CacheAnswer Value}
    (moved : CacheService.step client codec config service call = some (after, answer)) :
    ∃ m', TtlMap.step m (seen config call) = some (m', shown answer) ∧
      Coupled codec config healthy ((call, answer) :: past) after m' := by
  obtain ⟨ahead, proper⟩ := permitted
  cases call with
  | get key now =>
    have refined : (service.get client codec config key now).2 = m.look now key ∧ _ :=
      get_refines coupled enabled ahead key
    simp only [CacheService.step, Option.some.injEq, Prod.mk.injEq] at moved
    obtain ⟨rfl, rfl⟩ := moved
    refine ⟨m, ?_, refined.2.longer _⟩
    simp only [seen, TtlMap.step, shown]
    rw [refined.1]
  | set key value ttlMs now =>
    simp only [CacheService.step, Option.some.injEq, Prod.mk.injEq] at moved
    obtain ⟨rfl, rfl⟩ := moved
    exact ⟨_, rfl, set_refines coupled enabled key proper.1 proper.2⟩
  | del key now =>
    simp only [CacheService.step, Option.some.injEq, Prod.mk.injEq] at moved
    obtain ⟨rfl, rfl⟩ := moved
    obtain ⟨left, deleted, forgets⟩ := healthy.del_forgets service.redis.store now
      [config.keyPrefix ++ key]
    have redis : service.redis.del client key now = { service.redis with store := left } := by
      simp [RedisCacheBackend.del, coupled.reachable, RedisCacheBackend.keepStore,
        coupled.same_prefix, deleted]
    refine ⟨_, rfl, ?_⟩
    simp only [CacheService.del, enabled, ↓reduceIte, redis]
    refine forget_refines coupled ?_ ?_
    · intro other entry present
      have kept := MemoryCacheBackend.del_store service.memory key present
      exact ⟨by simp [kept.1], kept.2⟩
    · intro later reached _ other
      simp [forgets later reached]
  | invalidateByPrefix text scan now =>
    simp only [CacheService.step, Option.some.injEq, Prod.mk.injEq] at moved
    obtain ⟨rfl, rfl⟩ := moved
    have whole_literal : Literal (config.keyPrefix ++ text) := by
      intro c member
      rw [String.toList_append, List.mem_append] at member
      exact member.elim (literal c) (proper.1 c)
    have redis : (service.redis.invalidateByPrefix client text scan now).1 =
        { service.redis with store := (RedisCacheBackend.deleteReplies client now
          service.redis.store (scan (config.keyPrefix ++ text ++ "*"))).1 } := by
      rw [RedisCacheBackend.invalidateByPrefix, if_pos coupled.reachable, ← coupled.same_prefix]
    refine ⟨_, rfl, ?_⟩
    simp only [CacheService.invalidateByPrefix, enabled, ↓reduceIte, redis]
    refine forget_refines coupled ?_ ?_
    · intro key entry present
      exact MemoryCacheBackend.invalidateByPrefix_store service.memory text present
    · intro later reached past_later key
      exact scan_drops coupled ahead text whole_literal proper.2 reached past_later key
  | clear scan now =>
    simp only [CacheService.step, Option.some.injEq, Prod.mk.injEq] at moved
    obtain ⟨rfl, rfl⟩ := moved
    have redis : service.redis.clear client scan now =
        { service.redis with store := (RedisCacheBackend.deleteReplies client now
          service.redis.store (scan (config.keyPrefix ++ "*"))).1 } := by
      rw [RedisCacheBackend.clear, if_pos coupled.reachable, ← coupled.same_prefix]
    refine ⟨_, rfl, ?_⟩
    simp only [CacheService.clear, enabled, ↓reduceIte, redis]
    refine forget_refines coupled ?_ ?_
    · intro key entry present
      simp [MemoryCacheBackend.clear] at present
    · intro later reached past_later key
      have every : ∀ key, startsWith "" key = true := by
        intro key
        simp [startsWith_iff]
      have clock : ∀ e ∈ past, e.1.now ≤ now := ahead
      have scans : healthy.Scans service.redis.store now (config.keyPrefix ++ "" ++ "*")
          (scan (config.keyPrefix ++ "*")) := by
        rw [String.append_empty]
        exact proper
      have whole := scan_drops coupled clock "" (by simpa using literal) scans reached
        past_later key
      simpa [every] using whole

end Refinement

/-- A server that keeps its keys in a map and hides the expired ones. -/
def mapClient : RedisClient (InsertionMap String (TtlEntry String)) where
  getWithPttl store now key :=
    some (match (store.get key).filter fun entry => decide (now < entry.expiry) with
      | some entry => (some entry.value, (entry.expiry : Int) - now)
      | none => (none, -2))
  setPx store now key raw ttlMs := some (store.set key ⟨raw, now + ttlMs⟩)
  del store _ keys := some (store.keep fun key _ => decide (key ∉ keys))

def mapClientHealthy : mapClient.Healthy InsertionMap.empty where
  held store now key := (store.get key).filter fun entry => decide (now < entry.expiry)
  glob pattern key := ∃ text, pattern = text ++ "*" ∧ text.toList <+: key.toList
  blank_holds _ _ := rfl
  get_answers _ _ _ := rfl
  set_holds := by
    intro store now key raw ttlMs _
    refine ⟨_, rfl, ?_⟩
    intro later _ other
    rw [InsertionMap.get_set]
    by_cases same : other = key <;> simp [same, Option.filter]
  del_forgets := by
    intro store now keys
    refine ⟨_, rfl, ?_⟩
    intro later _ other
    rw [InsertionMap.get_keep]
    by_cases named : other ∈ keys
    · cases store.get other <;> simp [named]
    · simp [named]
  glob_literal := by
    intro text _ key
    constructor
    · rintro ⟨other, same, starts⟩
      rw [← String.toList_inj, String.toList_append, String.toList_append,
        List.append_cancel_right_eq] at same
      rwa [same]
    · exact fun starts => ⟨text, rfl, starts⟩

def booleans : JsonCodec Bool where
  stringify b := if b then "true" else "false"
  parse raw := if raw = "true" then some true else if raw = "false" then some false else none

/-- Room for a single key in L1. -/
def tinyCache : CacheConfiguration :=
  { enabled := true, defaultTtlMs := 60000, maxKeys := 1, redisEnabled := true,
    keyPrefix := "astraport:cache:" }

/-- The second set evicts the first key from L1; the get brings it back from L2. -/
def evictedAndPromoted : List (CacheCall Bool × CacheAnswer Bool) :=
  [(.get "a" 50, .got (some true)), (.set "b" false none 1, .done), (.set "a" true (some 100) 0, .done)]

end AstraPort.Cache
