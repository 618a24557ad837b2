import AstraPort.Cache.ArgumentKeys
import AstraPort.Cache.Invalidation
import AstraPort.Cache.PrefixAgreement

/- Decorated methods called one after another, with or without an explicit key. A mutation
   sweeps the keys of its class; a key that was given by hand need not be one of them. -/
namespace AstraPort.Cache
open MemoryCacheBackend (startsWith)

structure CacheDecoratorOptions where
  key : Option String
  ttl : Option Nat

/-- The connection at the moment of a command: whether it is up, and whether it answers. -/
structure Connection where
  online : Bool
  answers : Bool
  deriving DecidableEq

/-- A call of a Cached method. The original method, if it runs, throws (none) or ends with a
    result, none for undefined and null; a result is stored when it is there. -/
structure CachedCall (Value : Type) where
  className : String
  methodName : String
  args : List JsValue
  options : CacheDecoratorOptions
  original : Option (Option Value)
  now : Nat
  stored : Nat
  reading : Connection
  writing : Connection

/-- A call of an InvalidateCache method, which may throw. -/
structure InvalidatingCall where
  className : String
  text : Option String
  returns : Bool
  now : Nat
  connection : Connection
  scan : ScanReplies

inductive MethodCall (Value : Type) where
  | cached (call : CachedCall Value)
  | invalidating (call : InvalidatingCall)

inductive MethodAnswer (Value : Type) where
  | fromCache (value : Value)
  | ran (result : Option Value)
  | threw
  | invalidated
  deriving DecidableEq

namespace MethodCall
variable {Value : Type}

def begun : MethodCall Value → Nat
  | .cached call => call.now
  | .invalidating call => call.now

def ended : MethodCall Value → Nat
  | .cached call => call.stored
  | .invalidating call => call.now

end MethodCall

def CachedCall.key {Value : Type} (call : CachedCall Value) : String :=
  argumentsKey call.className call.methodName call.args call.options.key

/-- The prefix that an invalidation sweeps; only undefined stands for the class. -/
def InvalidatingCall.sweeps (call : InvalidatingCall) : String :=
  call.text.getD (classPrefix call.className)

/-- The original method was called, and not the cache asked in its place. -/
def MethodAnswer.runsOriginal {Value : Type} : MethodAnswer Value → Bool
  | .ran _ => true
  | .threw => true
  | _ => false

namespace CacheService
variable {Value Store : Type}

/-- Redis behind the connection of a moment. -/
def through (service : CacheService Value Store) (connection : Connection) :
    CacheService Value Store :=
  { service with redis := { service.redis with online := connection.online } }

section Calls
variable (client : RedisClient Store) (codec : JsonCodec Value) (config : CacheConfiguration)

/-- The question to the cache that a call begins with. -/
def lookUp (service : CacheService Value Store) (call : CachedCall Value) :
    CacheService Value Store × Option Value :=
  (service.through call.reading).get (client.under call.reading.answers) codec config call.key call.now

/-- Storing what the original method has given. -/
def keepResult (service : CacheService Value Store) (call : CachedCall Value) (value : Value) :
    CacheService Value Store :=
  (service.through call.writing).set (client.under call.writing.answers) codec config call.key value
    call.options.ttl call.stored

def cachedCall (service : CacheService Value Store) (call : CachedCall Value) :
    CacheService Value Store × MethodAnswer Value :=
  match service.lookUp client codec config call with
  | (service, some cached) => (service, .fromCache cached)
  | (service, none) =>
    match call.original with
    | none => (service, .threw)
    | some none => (service, .ran none)
    | some (some value) =>
      (service.keepResult client codec config call value, .ran (some value))

def invalidatingCall (service : CacheService Value Store) (call : InvalidatingCall) :
    CacheService Value Store × MethodAnswer Value :=
  if call.returns then
    (((service.through call.connection).invalidateByPrefix
      (client.under call.connection.answers) config call.sweeps call.scan call.now).1, .invalidated)
  else (service, .threw)

def methodStep (service : CacheService Value Store) :
    MethodCall Value → CacheService Value Store × MethodAnswer Value
  | .cached call => service.cachedCall client codec config call
  | .invalidating call => service.invalidatingCall client config call

/-- Methods called one after another on a server with these contents. -/
def methodMachine (contents : Store) :
    Machine (CacheService Value Store) (MethodCall Value) (MethodAnswer Value) :=
  ⟨initial config true contents, fun service call => some (service.methodStep client codec config call)⟩

end Calls
end CacheService

section Property
variable {Value Store : Type} {client : RedisClient Store} {blank : Store}

/-- What is held no longer does not come back by itself. -/
def Settled (healthy : client.Healthy blank) : Prop :=
  ∀ store now later, now ≤ later → ∀ key, healthy.held store now key = none →
    healthy.held store later key = none

/-- A sweep of the class gets through to Redis and back, where there is one. -/
def SweepReaches (healthy : client.Healthy blank) (className : String)
    (service : CacheService Value Store) : MethodCall Value → Prop
  | .cached _ => True
  | .invalidating call =>
    call.className = className → call.text = none → service.redis.configured = true →
      call.connection = ⟨true, true⟩ ∧
      healthy.Scans service.redis.store call.now
        (service.redis.keyPrefix ++ classPrefix className ++ "*")
        (call.scan (service.redis.keyPrefix ++ classPrefix className ++ "*"))

/-- Each call begins when those before it have ended. -/
def Sequential (healthy : client.Healthy blank) (className : String) :
    Machine.Permit (CacheService Value Store) (MethodCall Value) (MethodAnswer Value) :=
  fun past service call =>
    (∀ e ∈ past, e.1.ended ≤ call.begun) ∧ call.begun ≤ call.ended ∧
      SweepReaches healthy className service call

def Stores (key : String) (e : MethodCall Value × MethodAnswer Value) : Prop :=
  ∃ call value, e = (.cached call, .ran (some value)) ∧ call.key = key

/-- After an invalidation of the whole class has returned, a call of the method runs its
    original, unless another one has done so since and stored a result under the same key. -/
def NextCallRuns (className methodName : String) (args : List JsValue) (override : Option String)
    (past : List (MethodCall Value × MethodAnswer Value)) : Prop :=
  ∀ later middle earlier call answer mutation,
    past = later ++ (.cached call, answer) ::
      (middle ++ (.invalidating mutation, .invalidated) :: earlier) →
    call.className = className → call.methodName = methodName → call.args = args →
    call.options.key = override → mutation.className = className → mutation.text = none →
    (∀ e ∈ middle, ¬ Stores call.key e) → answer.runsOriginal = true

/-- No key is given by hand, or one that begins with the class name and a colon. -/
def NamedForClass (className : String) (override : Option String) : Prop :=
  override.getD "" = "" ∨ startsWith (className ++ ":") (override.getD "") = true

/-- In Redis, where there is one, the pattern of the class matches the key. -/
def MatchedWithClass (config : CacheConfiguration) (className key : String) : Prop :=
  config.redisEnabled = true →
    Glob.globMatches (config.keyPrefix ++ classPrefix className ++ "*").toList
      (config.keyPrefix ++ key).toList = true

/-- Neither layer has the key, nor will have it by waiting. -/
structure Absent (healthy : client.Healthy blank) (service : CacheService Value Store) (now : Nat)
    (key : String) : Prop where
  memory : service.memory.store.get key = none
  redis : ∀ later ≥ now, service.redis.configured = true →
    healthy.held service.redis.store later (service.redis.keyPrefix ++ key) = none

end Property

section Steps
variable {Value Store : Type} {client : RedisClient Store} {blank : Store}
  {healthy : client.Healthy blank} {codec : JsonCodec Value} {config : CacheConfiguration}
  {service : CacheService Value Store} {now : Nat} {key other : String} (answers : Bool)

theorem get_redis : (service.get client codec config key now).1.redis = service.redis := by
  unfold CacheService.get
  split
  · split
    · rfl
    · split <;> rfl
  · rfl

variable (client codec config key now) in
theorem set_redis (service : CacheService Value Store) (value : Value) (ttlMs : Option Nat) :
    (service.set client codec config key value ttlMs now).redis.keyPrefix = service.redis.keyPrefix ∧
      (service.set client codec config key value ttlMs now).redis.configured =
        service.redis.configured := by
  unfold CacheService.set
  split
  · dsimp only
    rw [RedisCacheBackend.set_server]
    exact ⟨rfl, rfl⟩
  · exact ⟨rfl, rfl⟩

variable (client config now) in
theorem sweep_redis (service : CacheService Value Store) (text : String) (scan : ScanReplies) :
    (service.invalidateByPrefix client config text scan now).1.redis.keyPrefix =
        service.redis.keyPrefix ∧
      (service.invalidateByPrefix client config text scan now).1.redis.configured =
        service.redis.configured := by
  unfold CacheService.invalidateByPrefix RedisCacheBackend.invalidateByPrefix
  split
  · dsimp only
    split <;> exact ⟨rfl, rfl⟩
  · exact ⟨rfl, rfl⟩

/- A cached call leaves the service as the lookup did, or has stored a result besides. -/
theorem cachedCall_cases (call : CachedCall Value) :
    ((service.cachedCall client codec config call).1 = (service.lookUp client codec config call).1) ∨
    ∃ value, service.cachedCall client codec config call =
      ((service.lookUp client codec config call).1.keepResult client codec config call value,
        .ran (some value)) := by
  unfold CacheService.cachedCall
  split
  · rename_i found
    exact Or.inl (by rw [found])
  · rename_i found
    split
    · exact Or.inl (by rw [found])
    · exact Or.inl (by rw [found])
    · rename_i value _
      exact Or.inr ⟨value, by rw [found]⟩

theorem cachedCall_missed {call : CachedCall Value}
    (missed : (service.lookUp client codec config call).2 = none) :
    (service.cachedCall client codec config call).2.runsOriginal = true := by
  unfold CacheService.cachedCall
  split
  · rename_i found
    rw [found] at missed
    cases missed
  · split <;> rfl

theorem cachedCall_found {call : CachedCall Value} {value : Value}
    (found : (service.lookUp client codec config call).2 = some value) :
    (service.cachedCall client codec config call).2 = .fromCache value := by
  unfold CacheService.cachedCall
  split
  · rename_i cached same
    rw [same] at found
    cases found
    rfl
  · rename_i same
    rw [same] at found
    cases found

theorem lookUp_redis (call : CachedCall Value) :
    (service.lookUp client codec config call).1.redis =
      { service.redis with online := call.reading.online } :=
  get_redis

theorem keepResult_redis (call : CachedCall Value) (value : Value) :
    (service.keepResult client codec config call value).redis.keyPrefix = service.redis.keyPrefix ∧
      (service.keepResult client codec config call value).redis.configured =
        service.redis.configured :=
  set_redis _ codec config call.stored call.key (service.through call.writing) value
    call.options.ttl

/- No call changes what Redis is configured as. -/
theorem methodStep_redis (call : MethodCall Value) :
    (service.methodStep client codec config call).1.redis.keyPrefix = service.redis.keyPrefix ∧
      (service.methodStep client codec config call).1.redis.configured = service.redis.configured := by
  cases call with
  | cached call =>
    rw [CacheService.methodStep]
    rcases cachedCall_cases call with same | ⟨value, same⟩
    · rw [same, lookUp_redis]
      exact ⟨rfl, rfl⟩
    · rw [same, (keepResult_redis call value).1, (keepResult_redis call value).2, lookUp_redis]
      exact ⟨rfl, rfl⟩
  | invalidating call =>
    rw [CacheService.methodStep, CacheService.invalidatingCall]
    split
    · exact sweep_redis _ config call.now (service.through call.connection) call.sweeps call.scan
    · exact ⟨rfl, rfl⟩

theorem Absent.getWithTtl (absent : Absent healthy service now key) :
    service.redis.getWithTtl (client.under answers) codec key now = none := by
  unfold RedisCacheBackend.getWithTtl
  split
  · rename_i available
    have configured : service.redis.configured = true := by
      rw [RedisCacheBackend.available, Bool.and_eq_true] at available
      exact available.1
    cases answers with
    | false => simp [RedisClient.under, RedisClient.failing]
    | true =>
      simp [RedisClient.under, healthy.get_answers,
        absent.redis now (Nat.le_refl now) configured]
  · rfl

theorem Absent.misses (absent : Absent healthy service now key) :
    (service.get (client.under answers) codec config key now).2 = none := by
  have missed : service.memory.get key now = (service.memory, none) := by
    simp [MemoryCacheBackend.get, absent.memory]
  simp [CacheService.get, missed, absent.getWithTtl answers]

/- Reading brings into L1 only what L2 had under the same key. -/
theorem Absent.get (absent : Absent healthy service now key) :
    Absent healthy (service.get (client.under answers) codec config other now).1 now key := by
  refine ⟨?_, by rw [get_redis]; exact absent.redis⟩
  rw [Option.eq_none_iff_forall_ne_some]
  intro entry held
  have unread : ∀ entry, (service.memory.get other now).1.store.get key ≠ some entry := by
    intro entry present
    have before := MemoryCacheBackend.get_store service.memory other now present
    rw [absent.memory] at before
    cases before
  unfold CacheService.get at held
  split at held
  · split at held
    · rename_i found
      rw [found] at unread
      exact unread entry held
    · rename_i found
      rw [found] at unread
      split at held
      · rename_i value pttlMs answered
        rcases MemoryCacheBackend.set_store _ other value _ now held with ⟨same, _⟩ | ⟨_, before⟩
        · rw [← same, absent.getWithTtl answers] at answered
          cases answered
        · exact unread entry before
      · exact unread entry held
  · rw [absent.memory] at held
    cases held

/- A SET brings in no key but its own. -/
theorem redis_set_forgets {redis : RedisCacheBackend Store} (refuses : healthy.RefusesNoTime)
    {name : String} {later : Nat} (unheld : healthy.held redis.store later name = none)
    (ahead : now ≤ later) (ne : name ≠ redis.keyPrefix ++ key) (value : Value) (ttlMs : Nat) :
    healthy.held (redis.set (client.under answers) codec key value ttlMs now).store later name =
      none := by
  unfold RedisCacheBackend.set
  split
  · cases answers with
    | false => exact unheld
    | true =>
      simp only [RedisClient.under, if_true, RedisCacheBackend.keepStore]
      rcases Nat.eq_zero_or_pos ttlMs with rfl | positive
      · rcases refuses redis.store now (redis.keyPrefix ++ key) (codec.stringify value) with
          same | forgotten
        · rw [same later ahead, unheld]
        · rw [forgotten later ahead, if_neg ne, unheld]
      · obtain ⟨stored, answered, holds⟩ := healthy.set_holds redis.store now (redis.keyPrefix ++ key)
          (codec.stringify value) ttlMs positive
        rw [answered, Option.getD_some, holds later ahead, if_neg ne, unheld]
  · exact unheld

theorem Absent.set (absent : Absent healthy service now key) (refuses : healthy.RefusesNoTime)
    (ne : key ≠ other) {stored : Nat} (ahead : now ≤ stored) (value : Value) (ttlMs : Option Nat) :
    Absent healthy (service.set (client.under answers) codec config other value ttlMs stored)
      stored key := by
  have same := set_redis (client.under answers) codec config stored other service value ttlMs
  constructor
  · unfold CacheService.set
    split
    · rw [Option.eq_none_iff_forall_ne_some]
      intro entry held
      rcases MemoryCacheBackend.set_store _ other value _ stored held with ⟨same, _⟩ | ⟨_, before⟩
      · exact ne same
      · rw [absent.memory] at before
        cases before
    · exact absent.memory
  · intro later reached configured
    rw [same.2] at configured
    rw [same.1]
    have unheld := absent.redis later (Nat.le_trans ahead reached) configured
    unfold CacheService.set
    split
    · exact redis_set_forgets answers refuses unheld reached
        (fun same => ne ((prefixed_eq _ _ _).mp same)) value _
    · exact unheld

/- Whatever a SCAN loop is told to delete, it brings nothing in. -/
theorem deleteReplies_forgets (healthy : client.Healthy blank) {store : Store} {name : String}
    (replies : List (Option (List String))) {later : Nat} (ahead : now ≤ later)
    (unheld : healthy.held store later name = none) :
    healthy.held (RedisCacheBackend.deleteReplies client now store replies).1 later name = none := by
  induction replies generalizing store with
  | nil => exact unheld
  | cons reply rest ih =>
    cases reply with
    | none => exact unheld
    | some keys =>
      rw [RedisCacheBackend.deleteReplies]
      split
      · exact ih unheld
      · obtain ⟨left, deleted, forgets⟩ := healthy.del_forgets store now keys
        simp only [deleted]
        apply ih
        rw [forgets later ahead, unheld, ite_self]

/- Nor does the sweep of a pattern, answered or not. -/
theorem redis_sweep_forgets {redis : RedisCacheBackend Store} {name : String} {later : Nat}
    (unheld : healthy.held redis.store later name = none) (ahead : now ≤ later) (text : String)
    (scan : ScanReplies) :
    healthy.held (redis.invalidateByPrefix (client.under answers) text scan now).1.store later name =
      none := by
  unfold RedisCacheBackend.invalidateByPrefix
  split
  · cases answers with
    | false =>
      rw [RedisClient.under, if_neg (by decide)]
      dsimp only
      rw [deleteReplies_failing, unheld]
    | true => exact deleteReplies_forgets healthy _ ahead unheld
  · exact unheld

theorem Absent.sweep (absent : Absent healthy service now key) (text : String) (scan : ScanReplies) :
    Absent healthy (service.invalidateByPrefix (client.under answers) config text scan now).1 now
      key := by
  have same := sweep_redis (client.under answers) config now service text scan
  constructor
  · unfold CacheService.invalidateByPrefix
    split
    · simp [MemoryCacheBackend.invalidateByPrefix, InsertionMap.get_keep, absent.memory]
    · exact absent.memory
  · intro later ahead configured
    rw [same.2] at configured
    rw [same.1]
    have unheld := absent.redis later ahead configured
    unfold CacheService.invalidateByPrefix
    split
    · exact redis_sweep_forgets answers unheld ahead text scan
    · exact unheld

theorem Absent.through (absent : Absent healthy service now key) (connection : Connection) :
    Absent healthy (service.through connection) now key := ⟨absent.memory, absent.redis⟩

theorem Absent.later {next : Nat} (absent : Absent healthy service now key) (ahead : now ≤ next) :
    Absent healthy service next key :=
  ⟨absent.memory, fun later reached => absent.redis later (Nat.le_trans ahead reached)⟩

theorem Absent.lookUp {call : CachedCall Value} (absent : Absent healthy service call.now key) :
    Absent healthy (service.lookUp client codec config call).1 call.now key :=
  (absent.through call.reading).get call.reading.answers

/- A key that neither layer has stays away until a call stores a result under it. -/
theorem Absent.step {call : MethodCall Value} (absent : Absent healthy service call.begun key)
    (refuses : healthy.RefusesNoTime) (ordered : call.begun ≤ call.ended)
    (stores : ¬ Stores key (call, (service.methodStep client codec config call).2)) :
    Absent healthy (service.methodStep client codec config call).1 call.ended key := by
  cases call with
  | cached call =>
    simp only [CacheService.methodStep] at stores ⊢
    have looked : Absent healthy (service.lookUp client codec config call).1 call.now key :=
      absent.lookUp
    rcases cachedCall_cases call with same | ⟨value, same⟩
    · rw [same]
      exact looked.later ordered
    · rw [same] at stores ⊢
      have ne : key ≠ call.key := fun own => stores ⟨call, value, rfl, own.symm⟩
      exact (looked.through call.writing).set call.writing.answers refuses ne ordered value
        call.options.ttl
  | invalidating call =>
    rw [CacheService.methodStep, CacheService.invalidatingCall]
    split
    · exact (absent.through call.connection).sweep call.connection.answers call.sweeps call.scan
    · exact absent

/- The sweep of a class takes a key with it that begins with the class prefix, if the pattern
   in Redis matches the key as well. -/
theorem class_sweep {mutation : InvalidatingCall} {className : String}
    (documented : Documented healthy) (settled : Settled healthy) (enabled : config.enabled = true)
    (same_front : service.redis.keyPrefix = config.keyPrefix)
    (same_switch : service.redis.configured = config.redisEnabled)
    (own : mutation.className = className) (whole : mutation.text = none)
    (reaches : SweepReaches healthy className service (.invalidating mutation))
    (begins : startsWith (classPrefix className) key = true)
    (matched : MatchedWithClass config className key)
    (returned : (service.invalidatingCall client config mutation).2 = .invalidated) :
    Absent healthy (service.invalidatingCall client config mutation).1 mutation.now key := by
  have text : mutation.sweeps = classPrefix className := by
    rw [InvalidatingCall.sweeps, whole, own, Option.getD_none]
  unfold CacheService.invalidatingCall at returned ⊢
  split at returned
  · rename_i ends
    rw [if_pos ends, text]
    have same := sweep_redis (client.under mutation.connection.answers) config mutation.now
      (service.through mutation.connection) (classPrefix className) mutation.scan
    constructor
    · simp [CacheService.invalidateByPrefix, enabled, MemoryCacheBackend.invalidateByPrefix,
        CacheService.through, InsertionMap.get_keep, begins]
    · intro later ahead configured
      rw [same.2] at configured
      obtain ⟨connected, scans⟩ := reaches own whole configured
      have reachable : (service.through mutation.connection).redis.available = true := by
        rw [RedisCacheBackend.available, configured, connected]
        rfl
      rw [same.1, invalidateByPrefix_reaches mutation.scan mutation.now enabled reachable rfl,
        connected]
      dsimp only [RedisClient.under, CacheService.through]
      rw [if_pos rfl, RedisCacheBackend.deleteReplies_held healthy _ scans.never_rejects ahead]
      split
      · rfl
      · rename_i unlisted
        apply settled _ mutation.now later ahead _
        by_contra held
        refine unlisted (scans.all_matching _ ((documented _ _).mpr ?_) held)
        rw [same_front]
        exact matched (same_switch.symm.trans configured)
  · cases returned

/- A key given by hand is one of the class only by its own first characters. -/
theorem namedForClass_iff (className methodName : String) (args : List JsValue)
    (override : Option String) :
    startsWith (classPrefix className) (argumentsKey className methodName args override) = true ↔
      NamedForClass className override := by
  unfold NamedForClass argumentsKey
  dsimp only
  split
  · rename_i empty
    exact iff_of_true (DecoratedCache.startsWith_cacheKey _ _ _) (Or.inl empty)
  · rename_i given
    simp only [startsWith_iff, classPrefix, String.toList_append, List.append_assoc,
      List.prefix_append_right_inj]
    exact (or_iff_right given).symm

/- Where the two layers agree on the class prefix, a key of the class is always matched. -/
theorem matched_of_agreed {className : String}
    (agreed : AgreedPrefix config.keyPrefix (classPrefix className))
    (begins : startsWith (classPrefix className) key = true) :
    MatchedWithClass config className key := by
  intro _
  rw [(agreed_iff config.keyPrefix (classPrefix className)).mp agreed]
  exact begins

end Steps

section Runs
variable {Value Store : Type} {client : RedisClient Store} {blank contents : Store}
  {healthy : client.Healthy blank} {codec : JsonCodec Value} {config : CacheConfiguration}
  {className : String} {past : List (MethodCall Value × MethodAnswer Value)}
  {service : CacheService Value Store}

theorem method_moved {call : MethodCall Value} {after : CacheService Value Store}
    {answer : MethodAnswer Value}
    (moved : (CacheService.methodMachine client codec config contents).step service call =
      some (after, answer)) :
    after = (service.methodStep client codec config call).1 ∧
      answer = (service.methodStep client codec config call).2 :=
  (Prod.mk.inj (Option.some.inj moved)).imp Eq.symm Eq.symm

theorem method_answers {call : MethodCall Value} {answer : MethodAnswer Value}
    (same : (service.methodStep client codec config call).2 = answer) :
    (CacheService.methodMachine client codec config contents).step service call =
      some ((service.methodStep client codec config call).1, answer) := by
  rw [← same]
  rfl

/- What Redis is configured as stays as it was at the start. -/
theorem redis_always (run : (CacheService.methodMachine client codec config contents).Run
    (Sequential healthy className) past service) :
    service.redis.keyPrefix = config.keyPrefix ∧ service.redis.configured = config.redisEnabled := by
  refine run.invariant (fun _ service => service.redis.keyPrefix = config.keyPrefix ∧
    service.redis.configured = config.redisEnabled) ⟨rfl, rfl⟩ ?_
  intro past before call after answer _ known _ moved
  obtain ⟨rfl, rfl⟩ := method_moved moved
  rw [(methodStep_redis call).1, (methodStep_redis call).2]
  exact known

/- From an invalidation of the class on, its keys are absent until one is stored again. -/
theorem absent_since {key : String} {later earlier : List (MethodCall Value × MethodAnswer Value)}
    {mutation : InvalidatingCall} (documented : Documented healthy) (settled : Settled healthy)
    (refuses : healthy.RefusesNoTime) (enabled : config.enabled = true)
    (run : (CacheService.methodMachine client codec config contents).Run
      (Sequential healthy className) past service)
    (split : past = later ++ (.invalidating mutation, .invalidated) :: earlier)
    (own : mutation.className = className) (whole : mutation.text = none)
    (begins : startsWith (classPrefix className) key = true)
    (matched : MatchedWithClass config className key)
    (unstored : ∀ e ∈ later, ¬ Stores key e) {now : Nat} (finished : ∀ e ∈ past, e.1.ended ≤ now) :
    Absent healthy service now key := by
  have kept := run.after split (fun later service => (∀ e ∈ later, ¬ Stores key e) →
    ∀ now, (∀ e ∈ later ++ (.invalidating mutation, .invalidated) :: earlier, e.1.ended ≤ now) →
      Absent healthy service now key) ?_ ?_
  · exact kept unstored now (by rwa [← split])
  · intro before after reached permitted moved _ now finished
    obtain ⟨rfl, returned⟩ := method_moved moved
    obtain ⟨same_front, same_switch⟩ := redis_always reached
    have left := class_sweep documented settled enabled same_front same_switch own whole
      permitted.2.2 begins matched returned.symm
    exact left.later (finished _ List.mem_cons_self)
  · intro later before call after answer reached known permitted moved unstored now finished
    obtain ⟨rfl, rfl⟩ := method_moved moved
    obtain ⟨newest, rest⟩ := List.forall_mem_cons.mp unstored
    have absent := known rest call.begun permitted.1
    exact (absent.step refuses permitted.2.1 newest).later (finished _ List.mem_cons_self)

/- Such an invalidation is final: the next call of the method calls the original. -/
theorem next_call_runs {methodName : String} {args : List JsValue} {override : Option String}
    (documented : Documented healthy) (settled : Settled healthy) (refuses : healthy.RefusesNoTime)
    (fits : config.enabled = false ∨ NamedForClass className override ∧
      MatchedWithClass config className (argumentsKey className methodName args override))
    (run : (CacheService.methodMachine client codec config contents).Run
      (Sequential healthy className) past service) :
    NextCallRuns className methodName args override past := by
  intro later middle earlier call answer mutation split same_class same_method same_args same_key
    own whole unstored
  have key : call.key = argumentsKey className methodName args override := by
    rw [CachedCall.key, same_class, same_method, same_args, same_key]
  obtain ⟨before, after, reached, permitted, moved⟩ := run.exchange split
  obtain ⟨rfl, rfl⟩ := method_moved moved
  apply cachedCall_missed
  cases enabled : config.enabled with
  | false => simp [CacheService.lookUp, CacheService.get, enabled]
  | true =>
    obtain ⟨named, matched⟩ := fits.resolve_left (by rw [enabled]; decide)
    have begins := (namedForClass_iff className methodName args override).mpr named
    rw [key] at unstored
    have absent := absent_since documented settled refuses enabled reached rfl own whole begins
      matched unstored permitted.1
    rw [CacheService.lookUp, key]
    exact (absent.through call.reading).misses call.reading.answers

end Runs

section Stale
variable {Value Store : Type} {client : RedisClient Store} {blank : Store}
  {healthy : client.Healthy blank} {codec : JsonCodec Value} {config : CacheConfiguration}
  {service : CacheService Value Store} {key className : String} {value : Value} {now : Nat}

theorem get_held (enabled : config.enabled = true) {entry : CacheEntry Value}
    (held : service.memory.store.get key = some entry) (unexpired : now < entry.expiresAt) :
    (service.get client codec config key now).2 = some entry.value := by
  have hit : (service.memory.get key now).2 = some entry.value := by
    rw [MemoryCacheBackend.get_answer, held]
    simp [unexpired]
  unfold CacheService.get
  rw [if_pos enabled]
  split
  · rename_i found
    rw [← hit, found]
  · rename_i found
    rw [found] at hit
    cases hit

theorem get_behind (enabled : config.enabled = true)
    (missed : service.memory.store.get key = none) {pttlMs : Nat}
    (found : service.redis.getWithTtl client codec key now = some (value, pttlMs)) :
    (service.get client codec config key now).2 = some value := by
  have memory : service.memory.get key now = (service.memory, none) := by
    simp [MemoryCacheBackend.get, missed]
  simp [CacheService.get, enabled, memory, found]

/-- A call that finds nothing stores its result, at one instant and for a millisecond. -/
def storingCall (className methodName : String) (args : List JsValue) (override : Option String)
    (value : Value) (writing : Connection) : CachedCall Value :=
  { className := className, methodName := methodName, args := args,
    options := { key := override, ttl := some 1 }, original := some (some value),
    now := 0, stored := 0, reading := ⟨true, true⟩, writing := writing }

/-- An invalidation of the class at that instant, to which no key is listed. -/
def emptySweep (className : String) : InvalidatingCall :=
  { className := className, text := none, returns := true, now := 0, connection := ⟨true, true⟩,
    scan := fun _ => [some []] }

theorem emptySweep_step (enabled : config.enabled = true) (service : CacheService Value Store) :
    service.methodStep client codec config (.invalidating (emptySweep className)) =
      ({ memory := (service.memory.invalidateByPrefix (classPrefix className)).1,
         redis := { service.redis with online := true } }, .invalidated) := by
  have unswept : ({ service.redis with online := true }.invalidateByPrefix client
      (classPrefix className) (fun _ => [some []]) 0).1 = { service.redis with online := true } := by
    unfold RedisCacheBackend.invalidateByPrefix
    split <;> rfl
  simp only [CacheService.methodStep, CacheService.invalidatingCall, emptySweep, if_true,
    CacheService.invalidateByPrefix, enabled, CacheService.through, InvalidatingCall.sweeps,
    Option.getD_none, RedisClient.under, unswept]

theorem initial_absent (online : Bool) : Absent healthy
    (CacheService.initial config online blank : CacheService Value Store) now key :=
  ⟨rfl, fun later _ _ => healthy.blank_holds later _⟩

theorem cachedCall_stores {call : CachedCall Value}
    (missed : (service.lookUp client codec config call).2 = none)
    (given : call.original = some (some value)) : service.cachedCall client codec config call =
      ((service.lookUp client codec config call).1.keepResult client codec config call value,
        .ran (some value)) := by
  unfold CacheService.cachedCall
  split
  · rename_i found
    rw [found] at missed
    cases missed
  · rename_i found
    rw [found, given]

/- The first call on an empty cache stores its result where it reaches. -/
theorem storingCall_step (healthy : client.Healthy blank) (codec : JsonCodec Value)
    (className : String) (enabled : config.enabled = true) (methodName : String)
    (args : List JsValue) (override : Option String) (value : Value) (writing : Connection) :
    let call := storingCall className methodName args override value writing
    ∃ service : CacheService Value Store,
      (CacheService.initial config true blank : CacheService Value Store).methodStep client codec
        config (.cached call) = (service, .ran (some value)) ∧
      service.memory.store.get call.key = some ⟨value, 1⟩ ∧
      service.redis = RedisCacheBackend.set (client.under writing.answers) codec
        ⟨config.keyPrefix, config.redisEnabled, writing.online, blank⟩ call.key value 1 0 := by
  intro call
  let start : CacheService Value Store := CacheService.initial config true blank
  have absent : Absent healthy (start.through ⟨true, true⟩) 0 call.key := initial_absent true
  have missed : (start.lookUp client codec config call).2 = none := absent.misses true
  refine ⟨_, cachedCall_stores missed rfl, ?_, ?_⟩
  · simp [CacheService.keepResult, CacheService.set, enabled, MemoryCacheBackend.set, call,
      storingCall]
  · simp only [CacheService.keepResult, CacheService.set, enabled, if_true, CacheService.through,
      lookUp_redis]
    rfl

/- After that call and the sweep, a method whose invalidations are final finds nothing. -/
theorem finds_nothing (healthy : client.Healthy blank) (enabled : config.enabled = true)
    {methodName : String} {args : List JsValue} {override : Option String} {writing : Connection}
    (final : ∀ contents past service,
      (CacheService.methodMachine client codec config contents).Run
        (Sequential healthy className) past service →
      NextCallRuns className methodName args override past)
    {stored : CacheService Value Store}
    (first : (CacheService.initial config true blank : CacheService Value Store).methodStep client
      codec config (.cached (storingCall className methodName args override value writing)) =
        (stored, .ran (some value)))
    (scans : stored.redis.configured = true → healthy.Scans stored.redis.store 0
      (stored.redis.keyPrefix ++ classPrefix className ++ "*") [some []]) :
    (CacheService.get client codec config
      { memory := (stored.memory.invalidateByPrefix (classPrefix className)).1,
        redis := { stored.redis with online := true } }
      (argumentsKey className methodName args override) 0).2 = none := by
  let call := storingCall className methodName args override value writing
  let swept : CacheService Value Store :=
    { memory := (stored.memory.invalidateByPrefix (classPrefix className)).1,
      redis := { stored.redis with online := true } }
  have startable : Sequential healthy className []
      (CacheService.initial config true blank : CacheService Value Store) (.cached call) :=
    ⟨by simp, Nat.le_refl 0, trivial⟩
  have begun : (CacheService.methodMachine client codec config blank).Run
      (Sequential healthy className) [(.cached call, .ran (some value))] stored :=
    Machine.Run.start.next startable (congrArg some first)
  have sweepable : Sequential healthy className [(.cached call, .ran (some value))] stored
      (.invalidating (emptySweep className)) :=
    ⟨by simp [call, storingCall, emptySweep, MethodCall.begun, MethodCall.ended], Nat.le_refl 0,
      fun _ _ configured => ⟨rfl, scans configured⟩⟩
  have invalidated : (CacheService.methodMachine client codec config blank).Run
      (Sequential healthy className)
      [(.invalidating (emptySweep className), .invalidated), (.cached call, .ran (some value))]
      swept := begun.next sweepable (congrArg some (emptySweep_step enabled stored))
  have repeatable : Sequential healthy className
      [(.invalidating (emptySweep className), .invalidated), (.cached call, .ran (some value))]
      swept (.cached call) :=
    ⟨by simp [call, storingCall, emptySweep, MethodCall.begun, MethodCall.ended], Nat.le_refl 0,
      trivial⟩
  have again := invalidated.next repeatable rfl
  have runs : (swept.methodStep client codec config (.cached call)).2.runsOriginal = true :=
    final _ _ _ again [] [] _ call _ (emptySweep className) rfl rfl rfl rfl rfl rfl rfl (by simp)
  rw [Option.eq_none_iff_forall_ne_some]
  intro cached found
  have served : (swept.methodStep client codec config (.cached call)).2 = .fromCache cached :=
    cachedCall_found found
  rw [served] at runs
  cases runs

/- What is not swept out of L1 is found there. -/
theorem named_when_final (healthy : client.Healthy blank) (value : Value)
    (enabled : config.enabled = true) {methodName : String} {args : List JsValue}
    {override : Option String}
    (final : ∀ contents past service,
      (CacheService.methodMachine client codec config contents).Run
        (Sequential healthy className) past service →
      NextCallRuns className methodName args override past) : NamedForClass className override := by
  rw [← namedForClass_iff className methodName args]
  by_contra outside
  rw [Bool.not_eq_true] at outside
  obtain ⟨stored, first, memory, redis⟩ := storingCall_step healthy codec className enabled
    methodName args override value ⟨false, true⟩
  have unwritten : stored.redis.store = blank := by
    rw [redis]
    simp [RedisCacheBackend.set, RedisCacheBackend.available]
  have nothing := finds_nothing healthy enabled final first fun _ =>
    ⟨by simp, by simp [listed], fun key _ held => absurd (healthy.blank_holds 0 key) (unwritten ▸ held)⟩
  have kept : (stored.memory.invalidateByPrefix (classPrefix className)).1.store.get
      (argumentsKey className methodName args override) = some ⟨value, 1⟩ := by
    have held : stored.memory.store.get (argumentsKey className methodName args override) =
      some ⟨value, 1⟩ := memory
    simp [MemoryCacheBackend.invalidateByPrefix, InsertionMap.get_keep, held, outside, Option.filter]
  rw [get_held enabled kept Nat.one_pos] at nothing
  cases nothing

/- What is not swept out of L2 is found there. -/
theorem matched_when_final (healthy : client.Healthy blank) (documented : Documented healthy)
    (readable : codec.parse (codec.stringify value) = some value)
    (enabled : config.enabled = true) {methodName : String} {args : List JsValue}
    {override : Option String}
    (final : ∀ contents past service,
      (CacheService.methodMachine client codec config contents).Run
        (Sequential healthy className) past service →
      NextCallRuns className methodName args override past) :
    MatchedWithClass config className (argumentsKey className methodName args override) := by
  intro configured
  by_contra unmatched
  have named := named_when_final healthy value enabled final
  rw [← namedForClass_iff className methodName args] at named
  obtain ⟨stored, first, memory, redis⟩ := storingCall_step healthy codec className
    enabled methodName args override value ⟨true, true⟩
  obtain ⟨written, answered, holds⟩ := healthy.set_holds blank 0
    (config.keyPrefix ++ argumentsKey className methodName args override) (codec.stringify value) 1
    Nat.one_pos
  have reached : stored.redis = ⟨config.keyPrefix, true, true, written⟩ := by
    simp [redis, RedisCacheBackend.set, RedisCacheBackend.available, configured, RedisClient.under,
      RedisCacheBackend.keepStore, CachedCall.key, storingCall, answered]
  have nothing := finds_nothing healthy enabled final first fun _ => by
    rw [reached]
    refine ⟨by simp, by simp [listed], fun key found held => ?_⟩
    rw [holds 0 (Nat.le_refl 0)] at held
    split at held
    · rename_i same
      rw [same, documented] at found
      exact absurd found unmatched
    · exact absurd (healthy.blank_holds 0 key) held
  have missed : (stored.memory.invalidateByPrefix (classPrefix className)).1.store.get
      (argumentsKey className methodName args override) = none := by
    simp [MemoryCacheBackend.invalidateByPrefix, InsertionMap.get_keep, named]
  have found : RedisCacheBackend.getWithTtl client codec { stored.redis with online := true }
      (argumentsKey className methodName args override) 0 = some (value, 1) := by
    rw [reached]
    simp [RedisCacheBackend.getWithTtl, RedisCacheBackend.available, healthy.get_answers,
      holds 0 (Nat.le_refl 0), readable]
  rw [get_behind enabled missed found] at nothing
  cases nothing

end Stale

/- After every invalidation of a class that reaches Redis, in every sequence of calls, the next
   call of a method runs the original exactly where the cache is off, or the method has no key of
   its own or one with the class name and a colon in front, and the pattern of the class matches
   its key in Redis. -/
theorem class_invalidation_final_iff {Value Store : Type} {client : RedisClient Store}
    {blank : Store} (healthy : client.Healthy blank) (documented : Documented healthy)
    (settled : Settled healthy) (refuses : healthy.RefusesNoTime) (codec : JsonCodec Value)
    {value : Value} (readable : codec.parse (codec.stringify value) = some value)
    (config : CacheConfiguration) (className methodName : String) (args : List JsValue)
    (override : Option String) :
    (∀ contents past service,
      (CacheService.methodMachine client codec config contents).Run
        (Sequential healthy className) past service →
      NextCallRuns className methodName args override past) ↔
    config.enabled = false ∨ NamedForClass className override ∧
      MatchedWithClass config className (argumentsKey className methodName args override) := by
  constructor
  · intro final
    cases enabled : config.enabled with
    | false => exact Or.inl rfl
    | true =>
      exact Or.inr ⟨named_when_final healthy value enabled final,
        matched_when_final healthy documented readable enabled final⟩
  · intro fits contents past service run
    exact next_call_runs documented settled refuses fits run

theorem globbing_settled : Settled globbing := by
  intro store now later ahead key absent
  have expired : ∀ entry, store.get key = some entry → entry.expiry ≤ now := by
    intro entry held
    by_contra live
    simp [globbing, mapClientHealthy, held, Option.filter, Nat.lt_of_not_le live] at absent
  simp only [globbing, mapClientHealthy, Option.filter_eq_none_iff]
  intro entry held
  simp [Nat.le_trans (expired entry held) ahead]

theorem class_invalidation_final_without_keys :
    (∀ contents past service,
      (CacheService.methodMachine mapClient booleans tinyCache contents).Run
        (Sequential globbing "PortfolioService") past service →
      NextCallRuns "PortfolioService" "getSummary" [] none past) ↔
    tinyCache.enabled = false ∨ NamedForClass "PortfolioService" none ∧
      MatchedWithClass tinyCache "PortfolioService"
        (argumentsKey "PortfolioService" "getSummary" [] none) :=
  class_invalidation_final_iff globbing (fun _ _ => Iff.rfl) globbing_settled mapClient_refuses booleans
    (show booleans.parse (booleans.stringify true) = some true from rfl) tinyCache "PortfolioService"
    "getSummary" [] none

/-- A summary cached under a key of its own. -/
def summaryCall (now : Nat) (result : Bool) : CachedCall Bool :=
  { className := "PortfolioService", methodName := "getSummary", args := [],
    options := { key := some "summary", ttl := none }, original := some (some result),
    now := now, stored := now + 5, reading := ⟨true, true⟩, writing := ⟨true, true⟩ }

/-- The whole class is invalidated; Redis lists no key under its prefix. -/
def refreshCall : InvalidatingCall :=
  { className := "PortfolioService", text := none, returns := true, now := 1000,
    connection := ⟨true, true⟩, scan := fun _ => [some []] }

/- The summary is read, the portfolio refreshed, and the summary read again: it is the old one. -/
theorem keyed_summary_is_stale :
    ¬ ∀ (className methodName : String) (args : List JsValue) (override : Option String)
      contents past service,
      (CacheService.methodMachine mapClient booleans tinyCache contents).Run
        (Sequential globbing className) past service →
      NextCallRuns className methodName args override past := by
  intro all
  let start : CacheService Bool (InsertionMap String (TtlEntry String)) :=
    CacheService.initial tinyCache true InsertionMap.empty
  let stored := (start.methodStep mapClient booleans tinyCache (.cached (summaryCall 0 true))).1
  let swept := (stored.methodStep mapClient booleans tinyCache (.invalidating refreshCall)).1
  have ran : (start.methodStep mapClient booleans tinyCache (.cached (summaryCall 0 true))).2 =
      .ran (some true) := by decide +kernel
  have returned : (stored.methodStep mapClient booleans tinyCache (.invalidating refreshCall)).2 =
      .invalidated := by decide +kernel
  have stale : (swept.methodStep mapClient booleans tinyCache (.cached (summaryCall 2000 false))).2 =
      .fromCache true := by decide +kernel
  have contents : stored.redis.store =
      InsertionMap.empty.set "astraport:cache:cache:summary" ⟨"true", 60005⟩ := by rfl
  have unmatched : Glob.globMatches "astraport:cache:cache:PortfolioService:*".toList
      "astraport:cache:cache:summary".toList = false := by decide +kernel
  have pattern : stored.redis.keyPrefix ++ classPrefix "PortfolioService" ++ "*" =
      "astraport:cache:cache:PortfolioService:*" := by decide +kernel
  have scans : globbing.Scans stored.redis.store 1000
      (stored.redis.keyPrefix ++ classPrefix "PortfolioService" ++ "*") [some []] := by
    rw [pattern, contents]
    refine ⟨by simp, by simp [listed], ?_⟩
    intro key found held
    by_cases same : key = "astraport:cache:cache:summary"
    · rw [same] at found
      exact absurd (unmatched.symm.trans found) Bool.false_ne_true
    · simp [globbing, mapClientHealthy, same] at held
  have begun : Sequential globbing "PortfolioService" [] start (.cached (summaryCall 0 true)) :=
    ⟨by simp, by decide, trivial⟩
  have refreshed : Sequential globbing "PortfolioService"
      [(.cached (summaryCall 0 true), .ran (some true))] stored (.invalidating refreshCall) :=
    ⟨by simp [MethodCall.begun, MethodCall.ended, summaryCall, refreshCall], Nat.le_refl _,
      fun _ _ _ => ⟨rfl, scans⟩⟩
  have repeated : Sequential globbing "PortfolioService"
      [(.invalidating refreshCall, .invalidated),
        (.cached (summaryCall 0 true), .ran (some true))] swept (.cached (summaryCall 2000 false)) :=
    ⟨by simp [MethodCall.begun, MethodCall.ended, summaryCall, refreshCall], by decide, trivial⟩
  have first : (CacheService.methodMachine mapClient booleans tinyCache InsertionMap.empty).Run
      (Sequential globbing "PortfolioService") [(.cached (summaryCall 0 true), .ran (some true))]
      stored := Machine.Run.start.next begun (method_answers ran)
  have second := first.next refreshed (method_answers returned)
  have third := second.next repeated (method_answers stale)
  have runs := all "PortfolioService" "getSummary" [] (some "summary") _ _ _ third [] [] _ _ _
    refreshCall rfl rfl rfl rfl rfl rfl rfl (by simp)
  cases runs

end AstraPort.Cache
