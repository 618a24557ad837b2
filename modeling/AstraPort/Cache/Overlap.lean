import AstraPort.Cache.Service

/- get, set and del of the cache as activities that interleave at their awaits, on a server
   that answers every command. A call does its part on L1 at once; each later turn is one
   command of Redis, or the write of its answer into L1. -/
namespace AstraPort.Cache

/-- The await an activity stands at. -/
inductive CacheStage (Value : Type) where
  | read (key : String)
  | promote (key : String) (value : Value) (pttlMs : Nat)
  | write (key : String) (value : Value) (ttlMs : Nat)
  | delete (key : String)
  deriving DecidableEq

structure OverlappingCache (Value Store : Type) where
  service : CacheService Value Store
  tasks : InsertionMap Nat (CacheStage Value)

inductive OverlapCall (Value : Type) where
  | get (task : Nat) (key : String)
  | set (task : Nat) (key : String) (value : Value) (ttlMs : Option Nat)
  | del (task : Nat) (key : String)
  | proceed (task : Nat)
  deriving DecidableEq

def OverlapCall.task {Value : Type} : OverlapCall Value → Nat
  | .get task _ => task
  | .set task _ _ _ => task
  | .del task _ => task
  | .proceed task => task

structure TimedOverlap (Value : Type) where
  now : Nat
  call : OverlapCall Value
  deriving DecidableEq

/-- What a step shows: an await, or the end of an activity on its key. -/
inductive OverlapAnswer (Value : Type) where
  | waiting
  | got (key : String) (value : Option Value)
  | done (key : String)
  deriving DecidableEq

namespace OverlappingCache
variable {Value Store : Type}

def atStage (cache : OverlappingCache Value Store) (task : Nat) (stage : CacheStage Value) :
    OverlappingCache Value Store := { cache with tasks := cache.tasks.set task stage }

def withoutTask (cache : OverlappingCache Value Store) (task : Nat) :
    OverlappingCache Value Store := { cache with tasks := cache.tasks.delete task }

def withMemory (cache : OverlappingCache Value Store) (memory : MemoryCacheBackend Value) :
    OverlappingCache Value Store :=
  { cache with service := { cache.service with memory := memory } }

def withRedis (cache : OverlappingCache Value Store) (redis : RedisCacheBackend Store) :
    OverlappingCache Value Store :=
  { cache with service := { cache.service with redis := redis } }

section Calls
variable (client : RedisClient Store) (codec : JsonCodec Value) (config : CacheConfiguration)

/-- From one await to the next. -/
def turn (cache : OverlappingCache Value Store) (task now : Nat) :
    CacheStage Value → OverlappingCache Value Store × OverlapAnswer Value
  | .read key =>
    match cache.service.redis.getWithTtl client codec key now with
    | some (value, pttlMs) => (cache.atStage task (.promote key value pttlMs), .waiting)
    | none => (cache.withoutTask task, .got key none)
  | .promote key value pttlMs =>
    let promoteTtl := max 1 pttlMs
    ((cache.withMemory (cache.service.memory.set key value promoteTtl now)).withoutTask task,
      .got key (some value))
  | .write key value ttlMs =>
    ((cache.withRedis (cache.service.redis.set client codec key value ttlMs now)).withoutTask task,
      .done key)
  | .delete key =>
    ((cache.withRedis (cache.service.redis.del client key now)).withoutTask task, .done key)

/-- Each call up to its first await. -/
def start (cache : OverlappingCache Value Store) (now : Nat) :
    OverlapCall Value → OverlappingCache Value Store × OverlapAnswer Value
  | .get task key =>
    if config.enabled then
      match cache.service.memory.get key now with
      | (memory, some memoryValue) => (cache.withMemory memory, .got key (some memoryValue))
      | (memory, none) => ((cache.withMemory memory).atStage task (.read key), .waiting)
    else (cache, .got key none)
  | .set task key value ttlMs =>
    if config.enabled then
      let ttl := ttlMs.getD config.defaultTtlMs
      ((cache.withMemory (cache.service.memory.set key value ttl now)).atStage task
        (.write key value ttl), .waiting)
    else (cache, .done key)
  | .del task key =>
    if config.enabled then
      ((cache.withMemory (cache.service.memory.del key)).atStage task (.delete key), .waiting)
    else (cache, .done key)
  | .proceed _ => (cache, .waiting)

def step (cache : OverlappingCache Value Store) (timed : TimedOverlap Value) :
    Option (OverlappingCache Value Store × OverlapAnswer Value) :=
  match timed.call with
  | .proceed task => (cache.tasks.get task).map (cache.turn client codec task timed.now)
  | call =>
    if (cache.tasks.get call.task).isSome then none else some (cache.start config timed.now call)

def machine (blank : Store) :
    Machine (OverlappingCache Value Store) (TimedOverlap Value) (OverlapAnswer Value) :=
  ⟨⟨CacheService.initial config true blank, InsertionMap.empty⟩, step client codec config⟩

end Calls

/-- Everything a step of an enabled cache can do. -/
inductive Move (client : RedisClient Store) (codec : JsonCodec Value) (config : CacheConfiguration)
    (cache : OverlappingCache Value Store) (now : Nat) :
    OverlapCall Value → OverlappingCache Value Store → OverlapAnswer Value → Prop where
  | hit {task : Nat} {key : String} {value : Value} (free : cache.tasks.get task = none)
      (found : (cache.service.memory.get key now).2 = some value) :
      Move client codec config cache now (.get task key)
        (cache.withMemory (cache.service.memory.get key now).1) (.got key (some value))
  | missed {task : Nat} {key : String} (free : cache.tasks.get task = none)
      (absent : (cache.service.memory.get key now).2 = none) :
      Move client codec config cache now (.get task key)
        ((cache.withMemory (cache.service.memory.get key now).1).atStage task (.read key)) .waiting
  | storing {task : Nat} {key : String} {value : Value} {ttlMs : Option Nat}
      (free : cache.tasks.get task = none) :
      Move client codec config cache now (.set task key value ttlMs)
        ((cache.withMemory (cache.service.memory.set key value (ttlMs.getD config.defaultTtlMs)
          now)).atStage task (.write key value (ttlMs.getD config.defaultTtlMs))) .waiting
  | removing {task : Nat} {key : String} (free : cache.tasks.get task = none) :
      Move client codec config cache now (.del task key)
        ((cache.withMemory (cache.service.memory.del key)).atStage task (.delete key)) .waiting
  | read {task : Nat} {key : String} {value : Value} {pttlMs : Nat}
      (running : cache.tasks.get task = some (.read key))
      (found : cache.service.redis.getWithTtl client codec key now = some (value, pttlMs)) :
      Move client codec config cache now (.proceed task)
        (cache.atStage task (.promote key value pttlMs)) .waiting
  | absent {task : Nat} {key : String} (running : cache.tasks.get task = some (.read key))
      (nothing : cache.service.redis.getWithTtl client codec key now = none) :
      Move client codec config cache now (.proceed task) (cache.withoutTask task) (.got key none)
  | promoted {task : Nat} {key : String} {value : Value} {pttlMs : Nat}
      (running : cache.tasks.get task = some (.promote key value pttlMs)) :
      Move client codec config cache now (.proceed task)
        ((cache.withMemory (cache.service.memory.set key value (max 1 pttlMs) now)).withoutTask
          task) (.got key (some value))
  | written {task : Nat} {key : String} {value : Value} {ttlMs : Nat}
      (running : cache.tasks.get task = some (.write key value ttlMs)) :
      Move client codec config cache now (.proceed task)
        ((cache.withRedis (cache.service.redis.set client codec key value ttlMs now)).withoutTask
          task) (.done key)
  | deleted {task : Nat} {key : String} (running : cache.tasks.get task = some (.delete key)) :
      Move client codec config cache now (.proceed task)
        ((cache.withRedis (cache.service.redis.del client key now)).withoutTask task) (.done key)

section Inversion
variable {client : RedisClient Store} {codec : JsonCodec Value} {config : CacheConfiguration}
  {cache after : OverlappingCache Value Store} {answer : OverlapAnswer Value}

theorem turn_moves {task now : Nat} {stage : CacheStage Value}
    (running : cache.tasks.get task = some stage)
    (turned : cache.turn client codec task now stage = (after, answer)) :
    Move client codec config cache now (.proceed task) after answer := by
  cases stage with
  | read key =>
    simp only [turn] at turned
    split at turned
    · rename_i value pttlMs found
      obtain ⟨rfl, rfl⟩ := Prod.mk.inj turned
      exact .read running found
    · rename_i nothing
      obtain ⟨rfl, rfl⟩ := Prod.mk.inj turned
      exact .absent running nothing
  | promote key value pttlMs =>
    obtain ⟨rfl, rfl⟩ := Prod.mk.inj turned
    exact .promoted running
  | write key value ttlMs =>
    obtain ⟨rfl, rfl⟩ := Prod.mk.inj turned
    exact .written running
  | delete key =>
    obtain ⟨rfl, rfl⟩ := Prod.mk.inj turned
    exact .deleted running

theorem started {cache : OverlappingCache Value Store} {now task : Nat} {call : OverlapCall Value}
    (entered : (if (cache.tasks.get task).isSome then none
      else some (cache.start config now call)) = some (after, answer)) :
    cache.tasks.get task = none ∧ cache.start config now call = (after, answer) := by
  rw [Option.ite_none_left_eq_some, Option.not_isSome_iff_eq_none] at entered
  exact ⟨entered.1, Option.some.inj entered.2⟩

theorem step_moves (enabled : config.enabled = true) {timed : TimedOverlap Value}
    (moved : step client codec config cache timed = some (after, answer)) :
    Move client codec config cache timed.now timed.call after answer := by
  obtain ⟨now, call⟩ := timed
  cases call with
  | proceed task =>
    obtain ⟨stage, running, turned⟩ := Option.map_eq_some_iff.mp moved
    exact turn_moves running turned
  | get task key =>
    obtain ⟨free, moved⟩ := started moved
    simp only [start, enabled, if_true] at moved
    cases found : (cache.service.memory.get key now).2 with
    | some value =>
      rw [show cache.service.memory.get key now =
        ((cache.service.memory.get key now).1, some value) by rw [← found]] at moved
      obtain ⟨rfl, rfl⟩ := Prod.mk.inj moved
      exact .hit free found
    | none =>
      rw [show cache.service.memory.get key now =
        ((cache.service.memory.get key now).1, none) by rw [← found]] at moved
      obtain ⟨rfl, rfl⟩ := Prod.mk.inj moved
      exact .missed free found
  | set task key value ttlMs =>
    obtain ⟨free, moved⟩ := started moved
    simp only [start, enabled, if_true] at moved
    obtain ⟨rfl, rfl⟩ := Prod.mk.inj moved
    exact .storing free
  | del task key =>
    obtain ⟨free, moved⟩ := started moved
    simp only [start, enabled, if_true] at moved
    obtain ⟨rfl, rfl⟩ := Prod.mk.inj moved
    exact .removing free

end Inversion
end OverlappingCache
end AstraPort.Cache
