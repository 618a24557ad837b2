import AstraPort.Cache.Backends

/- CacheService over its two layers. A call reads one instant of the clock. -/
namespace AstraPort.Cache

structure CacheConfiguration where
  enabled : Bool
  defaultTtlMs : Nat
  maxKeys : Nat
  redisEnabled : Bool
  keyPrefix : String
  deriving DecidableEq

structure CacheService (Value Store : Type) where
  memory : MemoryCacheBackend Value
  redis : RedisCacheBackend Store

inductive CacheCall (Value : Type) where
  | get (key : String) (now : Nat)
  | set (key : String) (value : Value) (ttlMs : Option Nat) (now : Nat)
  | del (key : String) (now : Nat)
  | invalidateByPrefix (text : String) (scan : ScanReplies) (now : Nat)
  | clear (scan : ScanReplies) (now : Nat)

def CacheCall.now {Value : Type} : CacheCall Value → Nat
  | .get _ now => now
  | .set _ _ _ now => now
  | .del _ now => now
  | .invalidateByPrefix _ _ now => now
  | .clear _ now => now

inductive CacheAnswer (Value : Type) where
  | got (value : Option Value)
  | done
  | invalidated (count : Nat)
  deriving DecidableEq

namespace CacheService
variable {Value Store : Type}

def initial (config : CacheConfiguration) (online : Bool) (contents : Store) :
    CacheService Value Store :=
  { memory := { maxKeys := config.maxKeys, store := InsertionMap.empty },
    redis := { keyPrefix := config.keyPrefix, configured := config.redisEnabled, online := online,
               store := contents } }

section Calls
variable (client : RedisClient Store) (codec : JsonCodec Value) (config : CacheConfiguration)

/-- L1, then L2; what L2 answers is kept in L1 for the time it has left. -/
def get (service : CacheService Value Store) (key : String) (now : Nat) :
    CacheService Value Store × Option Value :=
  if config.enabled then
    match service.memory.get key now with
    | (memory, some memoryValue) => ({ service with memory := memory }, some memoryValue)
    | (memory, none) =>
      match service.redis.getWithTtl client codec key now with
      | some (value, pttlMs) =>
        let promoteTtl := max 1 pttlMs
        ({ service with memory := memory.set key value promoteTtl now }, some value)
      | none => ({ service with memory := memory }, none)
  else (service, none)

def set (service : CacheService Value Store) (key : String) (value : Value)
    (ttlMs : Option Nat) (now : Nat) : CacheService Value Store :=
  if config.enabled then
    let ttl := ttlMs.getD config.defaultTtlMs
    { memory := service.memory.set key value ttl now,
      redis := service.redis.set client codec key value ttl now }
  else service

def del (service : CacheService Value Store) (key : String) (now : Nat) :
    CacheService Value Store :=
  if config.enabled then
    { memory := service.memory.del key, redis := service.redis.del client key now }
  else service

def invalidateByPrefix (service : CacheService Value Store) (text : String) (scan : ScanReplies)
    (now : Nat) : CacheService Value Store × Nat :=
  if config.enabled then
    let memory := service.memory.invalidateByPrefix text
    let redis := service.redis.invalidateByPrefix client text scan now
    ({ memory := memory.1, redis := redis.1 }, memory.2 + redis.2)
  else (service, 0)

def clear (service : CacheService Value Store) (scan : ScanReplies) (now : Nat) :
    CacheService Value Store :=
  if config.enabled then
    { memory := service.memory.clear, redis := service.redis.clear client scan now }
  else service

def step (service : CacheService Value Store) :
    CacheCall Value → Option (CacheService Value Store × CacheAnswer Value)
  | .get key now =>
    let (service, value) := service.get client codec config key now
    some (service, .got value)
  | .set key value ttlMs now => some (service.set client codec config key value ttlMs now, .done)
  | .del key now => some (service.del client config key now, .done)
  | .invalidateByPrefix text scan now =>
    let (service, count) := service.invalidateByPrefix client config text scan now
    some (service, .invalidated count)
  | .clear scan now => some (service.clear client config scan now, .done)

/-- The cache on a server that is reachable throughout. -/
def machine (blank : Store) :
    Machine (CacheService Value Store) (CacheCall Value) (CacheAnswer Value) :=
  ⟨initial config true blank, step client codec config⟩

end Calls
end CacheService
end AstraPort.Cache
