import AstraPort.Cache.Mirror

/- Calls of methods under the Cached and InvalidateCache decorators, interleaving at their
   awaits. Keys are derived from class, method and arguments. Each turn that sends a Redis
   command meets a connection that is up or down, and a command that is answered or rejected. -/
namespace AstraPort.Cache
open MemoryCacheBackend (startsWith)

/-- The connection a turn meets; for a turn of the SCAN loop also its reply and whether the
    cursor is back at the start. -/
structure RedisTurn where
  online : Bool
  answers : Bool
  keys : List String
  finished : Bool
  deriving DecidableEq

/-- The await a call stands at; `text` is the prefix that an invalidation sweeps. -/
inductive DecoratedStage (Value : Type) where
  | read (key : String) (ttlMs : Option Nat)
  | promote (key : String) (value : Value) (pttlMs : Nat)
  | call (key : String) (ttlMs : Option Nat)
  | produce (key : String) (ttlMs : Option Nat)
  | write (key : String) (value : Value) (ttlMs : Nat)
  | mutate (text : String)
  | sweepMemory (text : String)
  | beginScan (text : String)
  | sweepRedis (text : String)
  | close (text : String)
  deriving DecidableEq

/-- The awaits a call stands at only when the cache is enabled. -/
def DecoratedStage.caches {Value : Type} : DecoratedStage Value → Bool
  | .read _ _ => true
  | .promote _ _ _ => true
  | .write _ _ _ => true
  | _ => false

structure DecoratedCache (Value Store : Type) where
  service : CacheService Value Store
  tasks : InsertionMap Nat (DecoratedStage Value)

/-- Arguments come serialized. A producer answers none for undefined and null. -/
inductive DecoratedCall (Value : Type) where
  | cached (task : Nat) (className methodName : String) (args : List String) (ttlMs : Option Nat)
  | invalidating (task : Nat) (className : String)
  | proceed (task : Nat) (redis : RedisTurn)
  | produced (task : Nat) (result : Option Value)
  | mutated (task : Nat)
  | failed (task : Nat)
  deriving DecidableEq

def DecoratedCall.task {Value : Type} : DecoratedCall Value → Nat
  | .cached task _ _ _ _ => task
  | .invalidating task _ => task
  | .proceed task _ => task
  | .produced task _ => task
  | .mutated task => task
  | .failed task => task

/-- The task of a cached call that starts, and the value a producer gives. -/
def DecoratedCall.starts {Value : Type} : DecoratedCall Value → Option Nat
  | .cached task _ _ _ _ => some task
  | _ => none

def DecoratedCall.result {Value : Type} : DecoratedCall Value → Option Value
  | .produced _ result => result
  | _ => none

structure TimedDecorated (Value : Type) where
  now : Nat
  call : DecoratedCall Value
  deriving DecidableEq

/-- What a step shows. The last four of the cached calls end them: from L1, from L2, with the
    value of their producer stored in both layers, and with one that is not stored. -/
inductive DecoratedAnswer (Value : Type) where
  | waiting
  | calling (key : String)
  | stored (key : String)
  | hit (key : String) (value : Value)
  | promoted (key : String) (value : Value)
  | filled (key : String) (value : Value)
  | passed (key : String) (value : Option Value)
  | mutated (text : String)
  | swept (text : String)
  | scanning (text : String)
  | invalidated (text : String)
  | threw
  deriving DecidableEq

/-- The key prefix of the class whose mutation has run. -/
def DecoratedAnswer.mutates {Value : Type} : DecoratedAnswer Value → Option String
  | .mutated text => some text
  | _ => none

/-- The value that a cached call returns for its key. -/
def DecoratedAnswer.returned {Value : Type} : DecoratedAnswer Value → Option (String × Value)
  | .hit key value => some (key, value)
  | .promoted key value => some (key, value)
  | .filled key value => some (key, value)
  | .passed key value => value.map fun value => (key, value)
  | _ => none

/-- The answers by which an invalidation shows that it has swept L1, or is over. -/
def DecoratedAnswer.reports {Value : Type} : DecoratedAnswer Value → Bool
  | .swept _ => true
  | .invalidated _ => true
  | _ => false

def cacheKey (className methodName : String) (args : List String) : String :=
  let serialized := String.intercalate ":" args
  "cache:" ++ className ++ ":" ++ methodName ++ (if serialized = "" then "" else ":" ++ serialized)

def classPrefix (className : String) : String := "cache:" ++ className ++ ":"

namespace DecoratedCache
variable {Value Store : Type}

def atStage (cache : DecoratedCache Value Store) (task : Nat) (stage : DecoratedStage Value) :
    DecoratedCache Value Store := { cache with tasks := cache.tasks.set task stage }

def withoutTask (cache : DecoratedCache Value Store) (task : Nat) :
    DecoratedCache Value Store := { cache with tasks := cache.tasks.delete task }

def withMemory (cache : DecoratedCache Value Store) (memory : MemoryCacheBackend Value) :
    DecoratedCache Value Store :=
  { cache with service := { cache.service with memory := memory } }

def withRedis (cache : DecoratedCache Value Store) (redis : RedisCacheBackend Store) :
    DecoratedCache Value Store :=
  { cache with service := { cache.service with redis := redis } }

/-- Redis behind the connection of a turn. -/
def redisAt (cache : DecoratedCache Value Store) (turn : RedisTurn) : RedisCacheBackend Store :=
  { cache.service.redis with online := turn.online }

section Calls
variable (client : RedisClient Store) (codec : JsonCodec Value) (config : CacheConfiguration)

/-- One reply of the SCAN loop; a rejected SCAN or DEL ends it. -/
def sweepTurn (cache : DecoratedCache Value Store) (task : Nat) (text : String)
    (redis : RedisTurn) (now : Nat) : DecoratedCache Value Store :=
  if redis.answers then
    let swept := RedisCacheBackend.deleteReplies client now cache.service.redis.store
      [some redis.keys]
    let cache := cache.withRedis { cache.service.redis with store := swept.1 }
    if redis.finished || swept.2.isNone then cache.atStage task (.close text)
    else cache.atStage task (.sweepRedis text)
  else cache.atStage task (.close text)

/-- From one await to the next, where no result of the method itself is awaited. -/
def turn (cache : DecoratedCache Value Store) (task : Nat) (redis : RedisTurn) (now : Nat) :
    DecoratedStage Value → Option (DecoratedCache Value Store × DecoratedAnswer Value)
  | .read key ttlMs =>
    match (cache.redisAt redis).getWithTtl (client.under redis.answers) codec key now with
    | some (value, pttlMs) => some (cache.atStage task (.promote key value pttlMs), .waiting)
    | none => some (cache.atStage task (.call key ttlMs), .waiting)
  | .promote key value pttlMs =>
    let memory := cache.service.memory.set key value (max 1 pttlMs) now
    some ((cache.withMemory memory).withoutTask task, .promoted key value)
  | .call key ttlMs => some (cache.atStage task (.produce key ttlMs), .calling key)
  | .write key value ttlMs =>
    let redis := (cache.redisAt redis).set (client.under redis.answers) codec key value ttlMs now
    some ((cache.withRedis redis).withoutTask task, .filled key value)
  | .sweepMemory text =>
    if config.enabled then
      let memory := (cache.service.memory.invalidateByPrefix text).1
      some ((cache.withMemory memory).atStage task (.beginScan text), .swept text)
    else some (cache.atStage task (.close text), .waiting)
  | .beginScan text =>
    if (cache.redisAt redis).available then
      some (cache.atStage task (.sweepRedis text), .scanning text)
    else some (cache.atStage task (.close text), .scanning text)
  | .sweepRedis text => some (cache.sweepTurn client task text redis now, .waiting)
  | .close text => some (cache.withoutTask task, .invalidated text)
  | .produce _ _ => none
  | .mutate _ => none

/-- The result of a producer: undefined and null are returned without being stored. -/
def produce (cache : DecoratedCache Value Store) (task : Nat) (result : Option Value) (now : Nat)
    (key : String) (ttlMs : Option Nat) : DecoratedCache Value Store × DecoratedAnswer Value :=
  match result with
  | none => (cache.withoutTask task, .passed key none)
  | some value =>
    if config.enabled then
      let ttl := ttlMs.getD config.defaultTtlMs
      let memory := cache.service.memory.set key value ttl now
      ((cache.withMemory memory).atStage task (.write key value ttl), .stored key)
    else (cache.withoutTask task, .passed key (some value))

/-- wrap up to its first await. -/
def wrap (cache : DecoratedCache Value Store) (task : Nat) (key : String) (ttlMs : Option Nat)
    (now : Nat) : DecoratedCache Value Store × DecoratedAnswer Value :=
  if config.enabled then
    match cache.service.memory.get key now with
    | (memory, some memoryValue) => (cache.withMemory memory, .hit key memoryValue)
    | (memory, none) => ((cache.withMemory memory).atStage task (.read key ttlMs), .waiting)
  else (cache.atStage task (.call key ttlMs), .waiting)

def enter (cache : DecoratedCache Value Store) (task : Nat)
    (entered : DecoratedCache Value Store × DecoratedAnswer Value) :
    Option (DecoratedCache Value Store × DecoratedAnswer Value) :=
  if (cache.tasks.get task).isSome then none else some entered

def step (cache : DecoratedCache Value Store) (timed : TimedDecorated Value) :
    Option (DecoratedCache Value Store × DecoratedAnswer Value) :=
  match timed.call with
  | .cached task className methodName args ttlMs =>
    cache.enter task (cache.wrap config task (cacheKey className methodName args) ttlMs timed.now)
  | .invalidating task className =>
    cache.enter task (cache.atStage task (.mutate (classPrefix className)), .waiting)
  | .proceed task redis =>
    (cache.tasks.get task).bind (cache.turn client codec config task redis timed.now)
  | .produced task result =>
    match cache.tasks.get task with
    | some (.produce key ttlMs) => some (cache.produce config task result timed.now key ttlMs)
    | _ => none
  | .mutated task =>
    match cache.tasks.get task with
    | some (.mutate text) => some (cache.atStage task (.sweepMemory text), .mutated text)
    | _ => none
  | .failed task =>
    -- the method rejects, and so does the call
    match cache.tasks.get task with
    | some (.produce _ _) => some (cache.withoutTask task, .threw)
    | some (.mutate _) => some (cache.withoutTask task, .threw)
    | _ => none

def machine (blank : Store) :
    Machine (DecoratedCache Value Store) (TimedDecorated Value) (DecoratedAnswer Value) :=
  ⟨⟨CacheService.initial config false blank, InsertionMap.empty⟩, step client codec config⟩

end Calls

/-- Everything a step can do. -/
inductive Move (client : RedisClient Store) (codec : JsonCodec Value)
    (config : CacheConfiguration) (cache : DecoratedCache Value Store) (now : Nat) :
    DecoratedCall Value → DecoratedCache Value Store → DecoratedAnswer Value → Prop where
  | hit {task : Nat} {className methodName : String} {args : List String} {ttlMs : Option Nat}
      {value : Value} (enabled : config.enabled = true) (free : cache.tasks.get task = none)
      (found : (cache.service.memory.get (cacheKey className methodName args) now).2 = some value) :
      Move client codec config cache now (.cached task className methodName args ttlMs)
        (cache.withMemory (cache.service.memory.get (cacheKey className methodName args) now).1)
        (.hit (cacheKey className methodName args) value)
  | missed {task : Nat} {className methodName : String} {args : List String} {ttlMs : Option Nat}
      (enabled : config.enabled = true) (free : cache.tasks.get task = none) :
      Move client codec config cache now (.cached task className methodName args ttlMs)
        ((cache.withMemory (cache.service.memory.get (cacheKey className methodName args)
          now).1).atStage task (.read (cacheKey className methodName args) ttlMs)) .waiting
  | bypassed {task : Nat} {className methodName : String} {args : List String}
      {ttlMs : Option Nat} (free : cache.tasks.get task = none) :
      Move client codec config cache now (.cached task className methodName args ttlMs)
        (cache.atStage task (.call (cacheKey className methodName args) ttlMs)) .waiting
  | invalidating {task : Nat} {className : String} (free : cache.tasks.get task = none) :
      Move client codec config cache now (.invalidating task className)
        (cache.atStage task (.mutate (classPrefix className))) .waiting
  | read {task : Nat} {redis : RedisTurn} {key : String} {ttlMs : Option Nat} {value : Value}
      {pttlMs : Nat} (running : cache.tasks.get task = some (.read key ttlMs))
      (found : (cache.redisAt redis).getWithTtl (client.under redis.answers) codec key now =
        some (value, pttlMs)) :
      Move client codec config cache now (.proceed task redis)
        (cache.atStage task (.promote key value pttlMs)) .waiting
  | absent {task : Nat} {redis : RedisTurn} {key : String} {ttlMs : Option Nat}
      (running : cache.tasks.get task = some (.read key ttlMs)) :
      Move client codec config cache now (.proceed task redis)
        (cache.atStage task (.call key ttlMs)) .waiting
  | promoted {task : Nat} {redis : RedisTurn} {key : String} {value : Value} {pttlMs : Nat}
      (running : cache.tasks.get task = some (.promote key value pttlMs)) :
      Move client codec config cache now (.proceed task redis)
        ((cache.withMemory (cache.service.memory.set key value (max 1 pttlMs) now)).withoutTask
          task) (.promoted key value)
  | calling {task : Nat} {redis : RedisTurn} {key : String} {ttlMs : Option Nat}
      (running : cache.tasks.get task = some (.call key ttlMs)) :
      Move client codec config cache now (.proceed task redis)
        (cache.atStage task (.produce key ttlMs)) (.calling key)
  | written {task : Nat} {redis : RedisTurn} {key : String} {value : Value} {ttlMs : Nat}
      (running : cache.tasks.get task = some (.write key value ttlMs)) :
      Move client codec config cache now (.proceed task redis)
        ((cache.withRedis ((cache.redisAt redis).set (client.under redis.answers) codec key value
          ttlMs now)).withoutTask task) (.filled key value)
  | swept {task : Nat} {redis : RedisTurn} {text : String}
      (running : cache.tasks.get task = some (.sweepMemory text)) :
      Move client codec config cache now (.proceed task redis)
        ((cache.withMemory (cache.service.memory.invalidateByPrefix text).1).atStage task
          (.beginScan text)) (.swept text)
  | skipped {task : Nat} {redis : RedisTurn} {text : String} (disabled : config.enabled = false)
      (running : cache.tasks.get task = some (.sweepMemory text)) :
      Move client codec config cache now (.proceed task redis)
        (cache.atStage task (.close text)) .waiting
  | scanning {task : Nat} {redis : RedisTurn} {text : String} {next : DecoratedStage Value}
      (running : cache.tasks.get task = some (.beginScan text))
      (goes_on : next = .sweepRedis text ∨ next = .close text) :
      Move client codec config cache now (.proceed task redis)
        (cache.atStage task next) (.scanning text)
  | deleted {task : Nat} {redis : RedisTurn} {text : String} {next : DecoratedStage Value}
      (running : cache.tasks.get task = some (.sweepRedis text))
      (goes_on : next = .sweepRedis text ∨ next = .close text) :
      Move client codec config cache now (.proceed task redis)
        ((cache.withRedis { cache.service.redis with
          store := (RedisCacheBackend.deleteReplies client now cache.service.redis.store
            [some redis.keys]).1 }).atStage task next) .waiting
  | rejected {task : Nat} {redis : RedisTurn} {text : String}
      (running : cache.tasks.get task = some (.sweepRedis text)) :
      Move client codec config cache now (.proceed task redis)
        (cache.atStage task (.close text)) .waiting
  | closed {task : Nat} {redis : RedisTurn} {text : String}
      (running : cache.tasks.get task = some (.close text)) :
      Move client codec config cache now (.proceed task redis)
        (cache.withoutTask task) (.invalidated text)
  | stored {task : Nat} {key : String} {ttlMs : Option Nat} {value : Value}
      (enabled : config.enabled = true)
      (running : cache.tasks.get task = some (.produce key ttlMs)) :
      Move client codec config cache now (.produced task (some value))
        ((cache.withMemory (cache.service.memory.set key value (ttlMs.getD config.defaultTtlMs)
          now)).atStage task (.write key value (ttlMs.getD config.defaultTtlMs))) (.stored key)
  | passed {task : Nat} {key : String} {ttlMs : Option Nat} {result : Option Value}
      (running : cache.tasks.get task = some (.produce key ttlMs)) :
      Move client codec config cache now (.produced task result)
        (cache.withoutTask task) (.passed key result)
  | mutated {task : Nat} {text : String} (running : cache.tasks.get task = some (.mutate text)) :
      Move client codec config cache now (.mutated task)
        (cache.atStage task (.sweepMemory text)) (.mutated text)
  | threw {task : Nat} {stage : DecoratedStage Value}
      (running : cache.tasks.get task = some stage)
      (not_sweeping : ∀ text, stage ≠ .sweepMemory text) :
      Move client codec config cache now (.failed task) (cache.withoutTask task) .threw

section Inversion
variable {client : RedisClient Store} {codec : JsonCodec Value} {config : CacheConfiguration}
  {cache after : DecoratedCache Value Store} {answer : DecoratedAnswer Value}

theorem sweepTurn_moves {task now : Nat} {redis : RedisTurn} {text : String}
    (running : cache.tasks.get task = some (.sweepRedis text)) :
    Move client codec config cache now (.proceed task redis)
      (cache.sweepTurn client task text redis now) .waiting := by
  simp only [sweepTurn]
  split
  · split
    · exact .deleted running (Or.inr rfl)
    · exact .deleted running (Or.inl rfl)
  · exact .rejected running

theorem turn_moves {task now : Nat} {redis : RedisTurn} {stage : DecoratedStage Value}
    (running : cache.tasks.get task = some stage)
    (turned : cache.turn client codec config task redis now stage = some (after, answer)) :
    Move client codec config cache now (.proceed task redis) after answer := by
  cases stage with
  | read key ttlMs =>
    simp only [turn] at turned
    split at turned
    · rename_i value pttlMs found
      obtain ⟨rfl, rfl⟩ := Prod.mk.inj (Option.some.inj turned)
      exact .read running found
    · obtain ⟨rfl, rfl⟩ := Prod.mk.inj (Option.some.inj turned)
      exact .absent running
  | promote key value pttlMs =>
    obtain ⟨rfl, rfl⟩ := Prod.mk.inj (Option.some.inj turned)
    exact .promoted running
  | call key ttlMs =>
    obtain ⟨rfl, rfl⟩ := Prod.mk.inj (Option.some.inj turned)
    exact .calling running
  | produce key ttlMs => cases turned
  | write key value ttlMs =>
    obtain ⟨rfl, rfl⟩ := Prod.mk.inj (Option.some.inj turned)
    exact .written running
  | mutate text => cases turned
  | sweepMemory text =>
    simp only [turn] at turned
    split at turned
    · obtain ⟨rfl, rfl⟩ := Prod.mk.inj (Option.some.inj turned)
      exact .swept running
    · rename_i disabled
      obtain ⟨rfl, rfl⟩ := Prod.mk.inj (Option.some.inj turned)
      exact .skipped (by simpa using disabled) running
  | beginScan text =>
    simp only [turn] at turned
    split at turned
    · obtain ⟨rfl, rfl⟩ := Prod.mk.inj (Option.some.inj turned)
      exact .scanning running (Or.inl rfl)
    · obtain ⟨rfl, rfl⟩ := Prod.mk.inj (Option.some.inj turned)
      exact .scanning running (Or.inr rfl)
  | sweepRedis text =>
    obtain ⟨rfl, rfl⟩ := Prod.mk.inj (Option.some.inj turned)
    exact sweepTurn_moves running
  | close text =>
    obtain ⟨rfl, rfl⟩ := Prod.mk.inj (Option.some.inj turned)
    exact .closed running

theorem entered {task : Nat} {result : DecoratedCache Value Store × DecoratedAnswer Value}
    (started : cache.enter task result = some (after, answer)) :
    cache.tasks.get task = none ∧ result = (after, answer) := by
  rw [enter, Option.ite_none_left_eq_some, Option.not_isSome_iff_eq_none] at started
  exact ⟨started.1, Option.some.inj started.2⟩

theorem wrap_moves {task now : Nat} {className methodName : String} {args : List String}
    {ttlMs : Option Nat} (free : cache.tasks.get task = none)
    (wrapped : cache.wrap config task (cacheKey className methodName args) ttlMs now =
      (after, answer)) :
    Move client codec config cache now (.cached task className methodName args ttlMs) after
      answer := by
  rw [wrap] at wrapped
  split at wrapped
  · rename_i enabled
    split at wrapped
    · rename_i memory value found
      obtain ⟨rfl, rfl⟩ := Prod.mk.inj wrapped
      obtain rfl := congrArg Prod.fst found
      exact .hit enabled free (congrArg Prod.snd found)
    · rename_i memory absent
      obtain ⟨rfl, rfl⟩ := Prod.mk.inj wrapped
      obtain rfl := congrArg Prod.fst absent
      exact .missed enabled free
  · obtain ⟨rfl, rfl⟩ := Prod.mk.inj wrapped
    exact .bypassed free

theorem produce_moves {task now : Nat} {result : Option Value} {key : String}
    {ttlMs : Option Nat} (running : cache.tasks.get task = some (.produce key ttlMs))
    (ended : cache.produce config task result now key ttlMs = (after, answer)) :
    Move client codec config cache now (.produced task result) after answer := by
  cases result with
  | none =>
    obtain ⟨rfl, rfl⟩ := Prod.mk.inj ended
    exact .passed running
  | some value =>
    simp only [produce] at ended
    split at ended
    · rename_i enabled
      obtain ⟨rfl, rfl⟩ := Prod.mk.inj ended
      exact .stored enabled running
    · obtain ⟨rfl, rfl⟩ := Prod.mk.inj ended
      exact .passed running

theorem step_moves {timed : TimedDecorated Value}
    (moved : step client codec config cache timed = some (after, answer)) :
    Move client codec config cache timed.now timed.call after answer := by
  obtain ⟨now, call⟩ := timed
  cases call with
  | cached task className methodName args ttlMs =>
    obtain ⟨free, wrapped⟩ := entered moved
    exact wrap_moves free wrapped
  | invalidating task className =>
    obtain ⟨free, same⟩ := entered moved
    obtain ⟨rfl, rfl⟩ := Prod.mk.inj same
    exact .invalidating free
  | proceed task redis =>
    obtain ⟨stage, running, turned⟩ := Option.bind_eq_some_iff.mp moved
    exact turn_moves running turned
  | produced task result =>
    simp only [step] at moved
    split at moved
    · rename_i key ttlMs running
      exact produce_moves running (Option.some.inj moved)
    · cases moved
  | mutated task =>
    simp only [step] at moved
    split at moved
    · rename_i text running
      obtain ⟨rfl, rfl⟩ := Prod.mk.inj (Option.some.inj moved)
      exact .mutated running
    · cases moved
  | failed task =>
    simp only [step] at moved
    split at moved
    · rename_i running
      obtain ⟨rfl, rfl⟩ := Prod.mk.inj (Option.some.inj moved)
      exact .threw running nofun
    · rename_i running
      obtain ⟨rfl, rfl⟩ := Prod.mk.inj (Option.some.inj moved)
      exact .threw running nofun
    · cases moved

end Inversion
end DecoratedCache
end AstraPort.Cache
