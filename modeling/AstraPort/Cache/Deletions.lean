import AstraPort.Cache.Mirror

/- Calls one at a time over a connection that comes and goes and on which commands are
   rejected. A deletion that does not get through to the second layer leaves an entry there
   that a later get brings back. -/
namespace AstraPort.Cache
open MemoryCacheBackend (startsWith)

/-- A call with the connection it meets: whether it is up, and whether its commands are
    answered. Within a SCAN loop single commands can be rejected. -/
structure FlakyCall (Value : Type) where
  call : CacheCall Value
  online : Bool
  answers : Bool

def FlakyCall.now {Value : Type} (flaky : FlakyCall Value) : Nat := flaky.call.now

namespace CacheService
variable {Value Store : Type}

def connected (service : CacheService Value Store) (online : Bool) : CacheService Value Store :=
  { service with redis := { service.redis with online := online } }

section Calls
variable (client : RedisClient Store) (codec : JsonCodec Value) (config : CacheConfiguration)

def flakyStep (service : CacheService Value Store) (flaky : FlakyCall Value) :
    Option (CacheService Value Store × CacheAnswer Value) :=
  step (client.under flaky.answers) codec config (service.connected flaky.online) flaky.call

def flakyMachine (blank : Store) :
    Machine (CacheService Value Store) (FlakyCall Value) (CacheAnswer Value) :=
  ⟨initial config false blank, flakyStep client codec config⟩

end Calls

def removes (key : String) : CacheCall Value → Bool
  | .get _ _ => false
  | .set _ _ _ _ => false
  | .del other _ => decide (key = other)
  | .invalidateByPrefix text _ _ => startsWith text key
  | .clear _ _ => true

def valueSet (key : String) : CacheCall Value → Option Value
  | .set other value _ _ => if key = other then some value else none
  | _ => none

/-- The values set for a key since the last call that removes it. -/
def setSince (key : String) : List (FlakyCall Value × CacheAnswer Value) → List Value
  | [] => []
  | e :: past =>
    if removes key e.1.call then [] else (valueSet key e.1.call).toList ++ setSince key past

/-- What a get may answer for a value: the value, or what its JSON text is read as. -/
def Image (codec : JsonCodec Value) (value answer : Value) : Prop :=
  answer = value ∨ codec.parse (codec.stringify value) = some answer

/-- After a del, an invalidateByPrefix or a clear a get answers only what was set since. -/
def DeletedStaysAway (client : RedisClient Store) (codec : JsonCodec Value)
    (config : CacheConfiguration) (blank : Store)
    (permit : Machine.Permit (CacheService Value Store) (FlakyCall Value) (CacheAnswer Value)) :
    Prop :=
  ∀ past service, (flakyMachine client codec config blank).Run permit past service →
    ∀ after between before asked deleted answer key now value,
      past = after ++ (asked, .got (some value)) :: (between ++ (deleted, answer) :: before) →
      asked.call = .get key now → removes key deleted.call = true →
      ∃ e ∈ between, ∃ set, valueSet key e.1.call = some set ∧ Image codec set value

section Conditions
variable {client : RedisClient Store} {blank : Store} (config : CacheConfiguration)
  (healthy : client.Healthy blank)

/-- The connection takes the commands of a call. -/
def Takes (flaky : FlakyCall Value) : Prop :=
  config.redisEnabled = true ∧ flaky.online = true ∧ flaky.answers = true

/-- A removing call gets through to the second layer, or there is nothing there for it to
    remove: a key it names is not held, or one of its commands reaches it. -/
def GetsThrough (service : CacheService Value Store) (flaky : FlakyCall Value) : Prop :=
  match flaky.call with
  | .get _ _ => True
  | .set _ _ _ _ => True
  | .del key now => healthy.held service.redis.store now (config.keyPrefix ++ key) = none ∨
      Takes config flaky
  | .invalidateByPrefix text scan now => ∀ key, startsWith text key = true →
      healthy.held service.redis.store now (config.keyPrefix ++ key) = none ∨
      Takes config flaky ∧
        config.keyPrefix ++ key ∈ reached (scan (config.keyPrefix ++ text ++ "*"))
  | .clear scan now => ∀ key,
      healthy.held service.redis.store now (config.keyPrefix ++ key) = none ∨
      Takes config flaky ∧ config.keyPrefix ++ key ∈ reached (scan (config.keyPrefix ++ "*"))

def DeletionsGetThrough :
    Machine.Permit (CacheService Value Store) (FlakyCall Value) (CacheAnswer Value) :=
  fun past service flaky =>
    Machine.ClockAdvances FlakyCall.now past service flaky ∧
      GetsThrough config healthy service flaky

end Conditions

section History
variable {key : String} {past : List (FlakyCall Value × CacheAnswer Value)}

theorem set_in_between {between before : List (FlakyCall Value × CacheAnswer Value)}
    {deleted : FlakyCall Value} {answer : CacheAnswer Value} {value : Value}
    (removed : removes key deleted.call = true)
    (member : value ∈ setSince key (between ++ (deleted, answer) :: before)) :
    ∃ e ∈ between, valueSet key e.1.call = some value := by
  induction between with
  | nil => simp [setSince, removed] at member
  | cons e rest ih =>
    simp only [List.cons_append, setSince] at member
    split at member
    · cases member
    · rcases List.mem_append.mp member with now_set | earlier
      · exact ⟨e, List.mem_cons_self, Option.mem_toList.mp now_set⟩
      · obtain ⟨old, in_rest, set⟩ := ih earlier
        exact ⟨old, List.mem_cons_of_mem _ in_rest, set⟩

theorem setSince_kept {e : FlakyCall Value × CacheAnswer Value} {value : Value}
    (kept : removes key e.1.call = false) (member : value ∈ setSince key past) :
    value ∈ setSince key (e :: past) := by
  simp only [setSince, kept]
  exact List.mem_append_right _ member

end History

/-- The entries of both layers come from the values set since the last removal of their key. -/
structure Accounted (codec : JsonCodec Value) (config : CacheConfiguration)
    {client : RedisClient Store} {blank : Store} (healthy : client.Healthy blank)
    (past : List (FlakyCall Value × CacheAnswer Value)) (service : CacheService Value Store)
    (contents : TtlMap String String) : Prop where
  same_prefix : service.redis.keyPrefix = config.keyPrefix
  same_switch : service.redis.configured = config.redisEnabled
  mirrored : ∀ now, (∀ e ∈ past, e.1.now ≤ now) →
    Mirrors healthy now service.redis.store contents
  memory : ∀ key entry, service.memory.store.get key = some entry →
    ∃ value ∈ setSince key past, Image codec value entry.value
  redis : ∀ now, (∀ e ∈ past, e.1.now ≤ now) → ∀ key entry,
    contents.live now (config.keyPrefix ++ key) = some entry →
      ∃ value ∈ setSince key past, entry.value = codec.stringify value

section Steps
variable {codec : JsonCodec Value} {config : CacheConfiguration} {client : RedisClient Store}
  {blank : Store} {healthy : client.Healthy blank} {service : CacheService Value Store}
  {past : List (FlakyCall Value × CacheAnswer Value)} {contents : TtlMap String String}
  {flaky : FlakyCall Value} {answer : CacheAnswer Value} {now : Nat}

/- A call that removes nothing keeps what it finds and may bring in what it sets. -/
theorem Accounted.keep (accounted : Accounted codec config healthy past service contents)
    (kept : ∀ key, removes key flaky.call = false) (online : Bool)
    {memory : MemoryCacheBackend Value} {left : Store} {changed : TtlMap String String}
    (mirrored : ∀ later, (∀ e ∈ (flaky, answer) :: past, e.1.now ≤ later) →
      Mirrors healthy later left changed)
    (in_memory : ∀ key entry, memory.store.get key = some entry →
      ∃ value ∈ setSince key ((flaky, answer) :: past), Image codec value entry.value)
    (in_redis : ∀ later key entry, changed.live later (config.keyPrefix ++ key) = some entry →
      contents.live later (config.keyPrefix ++ key) = some entry ∨
        ∃ value, valueSet key flaky.call = some value ∧ entry.value = codec.stringify value) :
    Accounted codec config healthy ((flaky, answer) :: past)
      { memory := memory, redis := { service.redis with online := online, store := left } }
      changed where
  same_prefix := accounted.same_prefix
  same_switch := accounted.same_switch
  mirrored := mirrored
  memory := in_memory
  redis := by
    intro later ahead key entry live
    rcases in_redis later key entry live with old | ⟨value, set, text⟩
    · have before := (List.forall_mem_cons.mp ahead).2
      obtain ⟨value, member, text⟩ := accounted.redis later before key entry old
      exact ⟨value, setSince_kept (kept key) member, text⟩
    · refine ⟨value, ?_, text⟩
      simp only [setSince, kept key]
      exact List.mem_append_left _ (Option.mem_toList.mpr set)

theorem setSince_get {key other : String} {t : Nat} (asked : flaky.call = .get other t) :
    setSince key ((flaky, answer) :: past) = setSince key past := by
  simp [setSince, asked, removes, valueSet]

variable (answer) in
theorem Accounted.get (accounted : Accounted codec config healthy past service contents)
    (enabled : config.enabled = true) {key : String} (asked : flaky.call = .get key now)
    (ahead : ∀ e ∈ past, e.1.now ≤ now) :
    Accounted codec config healthy ((flaky, answer) :: past)
        ((service.connected flaky.online).get (client.under flaky.answers) codec config key now).1
        contents ∧
      ∀ value ∈ ((service.connected flaky.online).get (client.under flaky.answers) codec config key
        now).2, ∃ set ∈ setSince key past, Image codec set value := by
  have keeps : ∀ key, removes key flaky.call = false := by
    intro key
    rw [asked]
    rfl
  have from_memory : ∀ other entry, (service.memory.get key now).1.store.get other = some entry →
      ∃ value ∈ setSince other ((flaky, answer) :: past), Image codec value entry.value := by
    intro other entry present
    rw [setSince_get asked]
    exact accounted.memory other entry
      (MemoryCacheBackend.get_store service.memory key now present)
  have kept : ∀ memory : MemoryCacheBackend Value,
      (∀ other entry, memory.store.get other = some entry →
        ∃ value ∈ setSince other ((flaky, answer) :: past), Image codec value entry.value) →
      Accounted codec config healthy ((flaky, answer) :: past)
        { memory := memory,
          redis := { service.redis with online := flaky.online, store := service.redis.store } }
        contents := fun memory in_memory =>
    accounted.keep keeps flaky.online
      (fun later reached => accounted.mirrored later (List.forall_mem_cons.mp reached).2) in_memory
      fun _ _ _ live => Or.inl live
  rw [CacheService.get, if_pos enabled]
  have hit := MemoryCacheBackend.get_answer service.memory key now
  cases answered : (service.memory.get key now).2 with
  | some memoryValue =>
    have split_get : (service.connected flaky.online).memory.get key now =
        ((service.memory.get key now).1, some memoryValue) := by
      rw [← answered]
      rfl
    rw [split_get]
    refine ⟨kept _ from_memory, ?_⟩
    intro value member
    obtain rfl := Option.some.inj member
    rw [answered] at hit
    obtain ⟨entry, present, rfl⟩ := Option.map_eq_some_iff.mp hit.symm
    exact accounted.memory key entry (Option.filter_eq_some_iff.mp present).1
  | none =>
    have split_get : (service.connected flaky.online).memory.get key now =
        ((service.memory.get key now).1, none) := by
      rw [← answered]
      rfl
    rw [split_get]
    cases found : (service.connected flaky.online).redis.getWithTtl (client.under flaky.answers)
        codec key now with
    | none => exact ⟨kept _ from_memory, by simp⟩
    | some hit =>
      obtain ⟨value, pttlMs⟩ := hit
      have mirrored : Mirrors healthy now (service.connected flaky.online).redis.store contents :=
        accounted.mirrored now ahead
      obtain ⟨entry, live, parsed, _⟩ := mirrored.hit flaky.answers found
      rw [show (service.connected flaky.online).redis.keyPrefix = config.keyPrefix from
        accounted.same_prefix] at live
      obtain ⟨set, member, text⟩ := accounted.redis now ahead key entry live
      have image : Image codec set value := Or.inr (text ▸ parsed)
      refine ⟨kept _ ?_, ?_⟩
      · intro other copy present
        rcases MemoryCacheBackend.set_store _ key value _ now present with
          ⟨rfl, rfl⟩ | ⟨_, before⟩
        · rw [setSince_get asked]
          exact ⟨set, member, image⟩
        · exact from_memory other copy before
      · intro answered same
        obtain rfl := Option.some.inj same
        exact ⟨set, member, image⟩

theorem Accounted.set (accounted : Accounted codec config healthy past service contents)
    (refuses : healthy.RefusesNoTime) (enabled : config.enabled = true) {key : String}
    {value : Value} {ttlMs : Option Nat} (asked : flaky.call = .set key value ttlMs now)
    (ahead : ∀ e ∈ past, e.1.now ≤ now) :
    ∃ changed, Accounted codec config healthy ((flaky, answer) :: past)
      ((service.connected flaky.online).set (client.under flaky.answers) codec config key value
        ttlMs now) changed := by
  have keeps : ∀ key, removes key flaky.call = false := by
    intro key
    rw [asked]
    rfl
  have mirrored : Mirrors healthy now (service.connected flaky.online).redis.store contents :=
    accounted.mirrored now ahead
  obtain ⟨changed, now_mirrors, written⟩ := mirrored.set codec
    flaky.answers refuses key value (ttlMs.getD config.defaultTtlMs)
  have clock : ∀ later, (∀ e ∈ (flaky, answer) :: past, e.1.now ≤ later) → now ≤ later := by
    intro later reached
    have at_call := reached _ List.mem_cons_self
    rwa [FlakyCall.now, asked] at at_call
  refine ⟨changed, ?_⟩
  simp only [CacheService.set, enabled, if_true]
  rw [RedisCacheBackend.set_server]
  refine accounted.keep keeps flaky.online (fun later reached => now_mirrors.later (clock later
    reached)) ?_ ?_
  · intro other entry present
    rcases MemoryCacheBackend.set_store service.memory key value _ now present with
      ⟨rfl, rfl⟩ | ⟨_, before⟩
    · refine ⟨value, ?_, Or.inl rfl⟩
      simp [setSince, asked, removes, valueSet]
    · obtain ⟨old, member, image⟩ := accounted.memory other entry before
      exact ⟨old, setSince_kept (keeps other) member, image⟩
  · intro later other entry live
    cases written with
    | stored =>
      rw [TtlMap.live_store] at live
      split at live
      · rename_i same
        have same_key : other = key := (prefixed_eq config.keyPrefix key other).mp
          (accounted.same_prefix ▸ same)
        rw [Option.ite_none_right_eq_some] at live
        refine Or.inr ⟨value, ?_, ?_⟩
        · simp [asked, valueSet, same_key]
        · rw [← Option.some.inj live.2]
      · exact Or.inl live
    | refused => exact Or.inl live
    | forgotten =>
      rw [TtlMap.live_forget, Option.ite_none_left_eq_some] at live
      exact Or.inl live.2

/- A removing call that gets through leaves nothing of what it names in either layer. -/
theorem Accounted.remove (accounted : Accounted codec config healthy past service contents)
    {memory : MemoryCacheBackend Value} {left : Store} {gone : String → Bool}
    (clock : flaky.now = now)
    (memory_drops : ∀ key entry, memory.store.get key = some entry →
      removes key flaky.call = false ∧ service.memory.store.get key = some entry)
    (mirrored : Mirrors healthy now left (contents.forget gone))
    (gets_through : ∀ key, removes key flaky.call = true →
      contents.live now (config.keyPrefix ++ key) = none ∨ gone (config.keyPrefix ++ key) = true) :
    Accounted codec config healthy ((flaky, answer) :: past)
      { memory := memory, redis := { service.redis with online := flaky.online, store := left } }
      (contents.forget gone) where
  same_prefix := accounted.same_prefix
  same_switch := accounted.same_switch
  mirrored := by
    intro later reached
    have at_call := reached _ List.mem_cons_self
    exact mirrored.later (clock ▸ at_call)
  memory := by
    intro key entry present
    obtain ⟨kept, before⟩ := memory_drops key entry present
    obtain ⟨value, member, image⟩ := accounted.memory key entry before
    exact ⟨value, setSince_kept kept member, image⟩
  redis := by
    intro later reached key entry live
    have at_call : now ≤ later := clock ▸ reached _ List.mem_cons_self
    rw [TtlMap.live_forget, Option.ite_none_left_eq_some] at live
    cases named : removes key flaky.call with
    | true =>
      rcases gets_through key named with absent | forgotten
      · rw [TtlMap.dead_stays_dead absent at_call] at live
        cases live.2
      · exact absurd forgotten live.1
    | false =>
      have before := (List.forall_mem_cons.mp reached).2
      obtain ⟨value, member, text⟩ := accounted.redis later before key entry live.2
      exact ⟨value, setSince_kept named member, text⟩

theorem Accounted.del (accounted : Accounted codec config healthy past service contents)
    (enabled : config.enabled = true) {key : String} (asked : flaky.call = .del key now)
    (ahead : ∀ e ∈ past, e.1.now ≤ now) (gets_through : GetsThrough config healthy service flaky) :
    ∃ changed, Accounted codec config healthy ((flaky, answer) :: past)
      ((service.connected flaky.online).del (client.under flaky.answers) config key now)
      changed := by
  have mirrored : Mirrors healthy now (service.connected flaky.online).redis.store contents :=
    accounted.mirrored now ahead
  have now_mirrors := mirrored.redis_del flaky.answers key
  simp only [CacheService.del, enabled, if_true]
  rw [RedisCacheBackend.del_server]
  refine ⟨_, accounted.remove (by rw [FlakyCall.now, asked]; rfl) ?_ now_mirrors ?_⟩
  · intro other entry present
    obtain ⟨ne, before⟩ := MemoryCacheBackend.del_store service.memory key present
    exact ⟨by simp [asked, removes, ne], before⟩
  · intro other named
    have same : other = key := by simpa [asked, removes] using named
    subst same
    simp only [GetsThrough, asked] at gets_through
    rcases gets_through with absent | ⟨switched, online, answers⟩
    · left
      rwa [← (accounted.mirrored now ahead).at_once]
    · right
      simp [RedisCacheBackend.available, connected, accounted.same_switch, accounted.same_prefix,
        switched, online, answers]

/- A SCAN loop over the keys that start with a text; a clear is one over all of them. -/
theorem Accounted.sweep (accounted : Accounted codec config healthy past service contents)
    {memory : MemoryCacheBackend Value} {replies : List (Option (List String))}
    (clock : flaky.now = now) (ahead : ∀ e ∈ past, e.1.now ≤ now)
    (memory_drops : ∀ key entry, memory.store.get key = some entry →
      removes key flaky.call = false ∧ service.memory.store.get key = some entry)
    (gets_through : ∀ key, removes key flaky.call = true →
      healthy.held service.redis.store now (config.keyPrefix ++ key) = none ∨
        Takes config flaky ∧ config.keyPrefix ++ key ∈ reached replies) :
    ∃ changed, Accounted codec config healthy ((flaky, answer) :: past)
      { memory := memory,
        redis := { service.redis with
          online := flaky.online,
          store := if (service.connected flaky.online).redis.available then
              (RedisCacheBackend.deleteReplies (client.under flaky.answers) now
                service.redis.store replies).1
            else service.redis.store } } changed := by
  have mirrored : Mirrors healthy now (service.connected flaky.online).redis.store contents :=
    accounted.mirrored now ahead
  have now_mirrors := mirrored.redis_sweep flaky.answers replies
  refine ⟨_, accounted.remove clock memory_drops now_mirrors ?_⟩
  intro key named
  rcases gets_through key named with absent | ⟨⟨switched, online, answers⟩, in_replies⟩
  · left
    rwa [← (accounted.mirrored now ahead).at_once]
  · right
    simp [RedisCacheBackend.available, connected, accounted.same_switch, switched, online, answers,
      in_replies]

theorem Accounted.step (accounted : Accounted codec config healthy past service contents)
    (refuses : healthy.RefusesNoTime) (enabled : config.enabled = true)
    (permitted : DeletionsGetThrough config healthy past service flaky)
    {after : CacheService Value Store}
    (moved : flakyStep client codec config service flaky = some (after, answer)) :
    ∃ changed, Accounted codec config healthy ((flaky, answer) :: past) after changed := by
  obtain ⟨ahead, gets_through⟩ := permitted
  simp only [Machine.ClockAdvances] at ahead
  have clock : flaky.now = flaky.call.now := rfl
  rw [clock] at ahead
  cases asked : flaky.call with
  | get key now =>
    rw [asked] at ahead
    simp only [flakyStep, asked, CacheService.step] at moved
    obtain ⟨rfl, rfl⟩ := Prod.mk.inj (Option.some.inj moved)
    exact ⟨contents, (accounted.get _ enabled asked ahead).1⟩
  | set key value ttlMs now =>
    rw [asked] at ahead
    simp only [flakyStep, asked, CacheService.step] at moved
    obtain ⟨rfl, rfl⟩ := Prod.mk.inj (Option.some.inj moved)
    exact accounted.set refuses enabled asked ahead
  | del key now =>
    rw [asked] at ahead
    simp only [flakyStep, asked, CacheService.step] at moved
    obtain ⟨rfl, rfl⟩ := Prod.mk.inj (Option.some.inj moved)
    exact accounted.del enabled asked ahead gets_through
  | invalidateByPrefix text scan now =>
    rw [asked] at ahead
    simp only [flakyStep, asked, CacheService.step] at moved
    obtain ⟨rfl, rfl⟩ := Prod.mk.inj (Option.some.inj moved)
    simp only [GetsThrough, asked] at gets_through
    have swept : ((service.connected flaky.online).redis.invalidateByPrefix
        (client.under flaky.answers) text scan now).1 = { service.redis with
          online := flaky.online,
          store := if (service.connected flaky.online).redis.available then
              (RedisCacheBackend.deleteReplies (client.under flaky.answers) now
                service.redis.store (scan (config.keyPrefix ++ text ++ "*"))).1
            else service.redis.store } := by
      rw [RedisCacheBackend.invalidateByPrefix, ← accounted.same_prefix]
      split <;> rfl
    simp only [CacheService.invalidateByPrefix, enabled, if_true]
    rw [swept]
    refine accounted.sweep (by rw [clock, asked]; rfl) ahead ?_ ?_
    · intro key entry present
      simpa [asked, removes] using
        MemoryCacheBackend.invalidateByPrefix_store service.memory text present
    · simpa [asked, removes] using gets_through
  | clear scan now =>
    rw [asked] at ahead
    simp only [flakyStep, asked, CacheService.step] at moved
    obtain ⟨rfl, rfl⟩ := Prod.mk.inj (Option.some.inj moved)
    simp only [GetsThrough, asked] at gets_through
    have swept : (service.connected flaky.online).redis.clear (client.under flaky.answers) scan
        now = { service.redis with
          online := flaky.online,
          store := if (service.connected flaky.online).redis.available then
              (RedisCacheBackend.deleteReplies (client.under flaky.answers) now
                service.redis.store (scan (config.keyPrefix ++ "*"))).1
            else service.redis.store } := by
      rw [RedisCacheBackend.clear, ← accounted.same_prefix]
      split <;> rfl
    simp only [CacheService.clear, enabled, if_true]
    rw [swept]
    refine accounted.sweep (by rw [clock, asked]; rfl) ahead ?_ ?_
    · intro key entry present
      simp [connected, MemoryCacheBackend.clear] at present
    · simpa [asked, removes] using gets_through

end Steps

theorem accounted_always {client : RedisClient Store} {blank : Store}
    {healthy : client.Healthy blank} (refuses : healthy.RefusesNoTime) (codec : JsonCodec Value)
    {config : CacheConfiguration} (enabled : config.enabled = true)
    {past : List (FlakyCall Value × CacheAnswer Value)} {service : CacheService Value Store}
    (run : (flakyMachine client codec config blank).Run (DeletionsGetThrough config healthy) past
      service) : ∃ contents, Accounted codec config healthy past service contents := by
  refine run.invariant (fun past service =>
    ∃ contents, Accounted codec config healthy past service contents) ⟨TtlMap.nothing, ?_⟩ ?_
  · refine ⟨rfl, rfl, fun now _ => mirrors_blank, ?_, ?_⟩
    · intro key entry present
      simp [flakyMachine, initial] at present
    · intro now _ key entry live
      simp at live
  · intro past service flaky after answer _ known permitted moved
    obtain ⟨contents, accounted⟩ := known
    exact accounted.step refuses enabled permitted moved

def onlineAt (call : CacheCall Bool) : FlakyCall Bool := ⟨call, true, true⟩

end CacheService
end AstraPort.Cache
