import AstraPort.Cache.Refinement

/- What the server behind the client holds, as one map with an expiry per key. The commands
   of the second layer change that map or leave it, whether they are answered, rejected or
   never sent. -/
namespace AstraPort.Cache

/-- Commands of a connection on which everything is rejected. -/
def RedisClient.failing {Store : Type} : RedisClient Store where
  getWithPttl _ _ _ := none
  setPx _ _ _ _ _ := none
  del _ _ _ := none

/-- One command at a time is answered or rejected. -/
def RedisClient.under {Store : Type} (client : RedisClient Store) (answers : Bool) :
    RedisClient Store := if answers then client else RedisClient.failing

/-- A SET without time to live brings nothing in: the server refuses it, or forgets the key. -/
def RedisClient.Healthy.RefusesNoTime {Store : Type} {client : RedisClient Store} {blank : Store}
    (healthy : client.Healthy blank) : Prop :=
  ∀ store now key raw,
    (∀ later ≥ now, ∀ other, healthy.held ((client.setPx store now key raw 0).getD store) later
      other = healthy.held store later other) ∨
    (∀ later ≥ now, ∀ other, healthy.held ((client.setPx store now key raw 0).getD store) later
      other = if other = key then none else healthy.held store later other)

section Mirror
variable {Value Store : Type} {client : RedisClient Store} {blank : Store}
  {healthy : client.Healthy blank} {server : Store} {contents : TtlMap String String}
  {now : Nat} {redis : RedisCacheBackend Store} {codec : JsonCodec Value} {answers : Bool}

/-- From an instant on the server holds what the map holds. -/
def Mirrors (healthy : client.Healthy blank) (now : Nat) (server : Store)
    (contents : TtlMap String String) : Prop :=
  ∀ later ≥ now, ∀ key, healthy.held server later key = contents.live later key

theorem Mirrors.later {next : Nat} (mirrors : Mirrors healthy now server contents)
    (ahead : now ≤ next) : Mirrors healthy next server contents := fun later reached =>
  mirrors later (Nat.le_trans ahead reached)

theorem Mirrors.at_once (mirrors : Mirrors healthy now server contents) (key : String) :
    healthy.held server now key = contents.live now key := mirrors now (Nat.le_refl now) key

theorem mirrors_blank : Mirrors healthy now blank TtlMap.nothing := by
  intro later _ key
  rw [healthy.blank_holds, TtlMap.live_nothing]

variable (answers) in
/- A hit of the second layer is live in the map, with the time it has left. -/
theorem Mirrors.hit (mirrors : Mirrors healthy now redis.store contents) {key : String}
    {value : Value} {pttlMs : Nat}
    (found : redis.getWithTtl (client.under answers) codec key now = some (value, pttlMs)) :
    ∃ entry, contents.live now (redis.keyPrefix ++ key) = some entry ∧
      codec.parse entry.value = some value ∧ now + pttlMs = entry.expiry := by
  unfold RedisCacheBackend.getWithTtl at found
  split at found
  · cases answers with
    | false => simp [RedisClient.under, RedisClient.failing] at found
    | true =>
      simp only [RedisClient.under, if_true, healthy.get_answers, mirrors.at_once] at found
      cases live : contents.live now (redis.keyPrefix ++ key) with
      | none => simp [live] at found
      | some entry =>
        simp only [live] at found
        obtain ⟨parsed, decoded, same⟩ := Option.map_eq_some_iff.mp found
        obtain ⟨rfl, rfl⟩ := Prod.mk.inj same
        have ahead := (TtlMap.live_some.mp live).2
        refine ⟨entry, rfl, decoded, ?_⟩
        rw [if_pos (by omega)]
        omega
  · cases found

/- A reachable server that answers finds what is live and can be parsed. -/
theorem Mirrors.finds (mirrors : Mirrors healthy now redis.store contents)
    (reachable : redis.available = true) {key : String} {entry : TtlEntry String} {value : Value}
    (live : contents.live now (redis.keyPrefix ++ key) = some entry)
    (parsed : codec.parse entry.value = some value) :
    redis.getWithTtl client codec key now = some (value, entry.expiry - now) := by
  have ahead := (TtlMap.live_some.mp live).2
  have time_left : ((entry.expiry : Int) - now).toNat = entry.expiry - now := by omega
  have some_time : (0 : Int) < (entry.expiry : Int) - now := by omega
  simp only [RedisCacheBackend.getWithTtl, reachable, if_true, healthy.get_answers,
    mirrors.at_once, live, parsed, if_pos some_time, time_left, Option.map_some]

/-- What a write may leave of the map: the new entry, the map as it was, or the map without
    the key. -/
inductive Written (contents : TtlMap String String) (key : String) (entry : TtlEntry String) :
    TtlMap String String → Prop where
  | stored : Written contents key entry (contents.store key entry.value entry.expiry)
  | refused : Written contents key entry contents
  | forgotten : Written contents key entry (contents.forget fun other => decide (other = key))

theorem Mirrors.store (mirrors : Mirrors healthy now server contents) (key raw : String)
    {ttlMs : Nat} (positive : 0 < ttlMs) :
    ∃ stored, client.setPx server now key raw ttlMs = some stored ∧
      Mirrors healthy now stored (contents.store key raw (now + ttlMs)) := by
  obtain ⟨stored, answered, holds⟩ := healthy.set_holds server now key raw ttlMs positive
  refine ⟨stored, answered, fun later reached other => ?_⟩
  rw [holds later reached, TtlMap.live_store, mirrors later reached]

theorem Mirrors.del (mirrors : Mirrors healthy now server contents) (keys : List String) :
    ∃ left, client.del server now keys = some left ∧
      Mirrors healthy now left (contents.forget fun key => decide (key ∈ keys)) := by
  obtain ⟨left, deleted, forgets⟩ := healthy.del_forgets server now keys
  refine ⟨left, deleted, fun later reached key => ?_⟩
  rw [forgets later reached, TtlMap.live_forget, mirrors later reached]
  simp

end Mirror

section Server
variable {Value Store : Type} (client : RedisClient Store) (codec : JsonCodec Value)
  (redis : RedisCacheBackend Store) (key : String) (now : Nat)

/- SET and DEL change nothing but what the server holds. -/
theorem RedisCacheBackend.set_server (value : Value) (ttlMs : Nat) :
    redis.set client codec key value ttlMs now =
      { redis with store := (redis.set client codec key value ttlMs now).store } := by
  unfold RedisCacheBackend.set
  split <;> rfl

theorem RedisCacheBackend.del_server : redis.del client key now =
    { redis with store := (redis.del client key now).store } := by
  unfold RedisCacheBackend.del
  split <;> rfl

end Server

section Writes
variable {Value Store : Type} {client : RedisClient Store} {blank : Store}
  {healthy : client.Healthy blank} {contents : TtlMap String String} {now : Nat}
  {redis : RedisCacheBackend Store} {codec : JsonCodec Value} {answers : Bool}

variable (codec answers) in
theorem Mirrors.set (mirrors : Mirrors healthy now redis.store contents)
    (refuses : healthy.RefusesNoTime) (key : String) (value : Value) (ttlMs : Nat) :
    ∃ left, Mirrors healthy now (redis.set (client.under answers) codec key value ttlMs now).store
        left ∧
      Written contents (redis.keyPrefix ++ key) ⟨codec.stringify value, now + ttlMs⟩ left := by
  unfold RedisCacheBackend.set
  split
  · cases answers with
    | false => exact ⟨contents, mirrors, .refused⟩
    | true =>
      simp only [RedisClient.under, if_true, RedisCacheBackend.keepStore]
      rcases Nat.eq_zero_or_pos ttlMs with rfl | positive
      · rcases refuses redis.store now (redis.keyPrefix ++ key) (codec.stringify value) with
          same | forgotten
        · refine ⟨contents, fun later reached other => ?_, .refused⟩
          rw [same later reached, mirrors later reached]
        · refine ⟨_, fun later reached other => ?_, .forgotten⟩
          rw [forgotten later reached, TtlMap.live_forget, mirrors later reached]
          simp
      · obtain ⟨stored, answered, now_mirrors⟩ := mirrors.store (redis.keyPrefix ++ key)
          (codec.stringify value) positive
        rw [answered]
        exact ⟨_, now_mirrors, .stored⟩
  · exact ⟨contents, mirrors, .refused⟩

/- An answered SET with time to live takes effect. -/
theorem Mirrors.set_answered (mirrors : Mirrors healthy now redis.store contents)
    (reachable : redis.available = true) (key : String) (value : Value) {ttlMs : Nat}
    (positive : 0 < ttlMs) : Mirrors healthy now (redis.set client codec key value ttlMs now).store
      (contents.store (redis.keyPrefix ++ key) (codec.stringify value) (now + ttlMs)) := by
  obtain ⟨stored, answered, now_mirrors⟩ := mirrors.store (redis.keyPrefix ++ key)
    (codec.stringify value) positive
  simpa only [RedisCacheBackend.set, reachable, if_true, RedisCacheBackend.keepStore, answered,
    Option.getD_some] using now_mirrors

/-- The keys of the replies that arrive before a command is rejected. -/
def reached (replies : List (Option (List String))) : List String :=
  listed (replies.takeWhile Option.isSome)

theorem mem_reached_cons (key : String) (keys : List String) (rest : List (Option (List String))) :
    key ∈ reached (some keys :: rest) ↔ key ∈ keys ∨ key ∈ reached rest := by
  simp [reached, mem_listed_cons]

theorem forget_nothing (contents : TtlMap String String) :
    contents.forget (fun _ => false) = contents := by
  funext key
  simp [TtlMap.forget]

theorem deleteReplies_failing (server : Store) (replies : List (Option (List String))) :
    (RedisCacheBackend.deleteReplies (RedisClient.failing : RedisClient Store) now server
      replies).1 = server := by
  induction replies with
  | nil => rfl
  | cons reply rest ih =>
    cases reply with
    | none => rfl
    | some keys =>
      rw [RedisCacheBackend.deleteReplies]
      split
      · exact ih
      · rfl

theorem Mirrors.deleteReplies {server : Store} (mirrors : Mirrors healthy now server contents)
    (replies : List (Option (List String))) :
    Mirrors healthy now (RedisCacheBackend.deleteReplies client now server replies).1
      (contents.forget fun key => decide (key ∈ reached replies)) := by
  induction replies generalizing server contents with
  | nil => simpa [reached, listed, RedisCacheBackend.deleteReplies, forget_nothing] using mirrors
  | cons reply rest ih =>
    cases reply with
    | none =>
      simpa [reached, listed, RedisCacheBackend.deleteReplies, forget_nothing] using mirrors
    | some keys =>
      rw [RedisCacheBackend.deleteReplies]
      split
      · rename_i nothing
        simpa [mem_reached_cons, nothing] using ih mirrors
      · obtain ⟨left, deleted, now_mirrors⟩ := mirrors.del keys
        simp only [deleted]
        intro later ahead key
        rw [ih now_mirrors later ahead key, TtlMap.live_forget, TtlMap.live_forget,
          TtlMap.live_forget]
        by_cases in_reply : key ∈ keys <;> simp [mem_reached_cons, in_reply]

variable (answers) in
/- A DEL, and a SCAN loop, take what they name out of the map when they get through. -/
theorem Mirrors.redis_del (mirrors : Mirrors healthy now redis.store contents) (key : String) :
    Mirrors healthy now (redis.del (client.under answers) key now).store
      (contents.forget fun other =>
        redis.available && answers && decide (other = redis.keyPrefix ++ key)) := by
  unfold RedisCacheBackend.del
  split
  · rename_i reachable
    cases answers with
    | false =>
      simpa [RedisClient.under, RedisClient.failing, RedisCacheBackend.keepStore, forget_nothing]
        using mirrors
    | true =>
      obtain ⟨left, deleted, now_mirrors⟩ := mirrors.del [redis.keyPrefix ++ key]
      simpa [RedisClient.under, RedisCacheBackend.keepStore, deleted, reachable] using now_mirrors
  · rename_i unreachable
    simpa [unreachable, forget_nothing] using mirrors

variable (answers) in
theorem Mirrors.redis_sweep (mirrors : Mirrors healthy now redis.store contents)
    (replies : List (Option (List String))) :
    Mirrors healthy now (if redis.available then (RedisCacheBackend.deleteReplies
        (client.under answers) now redis.store replies).1 else redis.store)
      (contents.forget fun other =>
        redis.available && answers && decide (other ∈ reached replies)) := by
  split
  · rename_i reachable
    cases answers with
    | false =>
      rw [RedisClient.under, if_neg (by decide), deleteReplies_failing]
      simpa [forget_nothing] using mirrors
    | true => simpa [RedisClient.under, reachable] using mirrors.deleteReplies replies
  · rename_i unreachable
    simpa [unreachable, forget_nothing] using mirrors

end Writes

theorem mapClient_refuses : mapClientHealthy.RefusesNoTime := by
  intro store now key raw
  right
  intro later ahead other
  simp only [mapClient, mapClientHealthy, Option.getD_some, InsertionMap.get_set]
  by_cases same : other = key
  · simp [same, Option.filter, ahead]
  · simp [same]

end AstraPort.Cache
