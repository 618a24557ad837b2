import AstraPort.Foundation.Glob
import AstraPort.Cache.Mirror

/- Invalidation by prefix on both layers: L1 compares the beginnings of keys, L2 makes a glob
   pattern of the prefix. They agree when no sign of the pattern has a meaning of its own. -/
namespace AstraPort.Cache
open MemoryCacheBackend (startsWith)

/-- Behind the configured prefix, the pattern of a text matches just what begins with it. -/
def AgreedPrefix (keyPrefix text : String) : Prop := Glob.FitsPrefix keyPrefix.toList text.toList

section Agreement
variable {Value Store : Type} {client : RedisClient Store} {blank : Store}

/-- No key that begins with the text is found any more, and every other entry is where it
    was, in either layer. -/
structure Invalidated (healthy : client.Healthy blank) (codec : JsonCodec Value)
    (config : CacheConfiguration) (text : String) (now : Nat)
    (service after : CacheService Value Store) : Prop where
  gone : ∀ later ≥ now, ∀ key, startsWith text key = true →
    (after.get client codec config key later).2 = none
  memory_kept : ∀ key, startsWith text key = false →
    after.memory.store.get key = service.memory.store.get key
  redis_kept : ∀ later ≥ now, ∀ key, startsWith text key = false →
    healthy.held after.redis.store later (service.redis.keyPrefix ++ key) =
      healthy.held service.redis.store later (service.redis.keyPrefix ++ key)

/-- Every invalidation of the text on a server under this key prefix that answers, whatever
    is stored there and in L1. -/
def AlwaysInvalidated (healthy : client.Healthy blank) (codec : JsonCodec Value)
    (config : CacheConfiguration) (keyPrefix text : String) : Prop :=
  ∀ (service : CacheService Value Store) (contents : TtlMap String String) (now : Nat)
    (scan : ScanReplies), service.redis.available = true → service.redis.keyPrefix = keyPrefix →
    Mirrors healthy now service.redis.store contents →
    healthy.Scans service.redis.store now (keyPrefix ++ text ++ "*")
      (scan (keyPrefix ++ text ++ "*")) →
    Invalidated healthy codec config text now service
      (service.invalidateByPrefix client config text scan now).1

/-- Patterns match as the documentation of Redis says. -/
def Documented (healthy : client.Healthy blank) : Prop :=
  ∀ pattern key, healthy.glob pattern key ↔ Glob.globMatches pattern.toList key.toList = true

theorem agreed_iff (keyPrefix text : String) : AgreedPrefix keyPrefix text ↔
    ∀ key : String, Glob.globMatches (keyPrefix ++ text ++ "*").toList (keyPrefix ++ key).toList =
      startsWith text key := by
  have all_keys : (∀ key : String, Glob.globMatches (keyPrefix ++ text ++ "*").toList
        (keyPrefix ++ key).toList = startsWith text key) ↔
      ∀ rest, Glob.globMatches (keyPrefix.toList ++ text.toList ++ ['*'])
        (keyPrefix.toList ++ rest) = true ↔ text.toList <+: rest := by
    constructor
    · intro all rest
      have one := all (String.ofList rest)
      simp only [String.toList_append, String.toList_ofList, startsWith] at one
      rw [← List.isPrefixOf_iff_prefix, ← one]
      rfl
    · intro all key
      rw [Bool.eq_iff_iff, startsWith_iff, String.toList_append, String.toList_append,
        String.toList_append]
      exact all key.toList
  rw [all_keys, AgreedPrefix]
  by_cases empty : text.toList = []
  · simp [empty, Glob.FitsPrefix]
  · exact ⟨Glob.agreement_of_fits empty, Glob.fits_of_agreement empty⟩

variable (healthy : client.Healthy blank) {codec : JsonCodec Value} {config : CacheConfiguration}
  {keyPrefix text : String}

theorem invalidated_when_disabled (disabled : config.enabled = false) :
    AlwaysInvalidated healthy codec config keyPrefix text := by
  intro service contents now scan _ _ _ _
  have unchanged : (service.invalidateByPrefix client config text scan now).1 = service := by
    simp [CacheService.invalidateByPrefix, disabled]
  rw [unchanged]
  exact ⟨fun later _ key _ => by simp [CacheService.get, disabled], fun _ _ => rfl,
    fun _ _ _ _ => rfl⟩

theorem get_absent {service : CacheService Value Store} {key : String} {now : Nat}
    (absent : service.memory.store.get key = none)
    (unheld : healthy.held service.redis.store now (service.redis.keyPrefix ++ key) = none) :
    (service.get client codec config key now).2 = none := by
  have missed : service.memory.get key now = (service.memory, none) := by
    simp [MemoryCacheBackend.get, absent]
  have no_answer : service.redis.getWithTtl client codec key now = none := by
    simp [RedisCacheBackend.getWithTtl, healthy.get_answers, unheld]
  simp [CacheService.get, missed, no_answer]

/- What an invalidation does where it reaches the server. -/
theorem invalidateByPrefix_reaches {service : CacheService Value Store} (scan : ScanReplies)
    (now : Nat) (enabled : config.enabled = true) (reachable : service.redis.available = true)
    (own : service.redis.keyPrefix = keyPrefix) :
    (service.invalidateByPrefix client config text scan now).1 =
      { memory := (service.memory.invalidateByPrefix text).1,
        redis := { service.redis with
          store := (RedisCacheBackend.deleteReplies client now service.redis.store
            (scan (keyPrefix ++ text ++ "*"))).1 } } := by
  simp [CacheService.invalidateByPrefix, enabled, RedisCacheBackend.invalidateByPrefix, reachable, own]

theorem invalidated_when_agreed (documented : Documented healthy) (enabled : config.enabled = true)
    (agreed : AgreedPrefix keyPrefix text) :
    AlwaysInvalidated healthy codec config keyPrefix text := by
  intro service contents now scan reachable own mirrors scans
  have matching (key : String) : healthy.glob (keyPrefix ++ text ++ "*") (keyPrefix ++ key) ↔
      startsWith text key = true := by
    rw [documented, (agreed_iff keyPrefix text).mp agreed]
  have swept (later : Nat) (ahead : now ≤ later) (key : String) :
      healthy.held (RedisCacheBackend.deleteReplies client now service.redis.store
          (scan (keyPrefix ++ text ++ "*"))).1 later (keyPrefix ++ key) =
        if keyPrefix ++ key ∈ listed (scan (keyPrefix ++ text ++ "*")) then none
        else healthy.held service.redis.store later (keyPrefix ++ key) :=
    RedisCacheBackend.deleteReplies_held healthy now scans.never_rejects ahead (keyPrefix ++ key)
  rw [invalidateByPrefix_reaches scan now enabled reachable own]
  refine ⟨?_, ?_, ?_⟩
  · intro later ahead key starts
    refine get_absent healthy ?_ ?_
    · simp [MemoryCacheBackend.invalidateByPrefix, InsertionMap.get_keep, starts]
    · rw [own, swept later ahead key]
      split
      · rfl
      · rename_i unlisted
        have absent : healthy.held service.redis.store now (keyPrefix ++ key) = none := by
          by_contra held
          exact unlisted (scans.all_matching _ ((matching key).mpr starts) held)
        rw [mirrors.at_once] at absent
        rw [mirrors later ahead]
        exact TtlMap.dead_stays_dead absent ahead
  · intro key other
    simp only [MemoryCacheBackend.invalidateByPrefix, InsertionMap.get_keep, other]
    cases service.memory.store.get key <;> rfl
  · intro later ahead key other
    have unlisted : keyPrefix ++ key ∉ listed (scan (keyPrefix ++ text ++ "*")) := by
      intro named
      have starts := (matching key).mp (scans.only_matching _ named)
      rw [other] at starts
      cases starts
    rw [own, swept later ahead key, if_neg unlisted]

/-- A cache with nothing in L1. -/
def onlyRedis (keyPrefix : String) (stored : Store) : CacheService Value Store :=
  { memory := { maxKeys := 0, store := InsertionMap.empty },
    redis := { keyPrefix := keyPrefix, configured := true, online := true, store := stored } }

/- One key in L2 alone shows any disagreement. -/
theorem agreed_when_invalidated (documented : Documented healthy) (enabled : config.enabled = true)
    {value : Value} (readable : codec.parse (codec.stringify value) = some value)
    (always : AlwaysInvalidated healthy codec config keyPrefix text) :
    AgreedPrefix keyPrefix text := by
  rw [agreed_iff]
  intro key
  have empty : Mirrors healthy 0 blank TtlMap.nothing := mirrors_blank
  obtain ⟨stored, _, mirrors⟩ :=
    empty.store (keyPrefix ++ key) (codec.stringify value) Nat.one_pos
  have live : (TtlMap.store TtlMap.nothing (keyPrefix ++ key) (codec.stringify value) (0 + 1)).live 0
      (keyPrefix ++ key) = some ⟨codec.stringify value, 1⟩ := by simp [TtlMap.live_store]
  have held := mirrors.at_once (keyPrefix ++ key)
  rw [live] at held
  let matched := Glob.globMatches (keyPrefix ++ text ++ "*").toList (keyPrefix ++ key).toList
  let replies := [some (if matched then [keyPrefix ++ key] else [])]
  have listed_iff : ∀ other, other ∈ listed replies ↔ matched = true ∧ other = keyPrefix ++ key := by
    intro other
    cases found : matched <;> simp [replies, listed, found]
  have scans : healthy.Scans stored 0 (keyPrefix ++ text ++ "*") replies := by
    refine ⟨by simp [replies], ?_, ?_⟩
    · intro other named
      obtain ⟨found, rfl⟩ := (listed_iff other).mp named
      exact (documented _ _).mpr found
    · intro other found there
      have same : other = keyPrefix ++ key := by
        by_contra ne
        rw [mirrors.at_once, TtlMap.live_store, if_neg ne] at there
        exact there rfl
      subst same
      exact (listed_iff _).mpr ⟨(documented _ _).mp found, rfl⟩
  have invalidated := always (onlyRedis keyPrefix stored) _ 0 (fun _ => replies) rfl rfl mirrors scans
  rw [invalidateByPrefix_reaches _ 0 enabled rfl rfl] at invalidated
  have swept : healthy.held (RedisCacheBackend.deleteReplies client 0 stored replies).1 0
      (keyPrefix ++ key) = if matched = true then none else some ⟨codec.stringify value, 1⟩ := by
    rw [RedisCacheBackend.deleteReplies_held healthy 0 scans.never_rejects (Nat.le_refl 0), held]
    by_cases found : matched = true <;> simp [listed_iff, found]
  show matched = startsWith text key
  cases starts : startsWith text key with
  | false =>
    have kept := invalidated.redis_kept 0 (Nat.le_refl 0) key starts
    by_contra found
    rw [Bool.not_eq_false] at found
    simp only [onlyRedis] at kept
    rw [swept, if_pos found, held] at kept
    cases kept
  | true =>
    have gone := invalidated.gone 0 (Nat.le_refl 0) key starts
    by_contra found
    rw [if_neg found] at swept
    have answer : (RedisCacheBackend.getWithTtl client codec
        { keyPrefix := keyPrefix, configured := true, online := true,
          store := (RedisCacheBackend.deleteReplies client 0 stored replies).1 } key 0) =
        some (value, 1) := by
      simp [RedisCacheBackend.getWithTtl, RedisCacheBackend.available, healthy.get_answers, swept,
        readable]
    have nothing : (MemoryCacheBackend.get (MemoryCacheBackend.invalidateByPrefix
        { maxKeys := 0, store := (InsertionMap.empty : InsertionMap String (CacheEntry Value)) }
        text).1 key 0).2 = none := rfl
    simp only [CacheService.get, enabled, if_true, onlyRedis] at gone
    split at gone
    · rename_i found
      rw [found] at nothing
      cases nothing
    · rw [answer] at gone
      cases gone

end Agreement

/- On a server that answers, an invalidation removes what begins with the text, and nothing
   else, from both layers and for every set of stored keys exactly for a text without *, ?, [
   and backslash behind a key prefix without *, [ and backslash; for the empty text, exactly
   when the key prefix as a pattern matches whatever begins with it. -/
theorem prefix_layers_agree_iff {Value Store : Type} {client : RedisClient Store} {blank : Store}
    (healthy : client.Healthy blank) (documented : Documented healthy) (codec : JsonCodec Value)
    {value : Value} (readable : codec.parse (codec.stringify value) = some value)
    (config : CacheConfiguration) (keyPrefix text : String) :
    AlwaysInvalidated healthy codec config keyPrefix text ↔
      config.enabled = false ∨ AgreedPrefix keyPrefix text := by
  cases enabled : config.enabled with
  | false => exact iff_of_true (invalidated_when_disabled healthy enabled) (Or.inl rfl)
  | true =>
    constructor
    · intro always
      exact Or.inr (agreed_when_invalidated healthy documented enabled readable always)
    · intro agreed
      rcases agreed with disabled | agreed
      · cases disabled
      · exact invalidated_when_agreed healthy documented enabled agreed

/-- The server that keeps its keys in a map, with patterns as documented. -/
def globbing : mapClient.Healthy InsertionMap.empty :=
  { mapClientHealthy with
    glob := fun pattern key => Glob.globMatches pattern.toList key.toList = true
    glob_literal := by
      intro text literal key
      have agreed : AgreedPrefix "" text := by
        unfold AgreedPrefix Glob.FitsPrefix
        split
        · exact fun rest => Glob.matchTokens_trailing
        · refine ⟨?_, by simp⟩
          intro c member sign
          have plain := literal c member
          simp only [globCharacters, List.mem_cons, List.not_mem_nil, or_false] at plain sign
          rcases sign with rfl | rfl | rfl | rfl <;> simp at plain
      have matching := (agreed_iff "" text).mp agreed key
      rw [String.empty_append, String.empty_append] at matching
      rw [matching, startsWith_iff] }

theorem prefix_layers_agree_for_quotes :
    AlwaysInvalidated globbing booleans tinyCache "astraport:cache:" "cache:Quotes:" ↔
      tinyCache.enabled = false ∨ AgreedPrefix "astraport:cache:" "cache:Quotes:" :=
  prefix_layers_agree_iff globbing (fun _ _ => Iff.rfl) booleans
    (show booleans.parse (booleans.stringify true) = some true from rfl) tinyCache _ _

/-- A list method called with an empty array has been cached in L2. -/
def quotesStored : InsertionMap String (TtlEntry String) :=
  InsertionMap.empty.set "astraport:cache:cache:Quotes:list:[]" ⟨"true", 60000⟩

/- All list calls on an array are to go, and the pattern takes the bracket of their keys for the
   beginning of a set: it matches none of them, and the value is found again. -/
theorem bracketed_keys_survive :
    ¬ ∀ text, AlwaysInvalidated globbing booleans tinyCache "astraport:cache:" text := by
  intro all
  let service : CacheService Bool _ := onlyRedis "astraport:cache:" quotesStored
  have mirrors : Mirrors globbing 0 quotesStored
      (TtlMap.store TtlMap.nothing "astraport:cache:cache:Quotes:list:[]" "true" 60000) := by
    have empty : Mirrors globbing 0 InsertionMap.empty TtlMap.nothing := mirrors_blank
    obtain ⟨stored, set, mirrors⟩ := empty.store "astraport:cache:cache:Quotes:list:[]" "true"
      (show 0 < 60000 by decide)
    cases set
    exact mirrors
  have unmatched : Glob.globMatches "astraport:cache:cache:Quotes:list:[*".toList
      "astraport:cache:cache:Quotes:list:[]".toList = false := by decide +kernel
  have scans : globbing.Scans quotesStored 0 ("astraport:cache:" ++ "cache:Quotes:list:[" ++ "*")
      [some []] := by
    refine ⟨by simp, by simp [listed], ?_⟩
    intro key found there
    rw [mirrors.at_once, TtlMap.live_store] at there
    split at there
    · rename_i same
      subst same
      exact absurd (found.symm.trans unmatched) (by decide)
    · exact absurd rfl there
  have invalidated := all "cache:Quotes:list:[" service _ 0 (fun _ => [some []]) rfl rfl mirrors scans
  have gone := invalidated.gone 1 (by decide) "cache:Quotes:list:[]" (by decide +kernel)
  revert gone
  decide +kernel

end AstraPort.Cache
