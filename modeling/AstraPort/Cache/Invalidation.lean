import AstraPort.Cache.Decorated
import AstraPort.Cache.Deletions

/- Fills against invalidations. A producer that starts before a mutation can end after the
   invalidation that follows it; its value then goes into layers that were swept already. -/
namespace AstraPort.Cache
open MemoryCacheBackend (startsWith)
open CacheService (Image)
open InsertionMap (get_set_others get_delete_others get_set_own get_delete_own)
namespace DecoratedCache
variable {Value Store : Type}

abbrev History (Value : Type) := List (TimedDecorated Value × DecoratedAnswer Value)

/-- A task has shown an answer. -/
def Shows (task : Nat) (answer : DecoratedAnswer Value) (since : History Value) : Prop :=
  ∃ e ∈ since, e.1.call.task = task ∧ e.2 = answer

instance [DecidableEq Value] (task : Nat) (answer : DecoratedAnswer Value)
    (since : History Value) : Decidable (Shows task answer since) :=
  inferInstanceAs (Decidable (∃ e ∈ since, e.1.call.task = task ∧ e.2 = answer))

/-- A task has started a cached call. -/
def Starts (task : Nat) (since : History Value) : Prop :=
  ∃ e ∈ since, e.1.call.starts = some task

/-- The key for which a task has last called a producer. -/
def called (task : Nat) : History Value → Option String
  | [] => none
  | e :: since =>
    match e.2 with
    | .calling key => if e.1.call.task = task then some key else called task since
    | _ => called task since

/-- A producer called for the key within this part of a history has given such a value. -/
def Produced (key : String) (ok : Value → Prop) : History Value → Prop
  | [] => False
  | e :: since => (∃ value ∈ e.1.call.result, called e.1.call.task since = some key ∧ ok value) ∨
      Produced key ok since

instance (key : String) (ok : Value → Prop) [DecidablePred ok] (since : History Value) :
    Decidable (Produced key ok since) := by
  induction since with
  | nil => exact isFalse id
  | cons e since ih =>
    unfold Produced
    infer_instance

instance [DecidableEq Value] (codec : JsonCodec Value) (value answer : Value) :
    Decidable (Image codec value answer) :=
  inferInstanceAs (Decidable (answer = value ∨ codec.parse (codec.stringify value) = some answer))

/-- A cached call that starts after an invalidation has returned answers a value of a producer
    called after the mutation. -/
def InvalidationFinal (client : RedisClient Store) (codec : JsonCodec Value)
    (config : CacheConfiguration) (blank : Store)
    (permit : Machine.Permit (DecoratedCache Value Store) (TimedDecorated Value)
      (DecoratedAnswer Value)) : Prop :=
  ∀ past cache, (machine client codec config blank).Run permit past cache →
    ∀ during started asked settled mutation earlier task className methodName args ttlMs last value,
      past = during ++ (started, asked) :: (settled ++ mutation :: earlier) →
      mutation.2 = .mutated (classPrefix className) →
      Shows mutation.1.call.task (.invalidated (classPrefix className)) settled →
      started.call = .cached task className methodName args ttlMs →
      past.head? = some last → last.1.call.task = task →
      last.2.returned = some (cacheKey className methodName args, value) →
      Produced (cacheKey className methodName args) (Image codec · value)
        (during ++ (started, asked) :: settled)

/- A fact about every way to cut a history at an exchange, by position. -/
theorem every_cut {Exchange : Type} {past : List Exchange}
    {holds : List Exchange → Exchange → Prop} :
    (∀ since e earlier, past = since ++ e :: earlier → holds since e) ↔
      ∀ n < past.length, ∀ e ∈ past[n]?, holds (past.take n) e := by
  constructor
  · intro all n short e there
    obtain ⟨_, rfl⟩ := List.getElem?_eq_some_iff.mp there
    exact all _ _ (past.drop (n + 1)) (by simp)
  · rintro all since e earlier rfl
    simpa using all since.length (by simp) e (by simp)

instance {Exchange : Type} (past : List Exchange) (holds : List Exchange → Exchange → Prop)
    [∀ since e, Decidable (holds since e)] :
    Decidable (∀ since e earlier, past = since ++ e :: earlier → holds since e) :=
  decidable_of_iff _ every_cut.symm

section Conditions
variable {client : RedisClient Store} {blank : Store} (codec : JsonCodec Value)
  (config : CacheConfiguration) (healthy : client.Healthy blank)

/-- What a call puts into a layer gets there. -/
def brings : DecoratedCall Value → Bool
  | .produced _ result => result.isSome
  | .proceed _ redis => config.redisEnabled && redis.online && redis.answers
  | _ => false

/-- The turn of a fill, for a mutation and what has happened since. After the sweep of L1 only
    producers called since the mutation store their values there; after the invalidation only
    they write L2; and a value read from L2 before the end of the invalidation is promoted
    after the sweep of L1 only if such a producer gave it. -/
def InTime (invalidation : Nat) (text : String) (since : History Value) (task : Nat)
    (gets_through : Bool) : DecoratedStage Value → Prop
  | .produce key _ => gets_through = true → startsWith text key = true →
      Shows invalidation (.swept text) since → called task since = some key
  | .write key _ _ => gets_through = true → startsWith text key = true →
      Shows invalidation (.invalidated text) since → called task since = some key
  | .promote key value _ => startsWith text key = true → Shows invalidation (.swept text) since →
      Shows invalidation (.invalidated text)
        (since.dropWhile fun e => decide (e.1.call.task ≠ task)) ∨
      Produced key (Image codec · value) since
  | _ => True

instance [DecidableEq Value] (invalidation : Nat) (text : String) (since : History Value)
    (task : Nat) (gets_through : Bool) (stage : DecoratedStage Value) :
    Decidable (InTime codec invalidation text since task gets_through stage) := by
  unfold InTime
  split <;> infer_instance

/-- When an invalidation ends, L2 holds under its prefix only what producers called since the
    mutation gave. -/
def SweepsThrough (invalidation : Nat) (text : String) (since : History Value)
    (cache : DecoratedCache Value Store) (timed : TimedDecorated Value) : Prop :=
  timed.call.task = invalidation → cache.tasks.get invalidation = some (.close text) →
    ∀ key entry, startsWith text key = true →
      healthy.held cache.service.redis.store timed.now (config.keyPrefix ++ key) = some entry →
      Produced key (fun value => codec.stringify value = entry.value) since

def FillsInTime : Machine.Permit (DecoratedCache Value Store) (TimedDecorated Value)
    (DecoratedAnswer Value) :=
  fun past cache timed => ∀ since mutation earlier, past = since ++ mutation :: earlier →
    ∀ text ∈ mutation.2.mutates, ∀ stage ∈ cache.tasks.get timed.call.task,
      InTime codec mutation.1.call.task text since timed.call.task (brings config timed.call) stage

instance [DecidableEq Value] (past : History Value) (cache : DecoratedCache Value Store)
    (timed : TimedDecorated Value) : Decidable (FillsInTime codec config past cache timed) := by
  unfold FillsInTime
  infer_instance

def InvalidationsKeepUp : Machine.Permit (DecoratedCache Value Store) (TimedDecorated Value)
    (DecoratedAnswer Value) :=
  fun past cache timed => Machine.ClockAdvances TimedDecorated.now past cache timed ∧
    FillsInTime codec config past cache timed ∧
    ∀ since mutation earlier, past = since ++ mutation :: earlier →
      ∀ text ∈ mutation.2.mutates,
        SweepsThrough codec config healthy mutation.1.call.task text since cache timed

end Conditions

section History
variable {since : History Value} {e : TimedDecorated Value × DecoratedAnswer Value}

theorem shows_cons {task : Nat} {answer : DecoratedAnswer Value} :
    Shows task answer (e :: since) ↔
      (e.1.call.task = task ∧ e.2 = answer) ∨ Shows task answer since := by
  simp [Shows]

theorem Shows.later {task : Nat} {answer : DecoratedAnswer Value}
    (shown : Shows task answer since) : Shows task answer (e :: since) :=
  shows_cons.mpr (Or.inr shown)

theorem Shows.of_other {task : Nat} {answer : DecoratedAnswer Value}
    (shown : Shows task answer (e :: since)) (other : e.2 ≠ answer) : Shows task answer since :=
  (shows_cons.mp shown).resolve_left fun own => other own.2

theorem Produced.later {key : String} {ok : Value → Prop} (produced : Produced key ok since) :
    Produced key ok (e :: since) := Or.inr produced

theorem Produced.imp {key : String} {ok weaker : Value → Prop}
    (produced : Produced key ok since) (imp : ∀ value, ok value → weaker value) :
    Produced key weaker since := by
  induction since with
  | nil => exact produced
  | cons e since ih =>
    rcases produced with ⟨value, given, called_now, holds⟩ | before
    · exact Or.inl ⟨value, given, called_now, imp value holds⟩
    · exact Or.inr (ih before)

theorem called_other {task : Nat} (other : e.1.call.task ≠ task) :
    called task (e :: since) = called task since := by
  simp only [called]
  split
  · rw [if_neg other]
  · rfl

theorem called_quiet {task : Nat} (quiet : ∀ key, e.2 ≠ .calling key) :
    called task (e :: since) = called task since := by
  simp only [called]

theorem starts_cons {task : Nat} :
    Starts task (e :: since) ↔ e.1.call.starts = some task ∨ Starts task since := by
  simp [Starts]

theorem starts_own {task : Nat} {call : DecoratedCall Value} (starts : call.starts = some task) :
    call.task = task := by
  cases call <;> simp_all [DecoratedCall.starts, DecoratedCall.task]

/- Every key of a class carries its prefix. -/
theorem startsWith_cacheKey (className methodName : String) (args : List String) :
    startsWith (classPrefix className) (cacheKey className methodName args) = true := by
  rw [startsWith_iff]
  simp only [cacheKey, classPrefix, String.toList_append, List.append_assoc,
    List.prefix_append_right_inj]
  exact List.prefix_append _ _

end History

/-- What every run keeps: the parts of the service that no call changes, L2 as a map with an
    expiry per key, and the awaits that only an enabled cache has. -/
structure Wired (config : CacheConfiguration) {client : RedisClient Store} {blank : Store}
    (healthy : client.Healthy blank) (past : History Value) (cache : DecoratedCache Value Store)
    (contents : TtlMap String String) : Prop where
  same_prefix : cache.service.redis.keyPrefix = config.keyPrefix
  same_switch : cache.service.redis.configured = config.redisEnabled
  mirrored : ∀ now, (∀ e ∈ past, e.1.now ≤ now) →
    Mirrors healthy now cache.service.redis.store contents
  caching : ∀ task stage, cache.tasks.get task = some stage → stage.caches = true →
    config.enabled = true

/-- What the value or the part of a call at an await has to do with a mutation. -/
def StageFresh (codec : JsonCodec Value) (invalidation : Nat) (text : String)
    (since : History Value) (task : Nat) : DecoratedStage Value → Prop
  | .produce key _ => Starts task since → called task since = some key
  | .write key value _ => (Starts task since → called task since = some key) ∧
      (called task since = some key → Produced key (· = value) since)
  | .promote key value _ => startsWith text key = true →
      Shows invalidation (.invalidated text)
        (since.dropWhile fun e => decide (e.1.call.task ≠ task)) →
      Produced key (Image codec · value) since
  | _ => True

/-- Once an invalidation has swept a layer, the layer holds under its prefix only what
    producers called since the mutation gave. -/
structure Fresh (codec : JsonCodec Value) (config : CacheConfiguration)
    {client : RedisClient Store} {blank : Store} (healthy : client.Healthy blank)
    (invalidation : Nat) (text : String) (since past : History Value)
    (cache : DecoratedCache Value Store) : Prop where
  stages : ∀ task stage, cache.tasks.get task = some stage →
    StageFresh codec invalidation text since task stage
  memory : Shows invalidation (.swept text) since → ∀ key entry, startsWith text key = true →
    cache.service.memory.store.get key = some entry → Produced key (Image codec · entry.value) since
  redis : Shows invalidation (.invalidated text) since →
    ∀ now, (∀ e ∈ past, e.1.now ≤ now) → ∀ key entry, startsWith text key = true →
      healthy.held cache.service.redis.store now (config.keyPrefix ++ key) = some entry →
      Produced key (fun value => codec.stringify value = entry.value) since
  progress : config.enabled = true → Shows invalidation (.swept text) since ∨
    (cache.tasks.get invalidation = some (.sweepMemory text) ∧
      ¬ Shows invalidation (.invalidated text) since)

section Steps
variable {client : RedisClient Store} {codec : JsonCodec Value} {config : CacheConfiguration}
  {blank : Store} {healthy : client.Healthy blank} {past since : History Value}
  {cache : DecoratedCache Value Store} {contents : TtlMap String String}
  {timed : TimedDecorated Value} {answer : DecoratedAnswer Value} {invalidation : Nat}
  {text : String}

/- A turn of one call, with what it leaves in Redis. -/
theorem Wired.keep (wired : Wired config healthy past cache contents)
    {memory : MemoryCacheBackend Value} {tasks : InsertionMap Nat (DecoratedStage Value)}
    (online : Bool) {left : Store} {changed : TtlMap String String}
    (mirrored : ∀ now, (∀ e ∈ (timed, answer) :: past, e.1.now ≤ now) →
      Mirrors healthy now left changed)
    (others : ∀ other, other ≠ timed.call.task → tasks.get other = cache.tasks.get other)
    (own : ∀ stage, tasks.get timed.call.task = some stage → stage.caches = true →
      config.enabled = true) :
    Wired config healthy ((timed, answer) :: past)
      ⟨⟨memory, { cache.service.redis with online := online, store := left }⟩, tasks⟩ changed where
  same_prefix := wired.same_prefix
  same_switch := wired.same_switch
  mirrored := mirrored
  caching := by
    intro task stage running caches
    by_cases same : task = timed.call.task
    · subst same
      exact own stage running caches
    · rw [others task same] at running
      exact wired.caching task stage running caches

theorem Wired.quiet (wired : Wired config healthy past cache contents)
    {memory : MemoryCacheBackend Value} {tasks : InsertionMap Nat (DecoratedStage Value)}
    (others : ∀ other, other ≠ timed.call.task → tasks.get other = cache.tasks.get other)
    (own : ∀ stage, tasks.get timed.call.task = some stage → stage.caches = true →
      config.enabled = true) :
    Wired config healthy ((timed, answer) :: past) ⟨⟨memory, cache.service.redis⟩, tasks⟩
      contents :=
  wired.keep cache.service.redis.online
    (fun now ahead => wired.mirrored now (List.forall_mem_cons.mp ahead).2) others own

theorem Wired.step (wired : Wired config healthy past cache contents)
    (refuses : healthy.RefusesNoTime) (clock : ∀ e ∈ past, e.1.now ≤ timed.now)
    {after : DecoratedCache Value Store}
    (moved : DecoratedCache.step client codec config cache timed = some (after, answer)) :
    ∃ changed, Wired config healthy ((timed, answer) :: past) after changed := by
  have move := step_moves moved
  generalize asked : timed.call = call at move
  have own : timed.call.task = call.task := by rw [asked]
  have at_now : Mirrors healthy timed.now cache.service.redis.store contents :=
    wired.mirrored timed.now clock
  cases move with
  | hit enabled free found =>
    refine ⟨contents, wired.quiet (fun _ _ => rfl) fun stage running => ?_⟩
    rw [own, DecoratedCall.task, free] at running
    cases running
  | missed enabled free =>
    exact ⟨contents, wired.quiet (get_set_others _ _ own) (get_set_own own fun _ => enabled)⟩
  | bypassed free =>
    exact ⟨contents, wired.quiet (get_set_others _ _ own) (get_set_own own nofun)⟩
  | invalidating free =>
    exact ⟨contents, wired.quiet (get_set_others _ _ own) (get_set_own own nofun)⟩
  | read running found =>
    exact ⟨contents, wired.quiet (get_set_others _ _ own) (get_set_own own fun _ =>
      wired.caching _ _ running rfl)⟩
  | absent running =>
    exact ⟨contents, wired.quiet (get_set_others _ _ own) (get_set_own own nofun)⟩
  | promoted running =>
    exact ⟨contents, wired.quiet (get_delete_others _ own) (get_delete_own own)⟩
  | calling running =>
    exact ⟨contents, wired.quiet (get_set_others _ _ own) (get_set_own own nofun)⟩
  | @written task redis key value ttlMs running =>
    have on_server : Mirrors healthy timed.now (cache.redisAt redis).store contents := at_now
    obtain ⟨changed, now_mirrors, _⟩ := on_server.set codec redis.answers refuses key value ttlMs
    refine ⟨changed, ?_⟩
    rw [withRedis, RedisCacheBackend.set_server]
    exact wired.keep redis.online (fun now ahead => now_mirrors.later (ahead _ List.mem_cons_self))
      (get_delete_others _ own) (get_delete_own own)
  | swept running =>
    exact ⟨contents, wired.quiet (get_set_others _ _ own) (get_set_own own nofun)⟩
  | skipped disabled running =>
    exact ⟨contents, wired.quiet (get_set_others _ _ own) (get_set_own own nofun)⟩
  | scanning running goes_on =>
    refine ⟨contents, wired.quiet (get_set_others _ _ own) (get_set_own own ?_)⟩
    rcases goes_on with rfl | rfl <;> exact nofun
  | @deleted task redis text next running goes_on =>
    refine ⟨_, wired.keep cache.service.redis.online (fun now ahead =>
      (at_now.deleteReplies [some redis.keys]).later (ahead _ List.mem_cons_self))
      (get_set_others _ _ own) (get_set_own own ?_)⟩
    rcases goes_on with rfl | rfl <;> exact nofun
  | rejected running =>
    exact ⟨contents, wired.quiet (get_set_others _ _ own) (get_set_own own nofun)⟩
  | closed running =>
    exact ⟨contents, wired.quiet (get_delete_others _ own) (get_delete_own own)⟩
  | stored enabled running =>
    exact ⟨contents, wired.quiet (get_set_others _ _ own) (get_set_own own fun _ => enabled)⟩
  | passed running =>
    exact ⟨contents, wired.quiet (get_delete_others _ own) (get_delete_own own)⟩
  | mutated running =>
    exact ⟨contents, wired.quiet (get_set_others _ _ own) (get_set_own own nofun)⟩
  | threw running =>
    exact ⟨contents, wired.quiet (get_delete_others _ own) (get_delete_own own)⟩

theorem wired_always (refuses : healthy.RefusesNoTime)
    (run : (machine client codec config blank).Run (InvalidationsKeepUp codec config healthy)
      past cache) : ∃ contents, Wired config healthy past cache contents := by
  refine run.invariant (fun past cache => ∃ contents, Wired config healthy past cache contents)
    ⟨TtlMap.nothing, rfl, rfl, fun _ _ => mirrors_blank, ?_⟩ ?_
  · intro task stage running
    simp [machine] at running
  · intro past cache timed after answer _ known permitted moved
    obtain ⟨contents, wired⟩ := known
    exact wired.step refuses permitted.1 moved

/- The turns of other calls do not touch what holds of a call. -/
theorem StageFresh.other {task : Nat} {stage : DecoratedStage Value}
    (fresh : StageFresh codec invalidation text since task stage)
    (other : timed.call.task ≠ task) :
    StageFresh codec invalidation text ((timed, answer) :: since) task stage := by
  have not_started (starts : Starts task ((timed, answer) :: since)) : Starts task since :=
    (starts_cons.mp starts).resolve_left fun own => other (starts_own own)
  have same_call : called task ((timed, answer) :: since) = called task since :=
    called_other other
  cases stage with
  | produce key ttlMs =>
    intro starts
    rw [same_call]
    exact fresh (not_started starts)
  | write key value ttlMs =>
    refine ⟨fun starts => ?_, fun calls => ?_⟩
    · rw [same_call]
      exact fresh.1 (not_started starts)
    · rw [same_call] at calls
      exact (fresh.2 calls).later
  | promote key value pttlMs =>
    intro under ended
    rw [List.dropWhile_cons, if_pos (by simpa using other)] at ended
    exact (fresh under ended).later
  | read key ttlMs => trivial
  | call key ttlMs => trivial
  | mutate text => trivial
  | sweepMemory text => trivial
  | beginScan text => trivial
  | sweepRedis text => trivial
  | close text => trivial

/- A turn of one call: what it is left with, and what the layers hold after it. -/
theorem Fresh.keep (fresh : Fresh codec config healthy invalidation text since past cache)
    {memory : MemoryCacheBackend Value} {tasks : InsertionMap Nat (DecoratedStage Value)}
    {redis : RedisCacheBackend Store}
    (others : ∀ other, other ≠ timed.call.task → tasks.get other = cache.tasks.get other)
    (own : ∀ stage, tasks.get timed.call.task = some stage →
      StageFresh codec invalidation text ((timed, answer) :: since) timed.call.task stage)
    (in_memory : Shows invalidation (.swept text) ((timed, answer) :: since) → ∀ key entry,
      startsWith text key = true → memory.store.get key = some entry →
      Produced key (Image codec · entry.value) ((timed, answer) :: since))
    (in_redis : Shows invalidation (.invalidated text) ((timed, answer) :: since) →
      ∀ now, (∀ e ∈ (timed, answer) :: past, e.1.now ≤ now) → ∀ key entry,
        startsWith text key = true →
        healthy.held redis.store now (config.keyPrefix ++ key) = some entry →
        Produced key (fun value => codec.stringify value = entry.value) ((timed, answer) :: since))
    (stays : config.enabled = true →
      cache.tasks.get timed.call.task = some (.sweepMemory text) → answer = .swept text) :
    Fresh codec config healthy invalidation text ((timed, answer) :: since)
      ((timed, answer) :: past) ⟨⟨memory, redis⟩, tasks⟩ where
  stages := by
    intro task stage running
    by_cases same : task = timed.call.task
    · subst same
      exact own stage running
    · rw [others task same] at running
      exact (fresh.stages task stage running).other (Ne.symm same)
  memory := in_memory
  redis := in_redis
  progress := by
    intro enabled
    rcases fresh.progress enabled with swept | ⟨sweeping, not_ended⟩
    · exact Or.inl swept.later
    · by_cases same : timed.call.task = invalidation
      · refine Or.inl (shows_cons.mpr (Or.inl ⟨same, ?_⟩))
        rw [← same] at sweeping
        exact stays enabled sweeping
      · refine Or.inr ⟨?_, fun ended => ?_⟩
        · rw [others invalidation (Ne.symm same)]
          exact sweeping
        · exact not_ended ((shows_cons.mp ended).resolve_left fun own => same own.1)

theorem Fresh.memory_kept (fresh : Fresh codec config healthy invalidation text since past cache)
    {memory : MemoryCacheBackend Value} (no_sweep : answer ≠ .swept text)
    (within : ∀ key entry, memory.store.get key = some entry →
      cache.service.memory.store.get key = some entry ∨
      (Shows invalidation (.swept text) since → startsWith text key = true →
        Produced key (Image codec · entry.value) ((timed, answer) :: since))) :
    Shows invalidation (.swept text) ((timed, answer) :: since) → ∀ key entry,
      startsWith text key = true → memory.store.get key = some entry →
      Produced key (Image codec · entry.value) ((timed, answer) :: since) := by
  intro swept key entry under present
  have before := swept.of_other no_sweep
  rcases within key entry present with old | brought_in
  · exact (fresh.memory before key entry under old).later
  · exact brought_in before under

theorem Fresh.redis_kept (fresh : Fresh codec config healthy invalidation text since past cache)
    {redis : RedisCacheBackend Store} (no_end : answer ≠ .invalidated text)
    (within : ∀ now ≥ timed.now, ∀ key entry,
      healthy.held redis.store now (config.keyPrefix ++ key) = some entry →
      healthy.held cache.service.redis.store now (config.keyPrefix ++ key) = some entry ∨
      (Shows invalidation (.invalidated text) since → startsWith text key = true →
        Produced key (fun value => codec.stringify value = entry.value) since)) :
    Shows invalidation (.invalidated text) ((timed, answer) :: since) →
      ∀ now, (∀ e ∈ (timed, answer) :: past, e.1.now ≤ now) → ∀ key entry,
        startsWith text key = true →
        healthy.held redis.store now (config.keyPrefix ++ key) = some entry →
        Produced key (fun value => codec.stringify value = entry.value)
          ((timed, answer) :: since) := by
  intro ended now ahead key entry under held
  have before := ended.of_other no_end
  rcases within now (ahead _ List.mem_cons_self) key entry held with old | brought_in
  · exact (fresh.redis before now (List.forall_mem_cons.mp ahead).2 key entry under old).later
  · exact (brought_in before under).later

/- A turn that shows nothing of an invalidation and leaves Redis as it is. -/
theorem Fresh.quiet (fresh : Fresh codec config healthy invalidation text since past cache)
    {memory : MemoryCacheBackend Value} {tasks : InsertionMap Nat (DecoratedStage Value)}
    (others : ∀ other, other ≠ timed.call.task → tasks.get other = cache.tasks.get other)
    (own : ∀ stage, tasks.get timed.call.task = some stage →
      StageFresh codec invalidation text ((timed, answer) :: since) timed.call.task stage)
    (silent : answer.reports = false)
    (within : ∀ key entry, memory.store.get key = some entry →
      cache.service.memory.store.get key = some entry ∨
      (Shows invalidation (.swept text) since → startsWith text key = true →
        Produced key (Image codec · entry.value) ((timed, answer) :: since)))
    (stays : config.enabled = true →
      cache.tasks.get timed.call.task ≠ some (.sweepMemory text)) :
    Fresh codec config healthy invalidation text ((timed, answer) :: since)
      ((timed, answer) :: past) ⟨⟨memory, cache.service.redis⟩, tasks⟩ := by
  have no_sweep : answer ≠ .swept text := by
    rintro rfl
    cases silent
  have no_end : answer ≠ .invalidated text := by
    rintro rfl
    cases silent
  exact fresh.keep others own (fresh.memory_kept no_sweep within)
    (fresh.redis_kept no_end fun _ _ _ _ held => Or.inl held)
    fun enabled sweeping => absurd sweeping (stays enabled)

/- What the server holds after a SET was held before, or is what the SET brought. -/
theorem set_held (refuses : healthy.RefusesNoTime) {redis : RedisCacheBackend Store}
    {answers : Bool} {key other : String} {value : Value} {ttlMs now later : Nat}
    {entry : TtlEntry String} (ahead : later ≥ now)
    (held : healthy.held (redis.set (client.under answers) codec key value ttlMs now).store later
      other = some entry) :
    healthy.held redis.store later other = some entry ∨
      (other = redis.keyPrefix ++ key ∧ codec.stringify value = entry.value ∧
        redis.available = true ∧ answers = true) := by
  unfold RedisCacheBackend.set at held
  split at held
  · rename_i available
    cases answers with
    | false => exact Or.inl held
    | true =>
      simp only [RedisClient.under, if_true, RedisCacheBackend.keepStore] at held
      rcases Nat.eq_zero_or_pos ttlMs with rfl | positive
      · rcases refuses redis.store now (redis.keyPrefix ++ key) (codec.stringify value) with
          same | forgotten
        · rw [same later ahead] at held
          exact Or.inl held
        · rw [forgotten later ahead, Option.ite_none_left_eq_some] at held
          exact Or.inl held.2
      · obtain ⟨stored, answered, holds⟩ := healthy.set_holds redis.store now
          (redis.keyPrefix ++ key) (codec.stringify value) ttlMs positive
        rw [answered, Option.getD_some, holds later ahead] at held
        split at held
        · rename_i same
          rw [Option.ite_none_right_eq_some] at held
          exact Or.inr ⟨same, by rw [← Option.some.inj held.2], available, rfl⟩
        · exact Or.inl held
  · exact Or.inl held

/- A value read from L2 was held there. -/
theorem Wired.read (wired : Wired config healthy past cache contents)
    (clock : ∀ e ∈ past, e.1.now ≤ timed.now) {redis : RedisTurn} {key : String} {value : Value}
    {pttlMs : Nat} (found : (cache.redisAt redis).getWithTtl (client.under redis.answers) codec key
      timed.now = some (value, pttlMs)) :
    ∃ entry, healthy.held cache.service.redis.store timed.now (config.keyPrefix ++ key) =
      some entry ∧ codec.parse entry.value = some value := by
  have at_now : Mirrors healthy timed.now (cache.redisAt redis).store contents :=
    wired.mirrored timed.now clock
  obtain ⟨entry, live, parsed, _⟩ := at_now.hit redis.answers found
  rw [show (cache.redisAt redis).keyPrefix = config.keyPrefix from wired.same_prefix] at live
  exact ⟨entry, (at_now.at_once _).trans live, parsed⟩

/- What the server holds later it holds now. -/
theorem Wired.held_before (wired : Wired config healthy past cache contents)
    (clock : ∀ e ∈ past, e.1.now ≤ timed.now) {later : Nat} (ahead : timed.now ≤ later)
    {key : String} {entry : TtlEntry String}
    (held : healthy.held cache.service.redis.store later key = some entry) :
    healthy.held cache.service.redis.store timed.now key = some entry := by
  have at_now := wired.mirrored timed.now clock
  rw [at_now later ahead, TtlMap.live_some] at held
  rw [at_now.at_once, TtlMap.live_some]
  exact ⟨held.1, Nat.lt_of_le_of_lt ahead held.2⟩

theorem Fresh.step (fresh : Fresh codec config healthy invalidation text since past cache)
    (wired : Wired config healthy past cache contents) (refuses : healthy.RefusesNoTime)
    (clock : ∀ e ∈ past, e.1.now ≤ timed.now)
    (in_time : ∀ stage ∈ cache.tasks.get timed.call.task,
      InTime codec invalidation text since timed.call.task (brings config timed.call) stage)
    (sweeps : SweepsThrough codec config healthy invalidation text since cache timed)
    {after : DecoratedCache Value Store}
    (moved : DecoratedCache.step client codec config cache timed = some (after, answer)) :
    Fresh codec config healthy invalidation text ((timed, answer) :: since)
      ((timed, answer) :: past) after := by
  have move := step_moves moved
  generalize asked : timed.call = call at move
  have own : timed.call.task = call.task := by rw [asked]
  -- a call that has a stage other than the sweep of L1 is not about to sweep it
  have elsewhere {stage : Option (DecoratedStage Value)}
      (running : cache.tasks.get call.task = stage) (other : stage ≠ some (.sweepMemory text)) :
      config.enabled = true → cache.tasks.get timed.call.task ≠ some (.sweepMemory text) := by
    intro _ sweeping
    rw [own, running] at sweeping
    exact other sweeping
  have unchanged : ∀ key entry, cache.service.memory.store.get key = some entry →
      cache.service.memory.store.get key = some entry ∨
      (Shows invalidation (.swept text) since → startsWith text key = true →
        Produced key (Image codec · entry.value) ((timed, answer) :: since)) :=
    fun _ _ present => Or.inl present
  cases move with
  | hit enabled free found =>
    refine fresh.quiet (fun _ _ => rfl) (fun stage running => ?_) rfl
      (fun key entry present => Or.inl (MemoryCacheBackend.get_store _ _ _ present))
      (elsewhere free (by simp))
    rw [own, DecoratedCall.task, free] at running
    cases running
  | missed enabled free =>
    exact fresh.quiet (get_set_others _ _ own) (get_set_own own trivial) rfl
      (fun key entry present => Or.inl (MemoryCacheBackend.get_store _ _ _ present))
      (elsewhere free (by simp))
  | bypassed free =>
    exact fresh.quiet (get_set_others _ _ own) (get_set_own own trivial) rfl
      unchanged (elsewhere free (by simp))
  | invalidating free =>
    exact fresh.quiet (get_set_others _ _ own) (get_set_own own trivial) rfl
      unchanged (elsewhere free (by simp))
  | @read task redis key ttlMs value pttlMs running found =>
    refine fresh.quiet (get_set_others _ _ own) (get_set_own own ?_) rfl
      unchanged (elsewhere running (by simp))
    intro under ended
    rw [List.dropWhile_cons, if_neg (by simp)] at ended
    obtain ⟨entry, held, parsed⟩ := wired.read clock found
    have produced := fresh.redis (ended.of_other (by simp)) timed.now clock key entry under held
    exact (produced.imp fun given same => Or.inr (same ▸ parsed)).later
  | absent running =>
    exact fresh.quiet (get_set_others _ _ own) (get_set_own own trivial) rfl
      unchanged (elsewhere running (by simp))
  | @promoted task redis key value pttlMs running =>
    refine fresh.quiet (get_delete_others _ own) (get_delete_own own) rfl
      ?_ (elsewhere running (by simp))
    intro other entry present
    rcases MemoryCacheBackend.set_store _ _ _ _ _ present with ⟨rfl, rfl⟩ | ⟨_, before⟩
    · refine Or.inr fun swept under => ?_
      obtain rfl : timed.call.task = task := own
      rcases in_time _ running under swept with ended | produced
      · exact (fresh.stages _ _ running under ended).later
      · exact produced.later
    · exact Or.inl before
  | @calling task redis key ttlMs running =>
    refine fresh.quiet (get_set_others _ _ own) (get_set_own own ?_) rfl
      unchanged (elsewhere running (by simp))
    intro _
    simp [called]
  | @written task redis key value ttlMs running =>
    refine fresh.keep (get_delete_others _ own) (get_delete_own own)
      (fresh.memory_kept (by simp) unchanged) (fresh.redis_kept (by simp) ?_)
      (fun enabled sweeping => absurd sweeping (elsewhere running (by simp) enabled))
    intro later ahead other entry held
    rcases set_held refuses ahead held with before | ⟨same, text_of, available, answers⟩
    · exact Or.inl before
    · refine Or.inr fun ended under => ?_
      rw [show (cache.redisAt redis).keyPrefix = config.keyPrefix from wired.same_prefix,
        prefixed_eq] at same
      subst same
      obtain rfl : timed.call.task = task := own
      have gets_through : brings config timed.call = true := by
        rw [asked]
        simp only [RedisCacheBackend.available, redisAt, wired.same_switch] at available
        simp [brings, answers, available]
      have on_time := in_time _ running gets_through under ended
      exact ((fresh.stages _ _ running).2 on_time).imp fun given same => same ▸ text_of
  | @swept task redis swept_text running =>
    refine fresh.keep (get_set_others _ _ own) (get_set_own own trivial) ?_
      (fresh.redis_kept (by simp) fun _ _ _ _ held => Or.inl held) ?_
    · intro swept key entry under present
      obtain ⟨not_under, before⟩ := MemoryCacheBackend.invalidateByPrefix_store _ _ present
      rcases shows_cons.mp swept with ⟨_, same⟩ | earlier
      · obtain rfl := DecoratedAnswer.swept.inj same
        rw [under] at not_under
        cases not_under
      · exact (fresh.memory earlier key entry under before).later
    · intro _ sweeping
      rw [own, DecoratedCall.task, running] at sweeping
      rw [DecoratedStage.sweepMemory.inj (Option.some.inj sweeping)]
  | skipped disabled running =>
    refine fresh.quiet (get_set_others _ _ own) (get_set_own own trivial) rfl
      unchanged fun enabled => ?_
    rw [disabled] at enabled
    cases enabled
  | scanning running goes_on =>
    refine fresh.quiet (get_set_others _ _ own) (get_set_own own ?_) rfl
      unchanged (elsewhere running (by simp))
    rcases goes_on with rfl | rfl <;> trivial
  | @deleted task redis swept_text next running goes_on =>
    refine fresh.keep (get_set_others _ _ own) (get_set_own own ?_)
      (fresh.memory_kept (by simp) unchanged) (fresh.redis_kept (by simp) ?_)
      (fun enabled sweeping => absurd sweeping (elsewhere running (by simp) enabled))
    · rcases goes_on with rfl | rfl <;> trivial
    · intro later ahead key entry held
      rw [RedisCacheBackend.deleteReplies_held healthy timed.now (by simp) ahead,
        Option.ite_none_left_eq_some] at held
      exact Or.inl held.2
  | rejected running =>
    exact fresh.quiet (get_set_others _ _ own) (get_set_own own trivial) rfl
      unchanged (elsewhere running (by simp))
  | @closed task redis closed_text running =>
    refine fresh.keep (get_delete_others _ own) (get_delete_own own)
      (fresh.memory_kept (by simp) unchanged) ?_
      (fun enabled sweeping => absurd sweeping (elsewhere running (by simp) enabled))
    intro ended later ahead key entry under held
    rcases shows_cons.mp ended with ⟨its_own, same⟩ | before
    · obtain rfl := DecoratedAnswer.invalidated.inj same
      obtain rfl : timed.call.task = task := own
      rw [its_own] at running
      have held_now := wired.held_before clock (ahead _ List.mem_cons_self) held
      exact (sweeps its_own running key entry under held_now).later
    · exact (fresh.redis before later (List.forall_mem_cons.mp ahead).2 key entry under held).later
  | @stored task key ttlMs value enabled running =>
    obtain rfl : timed.call.task = task := own
    have same_call : called timed.call.task ((timed, .stored key) :: since) =
        called timed.call.task since := called_quiet (by simp)
    refine fresh.quiet (get_set_others _ _ rfl) (get_set_own rfl ⟨?_, ?_⟩) rfl
      ?_ (elsewhere running (by simp))
    · intro starts
      rw [same_call]
      refine fresh.stages _ _ running ((starts_cons.mp starts).resolve_left fun begins => ?_)
      rw [asked] at begins
      cases begins
    · intro calls
      rw [same_call] at calls
      exact Or.inl ⟨value, by rw [asked]; rfl, calls, rfl⟩
    · intro other entry present
      rcases MemoryCacheBackend.set_store _ _ _ _ _ present with ⟨rfl, rfl⟩ | ⟨_, before⟩
      · refine Or.inr fun swept under => Or.inl ⟨value, by rw [asked]; rfl, ?_, Or.inl rfl⟩
        exact in_time _ running (by rw [asked]; rfl) under swept
      · exact Or.inl before
  | passed running =>
    exact fresh.quiet (get_delete_others _ own) (get_delete_own own) rfl
      unchanged (elsewhere running (by simp))
  | mutated running =>
    exact fresh.quiet (get_set_others _ _ own) (get_set_own own trivial) rfl
      unchanged (elsewhere running (by simp))
  | threw running not_sweeping =>
    exact fresh.quiet (get_delete_others _ own) (get_delete_own own) rfl
      unchanged (elsewhere running fun same => not_sweeping _ (Option.some.inj same))

/- When a mutation has just run nothing has been swept, and no call has started since. -/
theorem Fresh.after_mutation {earlier : History Value} {after : DecoratedCache Value Store}
    (moved : DecoratedCache.step client codec config cache timed = some (after, .mutated text)) :
    Fresh codec config healthy timed.call.task text [] ((timed, .mutated text) :: earlier)
      after where
  stages := by
    intro task stage _
    cases stage <;> simp [StageFresh, Starts, called, Shows]
  memory := by simp [Shows]
  redis := by simp [Shows]
  progress := by
    have move := step_moves moved
    generalize asked : timed.call = call at move
    cases move with
    | mutated running =>
      intro _
      refine Or.inr ⟨?_, by simp [Shows]⟩
      exact InsertionMap.get_set_self _ _ _

theorem fresh_since (refuses : healthy.RefusesNoTime)
    (run : (machine client codec config blank).Run (InvalidationsKeepUp codec config healthy)
      past cache) {mutation : TimedDecorated Value × DecoratedAnswer Value}
    {earlier : History Value} (split : past = since ++ mutation :: earlier)
    (mutated : mutation.2 = .mutated text) :
    Fresh codec config healthy mutation.1.call.task text since past cache := by
  obtain ⟨call, mutation_answer⟩ := mutation
  obtain rfl : mutation_answer = .mutated text := mutated
  rw [split]
  refine run.after split (fun later state => Fresh codec config healthy call.call.task text later
    (later ++ (call, .mutated text) :: earlier) state) (fun _ _ moved => .after_mutation moved) ?_
  intro later state next after answer run_before fresh permitted moved
  obtain ⟨contents, wired⟩ := wired_always refuses run_before
  obtain ⟨clock, in_time, sweeps⟩ := permitted
  exact fresh.step wired refuses clock (in_time later (call, .mutated text) earlier rfl text rfl)
    (sweeps later (call, .mutated text) earlier rfl text rfl) moved

/- The end of a cached call that began since the mutation, once the invalidation is over. -/
theorem Fresh.answers (fresh : Fresh codec config healthy invalidation text since past cache)
    (wired : Wired config healthy past cache contents)
    (in_time : ∀ stage ∈ cache.tasks.get timed.call.task,
      InTime codec invalidation text since timed.call.task (brings config timed.call) stage)
    (finished : Shows invalidation (.invalidated text) since)
    (began : timed.call.starts = none → Starts timed.call.task since) {key : String}
    {value : Value} (under : startsWith text key = true) {after : DecoratedCache Value Store}
    (moved : DecoratedCache.step client codec config cache timed = some (after, answer))
    (returned : answer.returned = some (key, value)) :
    Produced key (Image codec · value) ((timed, answer) :: since) := by
  have swept (enabled : config.enabled = true) : Shows invalidation (.swept text) since :=
    (fresh.progress enabled).resolve_right fun sweeping => sweeping.2 finished
  have move := step_moves moved
  generalize asked : timed.call = call at move
  have own : timed.call.task = call.task := by rw [asked]
  cases move <;> try cases returned
  case hit task className methodName args ttlMs enabled free found =>
    have from_memory := MemoryCacheBackend.get_answer cache.service.memory
      (cacheKey className methodName args) timed.now
    rw [found] at from_memory
    obtain ⟨entry, present, rfl⟩ := Option.map_eq_some_iff.mp from_memory.symm
    exact (fresh.memory (swept enabled) _ entry under
      (Option.filter_eq_some_iff.mp present).1).later
  case promoted task redis pttlMs running =>
    obtain rfl : timed.call.task = task := own
    rcases in_time _ running under (swept (wired.caching _ _ running rfl)) with ended | produced
    · exact (fresh.stages _ _ running under ended).later
    · exact produced.later
  case written task redis ttlMs running =>
    obtain rfl : timed.call.task = task := own
    obtain ⟨calls, produced⟩ := fresh.stages _ _ running
    exact ((produced (calls (began (by rw [asked]; rfl)))).imp fun given same =>
      Or.inl same.symm).later
  case passed task other ttlMs result running =>
    obtain rfl : timed.call.task = task := own
    obtain ⟨given, rfl, same⟩ := Option.map_eq_some_iff.mp returned
    obtain ⟨rfl, rfl⟩ := Prod.mk.inj same
    exact Or.inl ⟨given, by rw [asked]; rfl, fresh.stages _ _ running (began (by rw [asked]; rfl)),
      Or.inl rfl⟩

end Steps

/-- Once an invalidation has returned, the cached calls of its class that start afterwards answer
values of producers called after the mutation, in every run in which fills put nothing older
into a layer that the invalidation has swept and its sweep of L2 leaves nothing older there. -/
theorem invalidation_outlasts_fills_in_time {client : RedisClient Store} {blank : Store}
    (healthy : client.Healthy blank) (refuses : healthy.RefusesNoTime) (codec : JsonCodec Value)
    (config : CacheConfiguration) : InvalidationFinal client codec config blank
      (InvalidationsKeepUp codec config healthy) := by
  intro past cache run during started asked settled mutation earlier task className methodName args
    ttlMs last value split mutated finished starts ended same_task returned
  have under := startsWith_cacheKey className methodName args
  cases during with
  | nil =>
    obtain rfl : (started, asked) = last := by
      rw [split] at ended
      exact Option.some.inj ended
    rw [split] at run
    obtain ⟨old, run_before, permitted, moved⟩ := run.newest
    obtain ⟨contents, wired⟩ := wired_always refuses run_before
    have fresh := fresh_since refuses run_before rfl mutated
    obtain ⟨_, in_time, _⟩ := permitted
    refine fresh.answers wired (in_time settled mutation earlier rfl _ (by rw [mutated]; rfl))
      finished (fun none_starts => ?_) under moved returned
    simp [starts, DecoratedCall.starts] at none_starts
  | cons e during =>
    obtain rfl : e = last := by
      rw [split] at ended
      exact Option.some.inj ended
    have since_mutation : during ++ (started, asked) :: (settled ++ mutation :: earlier) =
        (during ++ (started, asked) :: settled) ++ mutation :: earlier := by simp
    rw [List.cons_append, since_mutation] at split
    rw [split] at run
    obtain ⟨old, run_before, permitted, moved⟩ := run.newest
    obtain ⟨contents, wired⟩ := wired_always refuses run_before
    have fresh := fresh_since refuses run_before rfl mutated
    obtain ⟨_, in_time, _⟩ := permitted
    refine fresh.answers wired (in_time _ mutation earlier rfl _ (by rw [mutated]; rfl)) ?_
      (fun _ => ?_) under moved returned
    · obtain ⟨shown, member, its_answer⟩ := finished
      exact ⟨shown, List.mem_append_right _ (List.mem_cons_of_mem _ member), its_answer⟩
    · refine ⟨(started, asked), List.mem_append_right _ List.mem_cons_self, ?_⟩
      rw [same_task, starts]
      rfl

def upToDate : RedisTurn := ⟨true, true, [], true⟩

def unreachable : RedisTurn := ⟨false, false, [], true⟩

/-- The second call starts after the invalidation, with Redis down throughout. -/
def refilled : History Bool :=
  [(⟨14, .proceed 3 unreachable⟩, .filled "cache:Prices:latest" false),
    (⟨13, .produced 3 (some false)⟩, .stored "cache:Prices:latest"),
    (⟨12, .proceed 3 unreachable⟩, .calling "cache:Prices:latest"),
    (⟨11, .proceed 3 unreachable⟩, .waiting), (⟨10, .cached 3 "Prices" "latest" [] none⟩, .waiting),
    (⟨9, .proceed 2 unreachable⟩, .invalidated "cache:Prices:"),
    (⟨8, .proceed 2 unreachable⟩, .scanning "cache:Prices:"),
    (⟨7, .proceed 2 unreachable⟩, .swept "cache:Prices:"),
    (⟨6, .mutated 2⟩, .mutated "cache:Prices:"),
    (⟨5, .invalidating 2 "Prices"⟩, .waiting),
    (⟨4, .proceed 1 unreachable⟩, .filled "cache:Prices:latest" true),
    (⟨3, .produced 1 (some true)⟩, .stored "cache:Prices:latest"),
    (⟨2, .proceed 1 unreachable⟩, .calling "cache:Prices:latest"),
    (⟨1, .proceed 1 unreachable⟩, .waiting), (⟨0, .cached 1 "Prices" "latest" [] none⟩, .waiting)]

/-- On an empty server no sweep of L2 leaves anything. -/
def NothingStored : Machine.Permit (DecoratedCache Bool (InsertionMap String (TtlEntry String)))
    (TimedDecorated Bool) (DecoratedAnswer Bool) := fun past cache timed =>
  Machine.ClockAdvances TimedDecorated.now past cache timed ∧
    FillsInTime booleans tinyCache past cache timed ∧
    cache.service.redis.store.entries.isEmpty = true

instance (past : History Bool) (cache : DecoratedCache Bool (InsertionMap String (TtlEntry String)))
    (timed : TimedDecorated Bool) : Decidable (NothingStored past cache timed) := by
  unfold NothingStored
  infer_instance

theorem nothing_stored_keeps_up {past : History Bool}
    {cache : DecoratedCache Bool (InsertionMap String (TtlEntry String))}
    {timed : TimedDecorated Bool}
    (permitted : NothingStored past cache timed) :
    InvalidationsKeepUp booleans tinyCache mapClientHealthy past cache timed := by
  obtain ⟨clock, in_time, empty⟩ := permitted
  refine ⟨clock, in_time, fun since mutation earlier _ text _ _ _ key entry _ held => ?_⟩
  simp [mapClientHealthy, InsertionMap.get, List.isEmpty_iff.mp empty] at held

theorem invalidation_outlasts_fills_in_time_offline :
    (∃ cache, (machine mapClient booleans tinyCache InsertionMap.empty).Run
      (InvalidationsKeepUp booleans tinyCache mapClientHealthy) refilled cache) ∧
    Produced (cacheKey "Prices" "latest" []) (Image booleans · false) (refilled.take 8) := by
  obtain ⟨cache, run⟩ := Machine.replayed (machine mapClient booleans tinyCache InsertionMap.empty)
    NothingStored refilled (by decide +kernel)
  have kept_up := run.weaken fun _ permitted => nothing_stored_keeps_up permitted
  exact ⟨⟨cache, kept_up⟩, invalidation_outlasts_fills_in_time mapClientHealthy mapClient_refuses
    booleans tinyCache refilled cache kept_up (refilled.take 4)
    ⟨10, .cached 3 "Prices" "latest" [] none⟩ .waiting ((refilled.drop 5).take 3)
    (⟨6, .mutated 2⟩, .mutated "cache:Prices:") (refilled.drop 9) 3 "Prices" "latest" [] none
    (⟨14, .proceed 3 unreachable⟩, .filled "cache:Prices:latest" false) false rfl (by decide)
    (by decide) rfl rfl rfl (by decide)⟩

/-- The producer of the first call starts before the mutation and ends after the invalidation;
    the second call answers its value. -/
def staleFill : History Bool :=
  [(⟨10, .cached 3 "Prices" "latest" [] none⟩, .hit "cache:Prices:latest" true),
    (⟨9, .produced 1 (some true)⟩, .stored "cache:Prices:latest"),
    (⟨8, .proceed 2 upToDate⟩, .invalidated "cache:Prices:"),
    (⟨7, .proceed 2 upToDate⟩, .waiting), (⟨6, .proceed 2 upToDate⟩, .scanning "cache:Prices:"),
    (⟨5, .proceed 2 upToDate⟩, .swept "cache:Prices:"), (⟨4, .mutated 2⟩, .mutated "cache:Prices:"),
    (⟨3, .invalidating 2 "Prices"⟩, .waiting),
    (⟨2, .proceed 1 upToDate⟩, .calling "cache:Prices:latest"),
    (⟨1, .proceed 1 upToDate⟩, .waiting), (⟨0, .cached 1 "Prices" "latest" [] none⟩, .waiting)]

theorem fill_outlives_invalidation : ¬ InvalidationFinal mapClient booleans tinyCache
    InsertionMap.empty (Machine.ClockAdvances TimedDecorated.now) := by
  intro final
  obtain ⟨cache, run⟩ := Machine.replayed (machine mapClient booleans tinyCache InsertionMap.empty)
    (Machine.ClockAdvances TimedDecorated.now) staleFill (by decide +kernel)
  have produced := final staleFill cache run [] _ _ ((staleFill.drop 1).take 5)
    (⟨4, .mutated 2⟩, .mutated "cache:Prices:") (staleFill.drop 7) 3 "Prices" "latest" [] none
    (⟨10, .cached 3 "Prices" "latest" [] none⟩, .hit "cache:Prices:latest" true) true rfl
    (by decide) (by decide) rfl rfl rfl (by decide)
  exact absurd produced (by decide +kernel)

end DecoratedCache
end AstraPort.Cache
