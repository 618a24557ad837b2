import AstraPort.Cache.Mirror
import AstraPort.Cache.Overlap

/- Promotion against newer writes. Between its read of L2 and its write into L1 a get holds
   a value that a set or del may outdate; as long as no get promotes such a value, and the
   layers see the writes of a key in one order, both hold the newest write once it is done. -/
namespace AstraPort.Cache
namespace OverlappingCache
variable {Value Store : Type}

inductive CacheWrite (Value : Type) where
  | store (value : Value) (ttlMs : Nat)
  | remove
  deriving DecidableEq

/-- The newest set or del of a key: none, still under way, or returned. -/
inductive KeyStatus (Value : Type) where
  | untouched
  | writing (task : Nat) (write : CacheWrite Value) (since : Nat)
  | settled (write : CacheWrite Value) (since : Nat)
  deriving DecidableEq

def KeyStatus.isWriting : KeyStatus Value → Bool
  | .writing _ _ _ => true
  | _ => false

abbrev History (Value : Type) := List (TimedOverlap Value × OverlapAnswer Value)

section Histories
variable (config : CacheConfiguration)

/-- The set or del of a key that a call starts, with its task. -/
def startedWrite (key : String) : OverlapCall Value → Option (Nat × CacheWrite Value)
  | .set task other value ttlMs =>
    if key = other then some (task, .store value (ttlMs.getD config.defaultTtlMs)) else none
  | .del task other => if key = other then some (task, .remove) else none
  | .get _ _ => none
  | .proceed _ => none

def isDone (key : String) : OverlapAnswer Value → Bool
  | .done other => decide (key = other)
  | _ => false

/-- A write is settled when its own task is done. -/
def KeyStatus.finish (task : Nat) : KeyStatus Value → KeyStatus Value
  | .writing writer write since =>
    if task = writer then .settled write since else .writing writer write since
  | status => status

def status (key : String) : History Value → KeyStatus Value
  | [] => .untouched
  | e :: past =>
    match startedWrite config key e.1.call with
    | some (task, write) => .writing task write e.1.now
    | none =>
      if isDone key e.2 then (status key past).finish e.1.call.task else status key past

/-- A set or del of the key has been done since the last turn of a task. -/
def writtenSince (key : String) (task : Nat) : History Value → Bool
  | [] => false
  | e :: past =>
    if e.1.call.task = task then false else isDone key e.2 || writtenSince key task past

/-- What a get may answer once a write is settled. -/
def Answers (write : CacheWrite Value) (since now : Nat) (value : Option Value) : Prop :=
  match write with
  | .store stored ttlMs => now < since + ttlMs → value = some stored
  | .remove => value = none

/-- A get that starts after the newest set or del of its key has returned, with no other
    started since, answers what that call wrote. -/
def GetsCurrent (client : RedisClient Store) (codec : JsonCodec Value) (blank : Store)
    (permit : Machine.Permit (OverlappingCache Value Store) (TimedOverlap Value)
      (OverlapAnswer Value)) : Prop :=
  ∀ past cache, (machine client codec config blank).Run permit past cache →
    ∀ during before started task key asked write since now call value,
      past = during ++ (⟨started, .get task key⟩, asked) :: before →
      status config key before = .settled write since →
      (∀ e ∈ during, startedWrite config key e.1.call = none) →
      past.head? = some (⟨now, call⟩, .got key value) → call.task = task →
      Answers write since now value

/-- Values that JSON leaves as they are, and a clock that does not run back. -/
def PlainValues (codec : JsonCodec Value) : Machine.Permit (OverlappingCache Value Store)
    (TimedOverlap Value) (OverlapAnswer Value) :=
  fun past cache timed => Machine.ClockAdvances TimedOverlap.now past cache timed ∧
    match timed.call with
    | .set _ _ value _ => codec.parse (codec.stringify value) = some value
    | _ => True

instance [DecidableEq Value] (codec : JsonCodec Value) (past : History Value)
    (cache : OverlappingCache Value Store) (timed : TimedOverlap Value) :
    Decidable (PlainValues codec past cache timed) := by
  unfold PlainValues
  have : Decidable (match timed.call with
      | .set _ _ value _ => codec.parse (codec.stringify value) = some value
      | _ => True) := by split <;> infer_instance
  infer_instance

/-- A get promotes only what no set or del has outdated since it was read, and the newest
    set or del of a key is the last to write L2. -/
def InOrder (past : History Value) : CacheStage Value → Nat → Prop
  | .read _, _ => True
  | .promote key _ _, task =>
    (status config key past).isWriting = false ∧ writtenSince key task past = false
  | .write key _ _, _ => (status config key past).isWriting = true
  | .delete key, _ => (status config key past).isWriting = true

instance (past : History Value) (stage : CacheStage Value) (task : Nat) :
    Decidable (InOrder config past stage task) := by
  unfold InOrder
  split <;> infer_instance

def WritesInOrder (codec : JsonCodec Value) : Machine.Permit (OverlappingCache Value Store)
    (TimedOverlap Value) (OverlapAnswer Value) :=
  fun past cache timed => PlainValues codec past cache timed ∧
    ∀ task, timed.call = .proceed task →
      ∀ stage ∈ cache.tasks.get task, InOrder config past stage task

instance (call : OverlapCall Value) (ok : Nat → Prop) [DecidablePred ok] :
    Decidable (∀ task, call = .proceed task → ok task) :=
  match call with
  | .proceed task => decidable_of_iff (ok task) ⟨fun holds _ same => by cases same; exact holds,
      fun holds => holds task rfl⟩
  | .get _ _ => isTrue nofun
  | .set _ _ _ _ => isTrue nofun
  | .del _ _ => isTrue nofun

instance [DecidableEq Value] (codec : JsonCodec Value) (past : History Value)
    (cache : OverlappingCache Value Store) (timed : TimedOverlap Value) :
    Decidable (WritesInOrder config codec past cache timed) := by
  unfold WritesInOrder
  infer_instance

end Histories

/-- What L1 may hold of a key under a status. -/
def Newest (value : Value) : KeyStatus Value → Prop
  | .untouched => False
  | .writing _ (.store stored ttlMs) _ => ttlMs = 0 ∨ value = stored
  | .settled (.store stored ttlMs) _ => ttlMs = 0 ∨ value = stored
  | .writing _ .remove _ => False
  | .settled .remove _ => False

/-- What L2 holds of a key whose newest write is done. -/
def Settled (codec : JsonCodec Value) (entry : Option (TtlEntry String)) : KeyStatus Value → Prop
  | .untouched => entry = none
  | .writing _ _ _ => True
  | .settled (.store stored ttlMs) since =>
    0 < ttlMs → ∃ expiry, entry = some ⟨codec.stringify stored, expiry⟩ ∧ since + ttlMs ≤ expiry
  | .settled .remove _ => entry = none

def stageOf (key : String) : CacheWrite Value → CacheStage Value
  | .store value ttlMs => .write key value ttlMs
  | .remove => .delete key

/-- The write that a status names. -/
def KeyStatus.write : KeyStatus Value → Option (CacheWrite Value)
  | .untouched => none
  | .writing _ write _ => some write
  | .settled write _ => some write

def KeyStatus.since : KeyStatus Value → Option Nat
  | .untouched => none
  | .writing _ _ since => some since
  | .settled _ since => some since

/-- Both layers agree with the newest write of every key; and what a get is about to promote
    is what L2 holds, unless it has been outdated. -/
structure Current (codec : JsonCodec Value) (config : CacheConfiguration)
    {client : RedisClient Store} {blank : Store} (healthy : client.Healthy blank)
    (past : History Value) (cache : OverlappingCache Value Store)
    (contents : TtlMap String String) : Prop where
  same_prefix : cache.service.redis.keyPrefix = config.keyPrefix
  reachable : cache.service.redis.available = true
  mirrored : ∀ now, (∀ e ∈ past, e.1.now ≤ now) →
    Mirrors healthy now cache.service.redis.store contents
  memory : ∀ key entry, cache.service.memory.store.get key = some entry →
    Newest entry.value (status config key past)
  redis : ∀ key, Settled codec (contents (config.keyPrefix ++ key)) (status config key past)
  promotes : ∀ task key value pttlMs,
    cache.tasks.get task = some (.promote key value pttlMs) → writtenSince key task past = false →
    ∃ entry, contents (config.keyPrefix ++ key) = some entry ∧ codec.parse entry.value = some value
  own_stage : ∀ key task write since, status config key past = .writing task write since →
    cache.tasks.get task = some (stageOf key write)
  plain : ∀ key value ttlMs, (status config key past).write = some (.store value ttlMs) →
    codec.parse (codec.stringify value) = some value

section Steps
variable {codec : JsonCodec Value} {config : CacheConfiguration} {client : RedisClient Store}
  {blank : Store} {healthy : client.Healthy blank} {past : History Value}
  {cache : OverlappingCache Value Store} {contents : TtlMap String String}
  {timed : TimedOverlap Value} {answer : OverlapAnswer Value}

theorem status_quiet {key : String} (no_write : startedWrite config key timed.call = none)
    (not_done : isDone key answer = false) :
    status config key ((timed, answer) :: past) = status config key past := by
  simp [status, no_write, not_done]

theorem startedWrite_proceed (config : CacheConfiguration) {task : Nat}
    (proceeds : timed.call = .proceed task) (key : String) :
    startedWrite config key timed.call = none := by
  rw [proceeds]
  rfl

/- The end of a write settles it, and keeps what was written and when. -/
theorem finish_same (task : Nat) (state : KeyStatus Value) :
    (state.finish task).since = state.since ∧ (state.finish task).write = state.write := by
  cases state with
  | writing writer write since =>
    simp only [KeyStatus.finish]
    split <;> exact ⟨rfl, rfl⟩
  | untouched => exact ⟨rfl, rfl⟩
  | settled write since => exact ⟨rfl, rfl⟩

theorem status_began {key : String} {since : Nat}
    (begun : (status config key past).since = some since) : ∃ e ∈ past, e.1.now = since := by
  induction past with
  | nil => cases begun
  | cons e past ih =>
    have earlier : (status config key past).since = some since →
        ∃ old ∈ e :: past, old.1.now = since := by
      intro begun
      obtain ⟨old, member, at_start⟩ := ih begun
      exact ⟨old, List.mem_cons_of_mem _ member, at_start⟩
    simp only [status] at begun
    split at begun
    · exact ⟨e, List.mem_cons_self, Option.some.inj begun⟩
    · split at begun
      · exact earlier ((finish_same _ _).1 ▸ begun)
      · exact earlier begun

theorem writtenSince_other {key : String} {task : Nat} (other : task ≠ timed.call.task)
    (unwritten : writtenSince key task ((timed, answer) :: past) = false) :
    isDone key answer = false ∧ writtenSince key task past = false := by
  simpa [writtenSince, other.symm] using unwritten

theorem stageOf_not_promote {key other : String} {write : CacheWrite Value} {value : Value}
    {pttlMs : Nat} : stageOf key write ≠ .promote other value pttlMs := by
  cases write <;> simp [stageOf]

theorem stageOf_key {key other : String} {write another : CacheWrite Value}
    (same : stageOf key write = stageOf other another) : key = other ∧ write = another := by
  cases write <;> cases another <;> simp_all [stageOf]

/- A turn that neither starts nor ends a write. -/
theorem Current.quiet (current : Current codec config healthy past cache contents)
    {memory : MemoryCacheBackend Value} {tasks : InsertionMap Nat (CacheStage Value)}
    (no_write : ∀ key, startedWrite config key timed.call = none)
    (not_done : ∀ key, isDone key answer = false)
    (others : ∀ other, other ≠ timed.call.task → tasks.get other = cache.tasks.get other)
    (not_writing : ∀ key write, cache.tasks.get timed.call.task ≠ some (stageOf key write))
    (in_memory : ∀ key entry, memory.store.get key = some entry →
      Newest entry.value (status config key past))
    (promotes : ∀ key value pttlMs,
      tasks.get timed.call.task = some (.promote key value pttlMs) →
      ∃ entry, contents (config.keyPrefix ++ key) = some entry ∧
        codec.parse entry.value = some value) :
    Current codec config healthy ((timed, answer) :: past)
      ⟨{ cache.service with memory := memory }, tasks⟩ contents where
  same_prefix := current.same_prefix
  reachable := current.reachable
  mirrored := fun now ahead => current.mirrored now fun e member =>
    ahead e (List.mem_cons_of_mem _ member)
  memory := by
    intro key entry present
    rw [status_quiet (no_write key) (not_done key)]
    exact in_memory key entry present
  redis := by
    intro key
    rw [status_quiet (no_write key) (not_done key)]
    exact current.redis key
  promotes := by
    intro task key value pttlMs running unwritten
    by_cases own : task = timed.call.task
    · subst own
      exact promotes key value pttlMs running
    · rw [others task own] at running
      exact current.promotes task key value pttlMs running (writtenSince_other own unwritten).2
  own_stage := by
    intro key task write since writing
    rw [status_quiet (no_write key) (not_done key)] at writing
    have running := current.own_stage key task write since writing
    by_cases own : task = timed.call.task
    · subst own
      exact absurd running (not_writing key write)
    · rw [others task own]
      exact running
  plain := by
    intro key value ttlMs written
    rw [status_quiet (no_write key) (not_done key)] at written
    exact current.plain key value ttlMs written

/- The start of a set or del: L1 takes it at once. -/
theorem Current.starting (current : Current codec config healthy past cache contents)
    {key : String} (write : CacheWrite Value) {memory : MemoryCacheBackend Value}
    (free : cache.tasks.get timed.call.task = none)
    (starts : ∀ other, startedWrite config other timed.call =
      if other = key then some (timed.call.task, write) else none)
    (in_memory : ∀ other entry, memory.store.get other = some entry →
      (other = key ∧ ∃ ttlMs, write = .store entry.value ttlMs) ∨
        (other ≠ key ∧ cache.service.memory.store.get other = some entry))
    (plain : ∀ value ttlMs, write = .store value ttlMs →
      codec.parse (codec.stringify value) = some value) :
    Current codec config healthy ((timed, .waiting) :: past)
      ((cache.withMemory memory).atStage timed.call.task (stageOf key write)) contents := by
  have own_status : status config key ((timed, .waiting) :: past) =
      .writing timed.call.task write timed.now := by
    simp [status, starts]
  have other_status : ∀ other, other ≠ key → status config other ((timed, .waiting) :: past) =
      status config other past := fun other ne =>
    status_quiet (by rw [starts, if_neg ne]) rfl
  refine ⟨current.same_prefix, current.reachable, ?_, ?_, ?_, ?_, ?_, ?_⟩
  · exact fun now ahead => current.mirrored now fun e member =>
      ahead e (List.mem_cons_of_mem _ member)
  · intro other entry present
    rcases in_memory other entry present with ⟨rfl, ttlMs, rfl⟩ | ⟨ne, before⟩
    · rw [own_status]
      exact Or.inr rfl
    · rw [other_status other ne]
      exact current.memory other entry before
  · intro other
    by_cases same : other = key
    · subst same
      rw [own_status]
      trivial
    · rw [other_status other same]
      exact current.redis other
  · intro task other value pttlMs running unwritten
    by_cases own : task = timed.call.task
    · subst own
      simp only [atStage, InsertionMap.get_set_self, Option.some.injEq] at running
      exact absurd running stageOf_not_promote
    · simp only [atStage, withMemory, InsertionMap.get_set_ne _ _ own] at running
      exact current.promotes task other value pttlMs running (writtenSince_other own unwritten).2
  · intro other task another since writing
    by_cases same : other = key
    · subst same
      rw [own_status] at writing
      cases writing
      exact InsertionMap.get_set_self _ _ _
    · rw [other_status other same] at writing
      have running := current.own_stage other task another since writing
      have ne : task ≠ timed.call.task := by
        rintro rfl
        rw [free] at running
        cases running
      simp only [atStage, withMemory, InsertionMap.get_set_ne _ _ ne]
      exact running
  · intro other value ttlMs written
    by_cases same : other = key
    · subst same
      rw [own_status] at written
      exact plain value ttlMs (Option.some.inj written)
    · rw [other_status other same] at written
      exact current.plain other value ttlMs written

theorem newest_finish {value : Value} {task : Nat} {state : KeyStatus Value}
    (newest : Newest value state) : Newest value (state.finish task) := by
  cases state with
  | writing writer write since =>
    simp only [KeyStatus.finish]
    split
    · cases write <;> exact newest
    · exact newest
  | untouched => exact newest
  | settled write since => exact newest

/- The end of a set or del: what it leaves in L2 is settled if it was the newest. -/
theorem Current.done (current : Current codec config healthy past cache contents)
    {key : String} (write : CacheWrite Value) {left : Store} {changed : TtlMap String String}
    (running : cache.tasks.get timed.call.task = some (stageOf key write))
    (no_write : ∀ other, startedWrite config other timed.call = none)
    (writing : (status config key past).isWriting = true)
    (clock : ∀ e ∈ past, e.1.now ≤ timed.now)
    (mirrored : Mirrors healthy timed.now left changed)
    (elsewhere : ∀ other, other ≠ key →
      changed (config.keyPrefix ++ other) = contents (config.keyPrefix ++ other))
    (settled : ∀ since ≤ timed.now,
      Settled codec (changed (config.keyPrefix ++ key)) (.settled write since)) :
    Current codec config healthy ((timed, .done key) :: past)
      ((cache.withRedis { cache.service.redis with store := left }).withoutTask timed.call.task)
      changed := by
  have own_status : status config key ((timed, .done key) :: past) =
      (status config key past).finish timed.call.task := by
    simp [status, no_write, isDone]
  have other_status : ∀ other, other ≠ key → status config other ((timed, .done key) :: past) =
      status config other past := fun other ne =>
    status_quiet (no_write other) (by simp [isDone, ne])
  refine ⟨current.same_prefix, current.reachable, ?_, ?_, ?_, ?_, ?_, ?_⟩
  · exact fun now ahead => mirrored.later (ahead _ List.mem_cons_self)
  · intro other entry present
    by_cases same : other = key
    · subst same
      rw [own_status]
      exact newest_finish (current.memory other entry present)
    · rw [other_status other same]
      exact current.memory other entry present
  · intro other
    by_cases same : other = key
    · subst same
      rw [own_status]
      cases found : status config other past with
      | untouched => simp [found, KeyStatus.isWriting] at writing
      | settled another since => simp [found, KeyStatus.isWriting] at writing
      | writing writer another since =>
        simp only [KeyStatus.finish]
        split
        · rename_i own
          subst own
          obtain ⟨e, member, at_start⟩ := status_began (congrArg KeyStatus.since found)
          have its_stage := current.own_stage _ _ _ _ found
          obtain ⟨_, rfl⟩ := stageOf_key (Option.some.inj (running.symm.trans its_stage))
          exact settled since (at_start ▸ clock e member)
        · trivial
    · rw [other_status other same, elsewhere other same]
      exact current.redis other
  · intro task other value pttlMs promoting unwritten
    by_cases own : task = timed.call.task
    · subst own
      simp [withoutTask] at promoting
    · simp only [withoutTask, withRedis, InsertionMap.get_delete_ne _ own] at promoting
      obtain ⟨not_done, before⟩ := writtenSince_other own unwritten
      have ne : other ≠ key := by simpa [isDone] using not_done
      rw [elsewhere other ne]
      exact current.promotes task other value pttlMs promoting before
  · intro other task another since still
    have before : status config other past = .writing task another since ∧
        task ≠ timed.call.task := by
      by_cases same : other = key
      · subst same
        rw [own_status] at still
        cases found : status config other past with
        | untouched => simp [found, KeyStatus.isWriting] at writing
        | settled third since => simp [found, KeyStatus.isWriting] at writing
        | writing writer third from_then =>
          simp only [found, KeyStatus.finish] at still
          split at still
          · cases still
          · rename_i ne
            cases still
            exact ⟨rfl, Ne.symm ne⟩
      · rw [other_status other same] at still
        refine ⟨still, ?_⟩
        rintro rfl
        have its_stage := current.own_stage _ _ _ _ still
        exact same (stageOf_key (Option.some.inj (its_stage.symm.trans running))).1
    have its_stage := current.own_stage other task another since before.1
    simp only [withoutTask, withRedis, InsertionMap.get_delete_ne _ before.2]
    exact its_stage
  · intro other value ttlMs written
    by_cases same : other = key
    · subst same
      rw [own_status, (finish_same _ _).2] at written
      exact current.plain other value ttlMs written
    · rw [other_status other same] at written
      exact current.plain other value ttlMs written

/- A get about to promote, that no set or del has outdated, holds the newest value. -/
theorem Current.promoting (current : Current codec config healthy past cache contents)
    {task : Nat} {key : String} {value : Value} {pttlMs : Nat}
    (running : cache.tasks.get task = some (.promote key value pttlMs))
    (in_order : InOrder config past (.promote key value pttlMs) task) :
    Newest value (status config key past) := by
  obtain ⟨entry, found, parsed⟩ := current.promotes task key value pttlMs running in_order.2
  have settled := current.redis key
  have not_writing := in_order.1
  cases state : status config key past with
  | untouched =>
    rw [state] at settled
    cases found.symm.trans settled
  | writing writer write since => simp [state, KeyStatus.isWriting] at not_writing
  | settled write since =>
    rw [state] at settled
    cases write with
    | remove => cases found.symm.trans settled
    | store stored ttlMs =>
      rcases Nat.eq_zero_or_pos ttlMs with none_left | positive
      · exact Or.inl none_left
      · right
        obtain ⟨expiry, held, _⟩ := settled positive
        have plain := current.plain key stored ttlMs (by rw [state]; rfl)
        obtain rfl := Option.some.inj (found.symm.trans held)
        exact Option.some.inj (parsed.symm.trans plain)

theorem Current.written (current : Current codec config healthy past cache contents)
    (refuses : healthy.RefusesNoTime) (clock : ∀ e ∈ past, e.1.now ≤ timed.now) {task : Nat}
    (proceeds : timed.call = .proceed task) {key : String} {value : Value} {ttlMs : Nat}
    (running : cache.tasks.get task = some (.write key value ttlMs))
    (writing : (status config key past).isWriting = true) :
    ∃ changed, Current codec config healthy ((timed, .done key) :: past)
      ((cache.withRedis (cache.service.redis.set client codec key value ttlMs
        timed.now)).withoutTask task) changed := by
  have own : timed.call.task = task := by rw [proceeds]; rfl
  subst own
  have no_write := startedWrite_proceed config proceeds
  have mirrored := current.mirrored timed.now clock
  have apart : ∀ other, other ≠ key → config.keyPrefix ++ other ≠ config.keyPrefix ++ key :=
    fun other ne => (prefixed_eq config.keyPrefix key other).not.mpr ne
  rw [RedisCacheBackend.set_server]
  rcases Nat.eq_zero_or_pos ttlMs with none_left | positive
  · subst none_left
    obtain ⟨changed, now_mirrors, wrote⟩ := mirrored.set codec true refuses key value 0
    refine ⟨changed, current.done (.store value 0) running no_write writing clock
      now_mirrors ?_ ?_⟩
    · intro other ne
      rw [current.same_prefix] at wrote
      cases wrote with
      | stored => exact if_neg (apart other ne)
      | refused => rfl
      | forgotten => simp [TtlMap.forget, apart other ne]
    · intro since _ positive
      exact absurd positive (Nat.lt_irrefl 0)
  · refine ⟨_, current.done (.store value ttlMs) running no_write writing clock
      (mirrored.set_answered current.reachable key value positive) ?_ ?_⟩
    · intro other ne
      rw [current.same_prefix]
      exact if_neg (apart other ne)
    · intro since before _
      rw [current.same_prefix]
      exact ⟨timed.now + ttlMs, if_pos rfl, by omega⟩

theorem Current.deleted (current : Current codec config healthy past cache contents)
    (clock : ∀ e ∈ past, e.1.now ≤ timed.now) {task : Nat} (proceeds : timed.call = .proceed task)
    {key : String} (running : cache.tasks.get task = some (.delete key))
    (writing : (status config key past).isWriting = true) :
    ∃ changed, Current codec config healthy ((timed, .done key) :: past)
      ((cache.withRedis (cache.service.redis.del client key timed.now)).withoutTask task)
      changed := by
  have own : timed.call.task = task := by rw [proceeds]; rfl
  subst own
  have no_write := startedWrite_proceed config proceeds
  have apart : ∀ other, other ≠ key → config.keyPrefix ++ other ≠ config.keyPrefix ++ key :=
    fun other ne => (prefixed_eq config.keyPrefix key other).not.mpr ne
  rw [RedisCacheBackend.del_server]
  refine ⟨_, current.done .remove running no_write writing clock
    ((current.mirrored timed.now clock).redis_del true key) ?_ ?_⟩
  · intro other ne
    simp [TtlMap.forget, current.same_prefix, apart other ne]
  · intro since _
    simp [Settled, TtlMap.forget, current.same_prefix, current.reachable]

theorem Current.step (current : Current codec config healthy past cache contents)
    (refuses : healthy.RefusesNoTime) (enabled : config.enabled = true)
    (permitted : WritesInOrder config codec past cache timed)
    {after : OverlappingCache Value Store}
    (moved : step client codec config cache timed = some (after, answer)) :
    ∃ changed, Current codec config healthy ((timed, answer) :: past) after changed := by
  obtain ⟨⟨clock, plain⟩, in_order⟩ := permitted
  have ahead : ∀ e ∈ past, e.1.now ≤ timed.now := clock
  have move := step_moves enabled moved
  generalize asked : timed.call = call at move
  have own : timed.call.task = call.task := by rw [asked]
  cases move with
  | hit free found =>
    refine ⟨contents, current.quiet ?_ (fun _ => rfl) (fun _ _ => rfl) ?_ ?_ ?_⟩
    · simp [asked, startedWrite]
    · simp [asked, OverlapCall.task, free]
    · exact fun key entry present => current.memory key entry
        (MemoryCacheBackend.get_store _ _ _ present)
    · simp [asked, OverlapCall.task, free]
  | missed free absent =>
    refine ⟨contents, current.quiet ?_ (fun _ => rfl) ?_ ?_ ?_ ?_⟩
    · simp [asked, startedWrite]
    · exact InsertionMap.get_set_others _ _ own
    · simp [asked, OverlapCall.task, free]
    · exact fun key entry present => current.memory key entry
        (MemoryCacheBackend.get_store _ _ _ present)
    · simp [asked, OverlapCall.task, withMemory]
  | @storing task key value ttlMs free =>
    obtain rfl : timed.call.task = task := own
    refine ⟨contents, current.starting (.store value (ttlMs.getD config.defaultTtlMs)) free
      ?_ ?_ ?_⟩
    · intro other
      rw [asked]
      rfl
    · intro other entry present
      rcases MemoryCacheBackend.set_store _ _ _ _ _ present with ⟨rfl, rfl⟩ | before
      · exact Or.inl ⟨rfl, _, rfl⟩
      · exact Or.inr before
    · intro stored ttlMs same
      cases same
      rw [asked] at plain
      exact plain
  | @removing task key free =>
    obtain rfl : timed.call.task = task := own
    refine ⟨contents, current.starting .remove free ?_ ?_ ?_⟩
    · intro other
      rw [asked]
      rfl
    · intro other entry present
      exact Or.inr (MemoryCacheBackend.del_store _ _ present)
    · exact fun _ _ same => nomatch same
  | @read task key value pttlMs running found =>
    refine ⟨contents, current.quiet ?_ (fun _ => rfl) ?_ ?_ current.memory ?_⟩
    · simp [asked, startedWrite]
    · exact InsertionMap.get_set_others _ _ own
    · intro other write same
      simp only [asked, OverlapCall.task, running, Option.some.injEq] at same
      cases write <;> cases same
    · intro other another pttl same
      simp only [asked, OverlapCall.task, InsertionMap.get_set_self, Option.some.injEq] at same
      cases same
      obtain ⟨entry, live, parsed, _⟩ := (current.mirrored timed.now ahead).hit true
        found
      rw [current.same_prefix] at live
      exact ⟨entry, (TtlMap.live_some.mp live).1, parsed⟩
  | @absent task key running nothing =>
    refine ⟨contents, current.quiet ?_ (fun _ => rfl) ?_ ?_ current.memory ?_⟩
    · simp [asked, startedWrite]
    · exact InsertionMap.get_delete_others _ own
    · intro other write same
      simp only [asked, OverlapCall.task, running, Option.some.injEq] at same
      cases write <;> cases same
    · simp [asked, OverlapCall.task]
  | @promoted task key value pttlMs running =>
    refine ⟨contents, current.quiet ?_ (fun _ => rfl) ?_ ?_ ?_ ?_⟩
    · simp [asked, startedWrite]
    · exact InsertionMap.get_delete_others _ own
    · intro other write same
      simp only [asked, OverlapCall.task, running, Option.some.injEq] at same
      cases write <;> cases same
    · intro other entry present
      rcases MemoryCacheBackend.set_store _ _ _ _ _ present with ⟨rfl, rfl⟩ | ⟨_, before⟩
      · exact current.promoting running (in_order _ asked _ running)
      · exact current.memory other entry before
    · simp [asked, OverlapCall.task]
  | written running =>
    exact current.written refuses ahead asked running (in_order _ asked _ running)
  | deleted running => exact current.deleted ahead asked running (in_order _ asked _ running)

variable (healthy) in
theorem current_always (refuses : healthy.RefusesNoTime) (enabled : config.enabled = true)
    (switched : config.redisEnabled = true)
    (run : (machine client codec config blank).Run (WritesInOrder config codec) past cache) :
    ∃ contents, Current codec config healthy past cache contents := by
  refine run.invariant (fun past cache => ∃ contents, Current codec config healthy past cache
    contents) ⟨TtlMap.nothing, ?_⟩ ?_
  · refine ⟨rfl, ?_, fun now _ => mirrors_blank, ?_, fun _ => rfl, ?_, ?_, ?_⟩
    · simp [machine, CacheService.initial, RedisCacheBackend.available, switched]
    · intro key entry present
      simp [machine, CacheService.initial] at present
    · intro task key value pttlMs running
      simp [machine] at running
    · intro key task write since writing
      cases writing
    · intro key value ttlMs written
      cases written
  · intro past cache timed after answer _ known permitted moved
    obtain ⟨contents, current⟩ := known
    exact current.step refuses enabled permitted moved

theorem status_stays {key : String} {write : CacheWrite Value} {since : Nat}
    {during before : History Value} (settled : status config key before = .settled write since)
    (no_write : ∀ e ∈ during, startedWrite config key e.1.call = none) :
    status config key (during ++ before) = .settled write since := by
  induction during with
  | nil => exact settled
  | cons e rest ih =>
    have rest_settled := ih fun old member => no_write old (List.mem_cons_of_mem _ member)
    simp only [List.cons_append, status, no_write e List.mem_cons_self, rest_settled]
    split <;> rfl

/- A value that is the newest is what the claim on a settled write asks for. -/
theorem answers_newest {value : Value} {write : CacheWrite Value} {since now : Nat}
    (began : since ≤ now) (newest : Newest value (.settled write since)) :
    Answers write since now (some value) := by
  cases write with
  | remove => exact absurd newest id
  | store stored ttlMs =>
    intro unexpired
    rcases newest with none_left | same
    · rw [none_left] at unexpired
      omega
    · rw [same]

/- The end of a get whose key is settled. -/
theorem Current.answers (current : Current codec config healthy past cache contents)
    (enabled : config.enabled = true) (permitted : WritesInOrder config codec past cache timed)
    {after : OverlappingCache Value Store} {key : String} {value : Option Value}
    (moved : OverlappingCache.step client codec config cache timed = some (after, .got key value))
    {write : CacheWrite Value} {since : Nat}
    (settled : status config key past = .settled write since) :
    Answers write since timed.now value := by
  obtain ⟨⟨clock, _⟩, in_order⟩ := permitted
  have ahead : ∀ e ∈ past, e.1.now ≤ timed.now := clock
  have began : since ≤ timed.now := by
    obtain ⟨e, member, at_start⟩ := status_began (congrArg KeyStatus.since settled)
    exact at_start ▸ ahead e member
  have move := step_moves enabled moved
  generalize asked : timed.call = call at move
  cases move with
  | @hit task _ found_value free found =>
    have from_memory := MemoryCacheBackend.get_answer cache.service.memory key timed.now
    rw [found] at from_memory
    obtain ⟨entry, present, rfl⟩ := Option.map_eq_some_iff.mp from_memory.symm
    have newest := current.memory key entry (Option.filter_eq_some_iff.mp present).1
    rw [settled] at newest
    exact answers_newest began newest
  | @absent task _ running nothing =>
    have in_redis := current.redis key
    rw [settled] at in_redis
    cases write with
    | remove => rfl
    | store stored ttlMs =>
      intro (unexpired : timed.now < since + ttlMs)
      have positive : 0 < ttlMs := by omega
      obtain ⟨expiry, held, outlasts⟩ := in_redis positive
      have live : contents.live timed.now (cache.service.redis.keyPrefix ++ key) =
          some ⟨codec.stringify stored, expiry⟩ := by
        rw [current.same_prefix]
        exact TtlMap.live_some.mpr ⟨held, by simp only; omega⟩
      have plain := current.plain key stored ttlMs (by rw [settled]; rfl)
      have found := (current.mirrored timed.now ahead).finds current.reachable live plain
      cases found.symm.trans nothing
  | promoted running =>
    have newest := current.promoting running (in_order _ asked _ running)
    rw [settled] at newest
    exact answers_newest began newest

end Steps

/-- A get that starts after a set or del has returned answers what that call wrote, in every
run in which no get promotes a value that has been outdated since it was read and no set or
del writes L2 after a newer one has returned. -/
theorem writes_in_order_stay_current {client : RedisClient Store} {blank : Store}
    (healthy : client.Healthy blank) (refuses : healthy.RefusesNoTime) (codec : JsonCodec Value)
    (config : CacheConfiguration) (enabled : config.enabled = true)
    (switched : config.redisEnabled = true) :
    GetsCurrent config client codec blank (WritesInOrder config codec) := by
  intro past cache run during before started task key asked write since now call value split settled
    no_write ended _
  cases past with
  | nil => simp at ended
  | cons e rest =>
    obtain rfl := Option.some.inj ended
    obtain ⟨old, run_before, permitted, moved⟩ := run.newest
    obtain ⟨contents, current⟩ := current_always healthy refuses enabled switched
      run_before
    have still : status config key rest = .settled write since := by
      cases during with
      | nil =>
        obtain ⟨_, rfl⟩ := List.cons.inj split
        exact settled
      | cons e during =>
        obtain ⟨_, rfl⟩ := List.cons.inj split
        have started_get : status config key ((⟨started, .get task key⟩, asked) :: before) =
            .settled write since := by
          simp only [status, startedWrite, settled]
          split <;> rfl
        exact status_stays started_get fun old member =>
          no_write old (List.mem_cons_of_mem _ member)
    exact current.answers enabled permitted moved still

/-- The second set evicts the first key from L1, and the get brings it back from L2. -/
def promotedInTurn : History Bool :=
  [(⟨6, .proceed 3⟩, .got "a" (some true)), (⟨5, .proceed 3⟩, .waiting),
    (⟨4, .get 3 "a"⟩, .waiting), (⟨3, .proceed 2⟩, .done "b"),
    (⟨2, .set 2 "b" false none⟩, .waiting), (⟨1, .proceed 1⟩, .done "a"),
    (⟨0, .set 1 "a" true none⟩, .waiting)]

theorem writes_in_order_stay_current_in_turn :
    (∃ cache, (machine mapClient booleans tinyCache InsertionMap.empty).Run
      (WritesInOrder tinyCache booleans) promotedInTurn cache) ∧
    Answers (.store true 60000) 0 6 (some true) := by
  obtain ⟨cache, run⟩ := Machine.replayed (machine mapClient booleans tinyCache InsertionMap.empty)
    (WritesInOrder tinyCache booleans) promotedInTurn (by decide +kernel)
  exact ⟨⟨cache, run⟩, writes_in_order_stay_current mapClientHealthy mapClient_refuses booleans
    tinyCache rfl rfl promotedInTurn cache run (promotedInTurn.take 2) (promotedInTurn.drop 3) 4 3
    "a" .waiting (.store true 60000) 0 6 (.proceed 3) (some true) rfl (by decide) (by decide)
    rfl rfl⟩

/-- The set of "a" to false starts after the get has missed L1 and writes L2 after the get has
    read it; the get promotes what it read over the new value. -/
def promotedOverNewer : History Bool :=
  [(⟨9, .get 5 "a"⟩, .got "a" (some true)), (⟨8, .proceed 4⟩, .done "a"),
    (⟨7, .proceed 3⟩, .got "a" (some true)), (⟨6, .proceed 3⟩, .waiting),
    (⟨5, .set 4 "a" false none⟩, .waiting), (⟨4, .get 3 "a"⟩, .waiting),
    (⟨3, .proceed 2⟩, .done "b"), (⟨2, .set 2 "b" false none⟩, .waiting),
    (⟨1, .proceed 1⟩, .done "a"), (⟨0, .set 1 "a" true none⟩, .waiting)]

theorem promotion_overwrites_newer : ¬ GetsCurrent tinyCache mapClient booleans InsertionMap.empty
    (PlainValues booleans) := by
  intro current
  obtain ⟨cache, run⟩ := Machine.replayed (machine mapClient booleans tinyCache InsertionMap.empty)
    (PlainValues booleans) promotedOverNewer (by decide +kernel)
  have answer := current promotedOverNewer cache run [] (promotedOverNewer.drop 1) 9 5 "a"
    (.got "a" (some true)) (.store false 60000) 5 9 (.get 5 "a") (some true) rfl (by decide)
    (by decide) rfl rfl
  exact absurd (answer (by decide)) (by decide)

end OverlappingCache
end AstraPort.Cache
