import AstraPort.Foundation.Folding
import AstraPort.Foundation.Recent
import AstraPort.Logging.LogRecords
import Mathlib.Data.List.Infix

/- StructuredLogger and LogAggregationService: what a query answers after any run of log calls. -/
namespace AstraPort.Monitoring
open Logging

/-- Whatever metadata a call gives may stand over the properties of the entry. -/
abbrev LogEntry := Metadata

def LogEntry.read (entry : LogEntry) (name : JsString) : JsValue :=
  (entry.get name).getD (.primitive .undefined)

def contextKey : JsString := .ofString "context"
def traceIdKey : JsString := .ofString "traceId"
def stackKey : JsString := .ofString "stack"

/-- The properties that are taken from the metadata first. -/
def takenKeys : List JsString :=
  ["traceId", "spanId", "route", "statusCode", "durationMs", "stack"].map .ofString

/-- writeLog, for a message that is a text. -/
structure WrittenLog where
  level : JsString
  message : JsString
  context : Option JsString
  metadata : Metadata
  now : JsString

def orApplication : Option JsString → JsString
  | none => .ofString "Application"
  | some context => if context = [] then .ofString "Application" else context

def WrittenLog.entry (call : WrittenLog) : LogEntry :=
  let named : LogEntry :=
    (((InsertionMap.empty.set timestampKey (textValue call.now)).set levelKey (textValue call.level)).set
      messageKey (textValue call.message)).set contextKey (textValue (orApplication call.context))
  let taken := takenKeys.foldl (fun entry key =>
    entry.set key ((call.metadata.get key).getD (.primitive .undefined))) named
  call.metadata.entries.foldl (fun entry m => entry.set m.1 m.2) taken

/-- The calls of the logger. -/
inductive LoggerCall where
  | log (message : JsString) (context : Option JsString) (metadata : Metadata)
  | warn (message : JsString) (context : Option JsString) (metadata : Metadata)
  | debug (message : JsString) (context : Option JsString) (metadata : Metadata)
  | verbose (message : JsString) (context : Option JsString) (metadata : Metadata)
  /-- The third argument of error is an object: the second is the context. -/
  | errorWith (message : JsString) (context : Option JsString) (metadata : Metadata)
  /-- It is a text or nothing: the second is the stack. -/
  | error (message : JsString) (trace context : Option JsString) (metadata : Metadata)

def LoggerCall.written (now : JsString) : LoggerCall → WrittenLog
  | .log message context metadata => ⟨.ofString "info", message, context, metadata, now⟩
  | .warn message context metadata => ⟨.ofString "warn", message, context, metadata, now⟩
  | .debug message context metadata => ⟨.ofString "debug", message, context, metadata, now⟩
  | .verbose message context metadata => ⟨.ofString "debug", message, context, metadata, now⟩
  | .errorWith message context metadata => ⟨.ofString "error", message, context, metadata, now⟩
  | .error message trace context metadata =>
    let stack := trace.elim (.primitive .undefined) textValue
    ⟨.ofString "error", message, context, metadata.set stackKey stack, now⟩

def maxLogs : Nat := 5000

/-- unshift, and pop where the buffer has grown too long. -/
def addLog (logBuffer : List LogEntry) (entry : LogEntry) : List LogEntry :=
  let grown := entry :: logBuffer
  if maxLogs < grown.length then grown.dropLast else grown

/-- The limit is absent or NaN, or an integer. -/
structure LogQueryFilter where
  level : Option JsString := none
  context : Option JsString := none
  traceId : Option JsString := none
  search : Option JsString := none
  startTime : Option JsString := none
  endTime : Option JsString := none
  limit : Option Int := none

/-- filter, with a test that may throw. -/
def filterThrowing (test : LogEntry → Option Bool) : List LogEntry → Option (List LogEntry)
  | [] => some []
  | entry :: entries =>
    (test entry).bind fun keep =>
      (filterThrowing test entries).map fun kept => if keep then entry :: kept else kept

/-- A condition is tested where the filter gives one that is not empty. -/
def narrow (given : Option JsString) (test : JsString → LogEntry → Option Bool)
    (entries : List LogEntry) : Option (List LogEntry) :=
  match given with
  | none => some entries
  | some text => if text = [] then some entries else filterThrowing (test text) entries

section Query
variable (casing : Casing) (dateMs : JsValue → Option Int)

/-- value.toLowerCase().includes(searched), which throws on what is no text. -/
def lowerIncludes (searched : JsString) : JsValue → Option Bool
  | .primitive (.string text) => some (decide (searched <:+: casing.toLowerCase text))
  | _ => none

/-- value && value.toLowerCase().includes(searched) -/
def includesIfGiven (searched : JsString) (value : JsValue) : Option Bool :=
  if truthy value then lowerIncludes casing searched value else some false

/-- property === text -/
def hasText (key text : JsString) (entry : LogEntry) : Option Bool :=
  match LogEntry.read entry key with
  | .primitive (.string own) => some (decide (own = text))
  | _ => some false

def hasContext (context : JsString) (entry : LogEntry) : Option Bool :=
  includesIfGiven casing (casing.toLowerCase context) (LogEntry.read entry contextKey)

/-- The three tests in turn, until one holds. -/
def isFound (search : JsString) (entry : LogEntry) : Option Bool :=
  let searchLower := casing.toLowerCase search
  (lowerIncludes casing searchLower (LogEntry.read entry messageKey)).bind fun inMessage =>
    if inMessage then some true
    else (includesIfGiven casing searchLower (LogEntry.read entry contextKey)).bind fun inContext =>
      if inContext then some true
      else includesIfGiven casing searchLower (LogEntry.read entry stackKey)

/-- Comparisons with an invalid date fail. -/
def isSince (startTime : JsString) (entry : LogEntry) : Option Bool :=
  match dateMs (.primitive (.string startTime)), dateMs (LogEntry.read entry timestampKey) with
  | some startMs, some ms => some (decide (startMs ≤ ms))
  | _, _ => some false

def isUntil (endTime : JsString) (entry : LogEntry) : Option Bool :=
  match dateMs (.primitive (.string endTime)), dateMs (LogEntry.read entry timestampKey) with
  | some endMs, some ms => some (decide (ms ≤ endMs))
  | _, _ => some false

def LogQueryFilter.bound (filter : LogQueryFilter) : Nat :=
  match filter.limit with
  | none => 100
  | some limit => if 0 < limit then limit.toNat else 100

structure LogAnswer where
  total : Nat
  logs : List LogEntry

/-- No answer is an error thrown. -/
def queryLogs (logBuffer : List LogEntry) (filter : LogQueryFilter) : Option LogAnswer := do
  let result ← narrow filter.level (hasText levelKey) logBuffer
  let result ← narrow filter.context (hasContext casing) result
  let result ← narrow filter.traceId (hasText traceIdKey) result
  let result ← narrow filter.search (isFound casing) result
  let result ← narrow filter.startTime (isSince dateMs) result
  let result ← narrow filter.endTime (isUntil dateMs) result
  return ⟨result.length, result.take filter.bound⟩

end Query
def logBufferAfter (calls : List WrittenLog) : List LogEntry :=
  calls.foldl (fun logBuffer call => addLog logBuffer call.entry) []

/-- The calls that count, the newest first. -/
def newestCalls (calls : List WrittenLog) : List WrittenLog := calls.reverse.take maxLogs

/-- Whether an entry meets a condition, if there is one. -/
def meets (given : Option JsString) (test : JsString → LogEntry → Option Bool) (entry : LogEntry) :
    Bool :=
  match given with
  | none => true
  | some text => text = [] || (test text entry).getD false

/-- All conditions of a filter at once. -/
def LogQueryFilter.selects (casing : Casing) (dateMs : JsValue → Option Int)
    (filter : LogQueryFilter) (entry : LogEntry) : Bool :=
  meets filter.level (hasText levelKey) entry && meets filter.context (hasContext casing) entry &&
    meets filter.traceId (hasText traceIdKey) entry && meets filter.search (isFound casing) entry &&
    meets filter.startTime (isSince dateMs) entry && meets filter.endTime (isUntil dateMs) entry

/-- A value on which toLowerCase can be called where it is called. -/
def isTextIfGiven (value : JsValue) : Bool :=
  match value with
  | .primitive (.string _) => true
  | _ => !truthy value

/-- Metadata has put no other value than a text in the place of a text. -/
structure Readable (entry : LogEntry) : Prop where
  message : ∃ text, LogEntry.read entry messageKey = .primitive (.string text)
  context : isTextIfGiven (LogEntry.read entry contextKey) = true
  stack : isTextIfGiven (LogEntry.read entry stackKey) = true

section Buffer

/- One call pushes its entry in front of the newest, a run of calls all of theirs. -/
theorem addLog_newest (logBuffer : List LogEntry) (entry : LogEntry) :
    addLog (logBuffer.take maxLogs) entry = (entry :: logBuffer).take maxLogs := by
  have bounded : (logBuffer.take maxLogs).length ≤ maxLogs := List.length_take_le _ _
  exact (push_recent entry bounded).trans (push_take entry logBuffer)

theorem addLogs_newest (calls : List WrittenLog) (older : List LogEntry) :
    calls.foldl (fun logBuffer call => addLog logBuffer call.entry) (older.take maxLogs) =
      (calls.reverse.map WrittenLog.entry ++ older).take maxLogs := by
  induction calls generalizing older with
  | nil => rfl
  | cons call calls ih =>
    rw [List.foldl_cons, addLog_newest, ih, List.reverse_cons, List.map_append, List.append_assoc]
    rfl

theorem buffer_newest (calls : List WrittenLog) :
    logBufferAfter calls = (newestCalls calls).map WrittenLog.entry := by
  have buffered := addLogs_newest calls []
  rw [List.take_nil, List.append_nil] at buffered
  rw [logBufferAfter, buffered, newestCalls, List.map_take]

end Buffer

section Narrowing
variable {casing : Casing} {dateMs : JsValue → Option Int} {entries : List LogEntry}

theorem filterThrowing_some {test : LogEntry → Option Bool}
    (total : ∀ entry ∈ entries, (test entry).isSome = true) :
    filterThrowing test entries = some (entries.filter fun entry => (test entry).getD false) := by
  induction entries with
  | nil => rfl
  | cons entry entries ih =>
    obtain ⟨first, rest⟩ := List.forall_mem_cons.mp total
    obtain ⟨keep, tested⟩ := Option.isSome_iff_exists.mp first
    rw [filterThrowing, tested, ih rest, Option.bind_some, Option.map_some, List.filter_cons, tested]
    rfl

theorem filterThrowing_isSome {test : LogEntry → Option Bool} :
    (filterThrowing test entries).isSome = true ↔ ∀ entry ∈ entries, (test entry).isSome = true := by
  constructor
  · intro answered
    induction entries with
    | nil => simp
    | cons entry entries ih =>
      rw [filterThrowing] at answered
      rw [List.forall_mem_cons]
      cases tested : test entry with
      | none =>
        rw [tested] at answered
        cases answered
      | some keep =>
        rw [tested, Option.bind_some, Option.isSome_map] at answered
        exact ⟨rfl, ih answered⟩
  · intro total
    rw [filterThrowing_some total]
    rfl

theorem narrow_some {given : Option JsString} {test : JsString → LogEntry → Option Bool}
    (total : ∀ text, ∀ entry ∈ entries, (test text entry).isSome = true) :
    narrow given test entries = some (entries.filter (meets given test)) := by
  cases given with
  | none => exact congrArg some (List.filter_eq_self.mpr fun _ _ => rfl).symm
  | some text =>
    rw [narrow]
    split
    · rename_i empty
      have all : ∀ entry ∈ entries, meets (some text) test entry = true := by simp [meets, empty]
      rw [List.filter_eq_self.mpr all]
    · rename_i solid
      rw [filterThrowing_some (total text)]
      apply congrArg some
      apply List.filter_congr
      intro entry _
      simp [meets, solid]

theorem hasText_total (key text : JsString) (entry : LogEntry) :
    (hasText key text entry).isSome = true := by
  unfold hasText
  split <;> rfl

theorem isSince_total (text : JsString) (entry : LogEntry) :
    (isSince dateMs text entry).isSome = true := by
  unfold isSince
  split <;> rfl

theorem isUntil_total (text : JsString) (entry : LogEntry) :
    (isUntil dateMs text entry).isSome = true := by
  unfold isUntil
  split <;> rfl

theorem includesIfGiven_isSome (casing : Casing) (searched : JsString) (value : JsValue) :
    (includesIfGiven casing searched value).isSome = isTextIfGiven value := by
  unfold includesIfGiven
  cases value with
  | primitive p =>
    cases p with
    | string text => split <;> rfl
    | _ => simp only [lowerIncludes, isTextIfGiven]; split <;> simp_all
  | _ => rfl

theorem isFound_total {entry : LogEntry} (readable : Readable entry) (search : JsString) :
    (isFound casing search entry).isSome = true := by
  obtain ⟨text, message⟩ := readable.message
  have context := readable.context
  have stack := readable.stack
  rw [← includesIfGiven_isSome casing (casing.toLowerCase search)] at context stack
  obtain ⟨inContext, tested⟩ := Option.isSome_iff_exists.mp context
  unfold isFound
  dsimp only
  rw [message, lowerIncludes, Option.bind_some, tested, Option.bind_some]
  split
  · rfl
  · split
    · rfl
    · exact stack

end Narrowing

/-- While metadata puts no other value in the place of a text, a query answers the newest entries
    that meet all its conditions, and how many there are, whatever was logged and queried before. -/
theorem queries_newest (casing : Casing) (dateMs : JsValue → Option Int) {calls : List WrittenLog}
    (readable : ∀ call ∈ newestCalls calls, Readable call.entry) (filter : LogQueryFilter) :
    queryLogs casing dateMs (logBufferAfter calls) filter =
      let selected := ((newestCalls calls).map WrittenLog.entry).filter (filter.selects casing dateMs)
      some ⟨selected.length, selected.take filter.bound⟩ := by
  rw [buffer_newest]
  have each : ∀ entry ∈ (newestCalls calls).map WrittenLog.entry, Readable entry := by
    intro entry member
    obtain ⟨call, listed, rfl⟩ := List.mem_map.mp member
    exact readable call listed
  generalize (newestCalls calls).map WrittenLog.entry = entries at each
  have context : ∀ context, ∀ entry ∈ entries, (hasContext casing context entry).isSome = true := by
    intro context entry member
    rw [hasContext, includesIfGiven_isSome]
    exact (each entry member).context
  have search : ∀ search, ∀ entry ∈ entries, (isFound casing search entry).isSome = true :=
    fun search entry member => isFound_total (each entry member) search
  unfold queryLogs
  simp only [Option.bind_eq_bind]
  rw [narrow_some fun text entry _ => hasText_total levelKey text entry, Option.bind_some,
    narrow_some fun text entry member => context text entry (List.mem_of_mem_filter member),
    Option.bind_some, narrow_some fun text entry _ => hasText_total traceIdKey text entry,
    Option.bind_some, narrow_some fun text entry member => search text entry (by
      simp only [List.mem_filter] at member
      exact member.1.1.1),
    Option.bind_some, narrow_some fun text entry _ => isSince_total text entry, Option.bind_some,
    narrow_some fun text entry _ => isUntil_total text entry, Option.bind_some]
  have selected : ∀ entry ∈ entries, (meets filter.endTime (isUntil dateMs) entry &&
      (meets filter.startTime (isSince dateMs) entry && (meets filter.search (isFound casing) entry &&
        (meets filter.traceId (hasText traceIdKey) entry &&
          (meets filter.context (hasContext casing) entry &&
            meets filter.level (hasText levelKey) entry))))) = filter.selects casing dateMs entry := by
    intro entry _
    simp only [LogQueryFilter.selects, Bool.and_comm]
  simp only [List.filter_filter]
  rw [List.filter_congr selected]
  rfl

def startedLog : WrittenLog :=
  ⟨.ofString "info", .ofString "started", none, .empty, .ofString "2026-01-01T00:00:00.000Z"⟩

theorem started_found : queryLogs asciiCasing (fun _ => none) (logBufferAfter [startedLog])
    { level := some (.ofString "info") } = some ⟨1, [startedLog.entry]⟩ := by
  have readable : ∀ call ∈ newestCalls [startedLog], Readable call.entry := by
    intro call member
    cases List.mem_singleton.mp (List.mem_of_mem_take member)
    exact ⟨⟨_, rfl⟩, rfl, rfl⟩
  rw [queries_newest asciiCasing _ readable]
  rfl

/-- Whether metadata has this trace id. -/
def carriesTrace (traceId : JsString) (metadata : Metadata) : Bool :=
  match metadata.get traceIdKey with
  | some (.primitive (.string own)) => own = traceId
  | _ => false

/-- The metadata a call of the logger is given. -/
def LoggerCall.given : LoggerCall → Metadata
  | .log _ _ metadata => metadata
  | .warn _ _ metadata => metadata
  | .debug _ _ metadata => metadata
  | .verbose _ _ metadata => metadata
  | .errorWith _ _ metadata => metadata
  | .error _ _ _ metadata => metadata

section Traces

/- The trace id of an entry is that of the metadata. -/
theorem entry_traceId (call : WrittenLog) : LogEntry.read call.entry traceIdKey =
    (call.metadata.get traceIdKey).getD (.primitive .undefined) := by
  have taken : takenKeys.reverse.find? (fun key => key = traceIdKey) = some traceIdKey := by
    decide +kernel
  unfold LogEntry.read WrittenLog.entry
  dsimp only
  have copied := InsertionMap.get_copied call.metadata id
  simp only [id] at copied
  rw [copied, InsertionMap.get_writes, taken, Option.map_some, Option.some_or]
  cases own : call.metadata.get traceIdKey with
  | none => rfl
  | some value => rfl

theorem written_traceId (now : JsString) (call : LoggerCall) :
    (call.written now).metadata.get traceIdKey = call.given.get traceIdKey := by
  cases call with
  | error message trace context metadata => exact InsertionMap.get_set_ne _ _ (by decide +kernel)
  | _ => rfl

theorem hasText_traceId (traceId now : JsString) (call : LoggerCall) :
    (hasText traceIdKey traceId (call.written now).entry).getD false =
      carriesTrace traceId call.given := by
  rw [hasText, entry_traceId, written_traceId, carriesTrace]
  cases call.given.get traceIdKey with
  | none => rfl
  | some value =>
    cases value with
    | primitive p => cases p <;> rfl
    | _ => rfl

end Traces

/-- A query by trace id answers every log with this trace id among the newest, whichever call of the
    logger wrote it and whatever else its metadata is. -/
theorem trace_logs_found (casing : Casing) (dateMs : JsValue → Option Int)
    (calls : List (LoggerCall × JsString)) {traceId : JsString} (solid : traceId ≠ [])
    (limit : Option Int) :
    queryLogs casing dateMs (logBufferAfter (calls.map fun c => c.1.written c.2))
        { traceId := some traceId, limit := limit } =
      let traced := (calls.reverse.take maxLogs).filter fun c => carriesTrace traceId c.1.given
      let logs := traced.map fun c => (c.1.written c.2).entry
      some ⟨logs.length, logs.take (LogQueryFilter.bound { limit := limit })⟩ := by
  rw [buffer_newest, newestCalls, ← List.map_reverse, ← List.map_take]
  generalize calls.reverse.take maxLogs = newest
  have one (entries : List LogEntry) :
      queryLogs casing dateMs entries { traceId := some traceId, limit := limit } =
        (narrow (some traceId) (hasText traceIdKey) entries).bind fun logs =>
          some ⟨logs.length, logs.take (LogQueryFilter.bound { limit := limit })⟩ := rfl
  have same : ∀ c ∈ newest, (meets (some traceId) (hasText traceIdKey) ∘ WrittenLog.entry ∘
      fun c : LoggerCall × JsString => c.1.written c.2) c = carriesTrace traceId c.1.given := by
    intro c _
    rw [Function.comp_apply, Function.comp_apply, meets, hasText_traceId]
    simp [solid]
  rw [one, narrow_some fun text entry _ => hasText_total traceIdKey text entry, Option.bind_some,
    List.map_map, List.filter_map, List.filter_congr same]
  rfl

def tracedWarning : LoggerCall :=
  .warn [] none (InsertionMap.empty.set traceIdKey (textValue (.ofString "t")))

theorem traced_found : queryLogs asciiCasing (fun _ => none)
    (logBufferAfter [tracedWarning.written []]) { traceId := some (.ofString "t") } =
      some ⟨1, [(tracedWarning.written []).entry]⟩ :=
  trace_logs_found asciiCasing _ [(tracedWarning, [])] (by decide) none

/-- Every value that a search comes to is a text: the message, then the context where it is given
    and the message does not have the text searched for, then the stack. -/
structure Searchable (casing : Casing) (search : JsString) (entry : LogEntry) : Prop where
  message : ∃ text, LogEntry.read entry messageKey = .primitive (.string text)
  context : isTextIfGiven (LogEntry.read entry contextKey) = true ∨
    lowerIncludes casing (casing.toLowerCase search) (LogEntry.read entry messageKey) = some true
  stack : isTextIfGiven (LogEntry.read entry stackKey) = true ∨
    lowerIncludes casing (casing.toLowerCase search) (LogEntry.read entry messageKey) = some true ∨
      includesIfGiven casing (casing.toLowerCase search) (LogEntry.read entry contextKey) = some true

section Searching
variable {casing : Casing} {search : JsString}

theorem lowerIncludes_isSome {searched : JsString} {value : JsValue} :
    (lowerIncludes casing searched value).isSome = true ↔
      ∃ text, value = .primitive (.string text) := by
  unfold lowerIncludes
  split
  · simp
  · rename_i other
    simpa using other

theorem isFound_isSome {entry : LogEntry} :
    (isFound casing search entry).isSome = true ↔ Searchable casing search entry := by
  unfold isFound
  dsimp only
  constructor
  · intro answered
    cases first : lowerIncludes casing (casing.toLowerCase search) (LogEntry.read entry messageKey) with
    | none =>
      rw [first] at answered
      cases answered
    | some inMessage =>
      have message := lowerIncludes_isSome.mp (Option.isSome_of_eq_some first)
      cases inMessage with
      | true => exact ⟨message, .inr first, .inr (.inl first)⟩
      | false =>
        rw [first, Option.bind_some, if_neg Bool.false_ne_true] at answered
        cases second : includesIfGiven casing (casing.toLowerCase search)
            (LogEntry.read entry contextKey) with
        | none =>
          rw [second] at answered
          cases answered
        | some inContext =>
          have context := includesIfGiven_isSome casing (casing.toLowerCase search)
            (LogEntry.read entry contextKey)
          rw [second] at context answered
          refine ⟨message, .inl context.symm, ?_⟩
          cases inContext with
          | true => exact .inr (.inr second)
          | false =>
            rw [Option.bind_some, if_neg Bool.false_ne_true, includesIfGiven_isSome] at answered
            exact .inl answered
  · intro searchable
    obtain ⟨inMessage, first⟩ := Option.isSome_iff_exists.mp
      (lowerIncludes_isSome.mpr searchable.message : (lowerIncludes casing (casing.toLowerCase search)
        (LogEntry.read entry messageKey)).isSome = true)
    have context := searchable.context
    have stack := searchable.stack
    rw [first] at context stack ⊢
    rw [Option.bind_some]
    cases inMessage with
    | true => rfl
    | false =>
      have given := context.resolve_right (by simp)
      rw [← includesIfGiven_isSome casing (casing.toLowerCase search)] at given
      obtain ⟨inContext, second⟩ := Option.isSome_iff_exists.mp given
      rw [second] at stack ⊢
      rw [if_neg Bool.false_ne_true, Option.bind_some]
      cases inContext with
      | true => rfl
      | false =>
        rw [if_neg Bool.false_ne_true, includesIfGiven_isSome]
        exact stack.resolve_right (by simp)

end Searching

/-- A search is answered exactly while each of the newest entries can be searched: metadata with a
    message that is no text makes every search throw until as many further logs are written. -/
theorem search_answered_iff (casing : Casing) (dateMs : JsValue → Option Int)
    (calls : List WrittenLog) {search : JsString} (solid : search ≠ []) :
    (queryLogs casing dateMs (logBufferAfter calls) { search := some search }).isSome = true ↔
      ∀ call ∈ newestCalls calls, Searchable casing search call.entry := by
  have one : queryLogs casing dateMs (logBufferAfter calls) { search := some search } =
      (narrow (some search) (isFound casing) (logBufferAfter calls)).bind fun logs =>
        some ⟨logs.length, logs.take 100⟩ := rfl
  rw [one, narrow, if_neg solid, buffer_newest]
  have total : (filterThrowing (isFound casing search)
      ((newestCalls calls).map WrittenLog.entry)).isSome = true ↔ _ := filterThrowing_isSome
  simp only [List.forall_mem_map, isFound_isSome] at total
  rw [← total]
  cases filterThrowing (isFound casing search) ((newestCalls calls).map WrittenLog.entry) <;> rfl

/-- A log whose metadata has null for the message. -/
def nullMessage : WrittenLog :=
  { startedLog with metadata := InsertionMap.empty.set messageKey (.primitive .null) }

theorem null_message_throws :
    ¬ (queryLogs asciiCasing (fun _ => none) (logBufferAfter [nullMessage])
      { search := some (.ofString "s") }).isSome = true := by
  rw [search_answered_iff asciiCasing _ _ (by decide)]
  intro searchable
  obtain ⟨text, own⟩ := (searchable nullMessage (List.mem_singleton.mpr rfl)).message
  cases own

end AstraPort.Monitoring
