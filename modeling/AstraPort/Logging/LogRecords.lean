import AstraPort.Foundation.InsertionMap
import AstraPort.Logging.Redaction

/- The records of the logger: metadata merged into the record of a call, and the format of
   the production and file transports, which redacts one property of it. -/
namespace AstraPort.Logging
open JsValue

abbrev Metadata := InsertionMap JsString JsValue

/-- A record with its own properties and those of the object its prototype was set to. -/
structure Info where
  own : Metadata
  inherited : List (JsString × JsValue)

namespace Info

def read (info : Info) (name : JsString) : Option JsValue :=
  (info.own.get name).or ((JsValue.object info.inherited).child (.key name))

def write (info : Info) (key : JsString) (value : JsValue) : Info :=
  { info with own := info.own.set key value }

/-- The properties of the prototype after it was set to a value: none of the names that are
    read are found in other objects than plain ones, and no prototype is set to a primitive. -/
def prototypeMembers (before : List (JsString × JsValue)) :
    JsValue → List (JsString × JsValue)
  | .object members => members
  | .array _ | .date _ | .primitive .null => []
  | .primitive _ => before

/-- One property of Object.assign. -/
def assign (info : Info) (key : JsString) (value : JsValue) : Info :=
  if key = prototypeKey then
    { info with inherited := prototypeMembers info.inherited value }
  else info.write key value

def assignAll (info : Info) (metadata : Metadata) : Info :=
  metadata.entries.foldl (fun info m => info.assign m.1 m.2) info

end Info

def textValue (text : JsString) : JsValue := .primitive (.string text)

def appNameKey : JsString := .ofString "appName"
def levelKey : JsString := .ofString "level"
def messageKey : JsString := .ofString "message"
def metaKey : JsString := .ofString "meta"
def timestampKey : JsString := .ofString "timestamp"
def errorKey : JsString := .ofString "error"
def performanceKey : JsString := .ofString "performance"

def defaultMeta : Metadata :=
  InsertionMap.empty.set appNameKey (textValue (.ofString "astraport-api"))

/-- The logger merges the metadata of a call into the top level of the record, next to the
    level and the message. -/
def merge (level message : JsString) (metadata : Metadata) : Info :=
  (((Info.mk InsertionMap.empty []).assignAll defaultMeta).assignAll metadata).write levelKey
    (textValue level) |>.write messageKey (textValue message)

/-- Whether a condition on the value holds. -/
def truthy : JsValue → Bool
  | .primitive .undefined | .primitive .null | .primitive (.boolean false) => false
  | .primitive (.string text) => decide (text ≠ [])
  | .primitive (.number x) => decide (x.unsigned ≠ .finite .zero ∧ x ≠ .nan)
  | .primitive (.bigint n) => decide (n ≠ 0)
  | _ => true

def redactFormat (sensitive : JsString → Bool) (info : Info) : Info :=
  match info.read metaKey with
  | some value =>
    if truthy value then info.write metaKey (redactSensitiveData sensitive 0 value) else info
  | none => info

/-- A record that has a timestamp keeps it. -/
def timestampFormat (now : JsString) (info : Info) : Info :=
  if (info.read timestampKey).any truthy then info else info.write timestampKey (textValue now)

/-- errors changes records that are errors or whose message is one, which these are not. -/
def errorsFormat (info : Info) : Info := info

/-- The JSON text of the record's own properties; valueJson is what the format makes of a
    value, none where it leaves the property out. -/
def jsonFormat (valueJson : JsValue → Option Json) (info : Info) : List Char :=
  (Json.object (ownOrder (info.own.entries.filterMap fun m =>
    (valueJson m.2).map fun json => (m.1, json)))).stringify

/-- What the formats before json make of a record. -/
def formatted (casing : Casing) (now : JsString) (info : Info) : Info :=
  errorsFormat (timestampFormat now
    (redactFormat (isSensitive casing.toLowerCase defaultSensitiveKeys) info))

def prodFormat (casing : Casing) (valueJson : JsValue → Option Json) (now : JsString)
    (info : Info) : List Char := jsonFormat valueJson (formatted casing now info)

structure LoggedError where
  name : JsString
  message : JsString
  stack : JsValue
  code : JsValue

/-- The calls of the service that take metadata. -/
inductive LogCall where
  | info (message : JsString)
  | http (message : JsString)
  | logError (error : LoggedError)
  | logPerformance (operation : JsString) (durationMs : JsNumeric)

namespace LogCall

def level : LogCall → JsString
  | .info _ => .ofString "info"
  | .http _ => .ofString "http"
  | .logError _ => .ofString "error"
  | .logPerformance _ _ => .ofString "info"

def message : LogCall → JsString
  | .info message => message
  | .http message => message
  | .logError error => error.message
  | .logPerformance operation durationMs =>
    .ofString "[PERF] " ++ operation ++ .ofString " completed in " ++
      durationMs.text.flatMap codeUnits ++ .ofString "ms"

/-- The property that the call adds to the metadata it was given. -/
def added : LogCall → Option (JsString × JsValue)
  | .info _ => none
  | .http _ => none
  | .logError error => some (errorKey, .object [(.ofString "name", textValue error.name),
      (messageKey, textValue error.message), (.ofString "stack", error.stack),
      (.ofString "code", error.code)])
  | .logPerformance operation durationMs => some (performanceKey, .object
      [(.ofString "operation", textValue operation),
        (.ofString "durationMs", .primitive (.number durationMs))])

def metadata (call : LogCall) (given : Metadata) : Metadata :=
  match call.added with
  | none => given
  | some m => given.set m.1 m.2

/-- What the production and file transports write for the call. -/
def written (casing : Casing) (valueJson : JsValue → Option Json) (now : JsString)
    (call : LogCall) (given : Metadata) : List Char :=
  prodFormat casing valueJson now (merge call.level call.message (call.metadata given))

end LogCall

section TwoRuns
variable {sensitive : JsString → Bool}

/-- Records with the same properties, alike where the names are not sensitive. -/
structure Info.AlikeTo (sensitive : JsString → Bool) (info info' : Info) : Prop where
  keys : info.own.keys = info'.own.keys
  values : ∀ key, sensitive key = false →
    Option.Rel (Alike (replaces sensitive) 1) (info.own.get key) (info'.own.get key)
  inherited : List.Forall₂ (MemberAlike (replaces sensitive) 1) info.inherited info'.inherited

def MetadataAlike (sensitive : JsString → Bool) (given given' : Metadata) : Prop :=
  Alike (replaces sensitive) 0 (.object given.entries) (.object given'.entries)

theorem write_get {info : Info} {name key : JsString} {value : JsValue} :
    (info.write name value).own.get key =
      if key = name then some value else info.own.get key := InsertionMap.get_set _ _ _ _

theorem write_keys {info info' : Info} {name : JsString} {v w : JsValue}
    (keys : info.own.keys = info'.own.keys) :
    (info.write name v).own.keys = (info'.write name w).own.keys := by
  rw [Info.write, Info.write, InsertionMap.keys_set, InsertionMap.keys_set, keys]

theorem write_alike {info info' : Info} (alike : info.AlikeTo sensitive info') {key : JsString}
    {v w : JsValue} (values : replaces sensitive 0 key = true ∨ Alike (replaces sensitive) 1 v w) :
    (info.write key v).AlikeTo sensitive (info'.write key w) where
  keys := write_keys alike.keys
  values := by
    intro other shown
    rw [write_get, write_get]
    by_cases same : other = key
    · rw [if_pos same, if_pos same]
      rcases values with hidden | values
      · rw [replaces, ← same, shown, Bool.and_false] at hidden
        cases hidden
      · exact .some values
    · rw [if_neg same, if_neg same]
      exact alike.values other shown
  inherited := alike.inherited

theorem prototype_alike {before before' : List (JsString × JsValue)} {v w : JsValue}
    (earlier : List.Forall₂ (MemberAlike (replaces sensitive) 1) before before')
    (values : Alike (replaces sensitive) 1 v w) :
    List.Forall₂ (MemberAlike (replaces sensitive) 1) (Info.prototypeMembers before v)
      (Info.prototypeMembers before' w) := by
  cases v with
  | primitive p =>
    rw [Alike] at values
    rw [values]
    cases p with
    | null => exact .nil
    | _ => exact earlier
  | date d =>
    rw [Alike] at values
    rw [values]
    exact .nil
  | array items =>
    rw [Alike] at values
    obtain ⟨others, rfl, -⟩ := values
    exact .nil
  | object members =>
    rw [Alike] at values
    obtain ⟨others, rfl, pairs⟩ := values
    exact membersAlike_iff.mp pairs

theorem assign_alike (prototype : sensitive prototypeKey = false) {info info' : Info}
    (alike : info.AlikeTo sensitive info') {m n : JsString × JsValue}
    (members : MemberAlike (replaces sensitive) 0 m n) :
    (info.assign m.1 m.2).AlikeTo sensitive (info'.assign n.1 n.2) := by
  obtain ⟨key, values⟩ := members
  unfold Info.assign
  rw [← key]
  by_cases own : m.1 = prototypeKey
  · rw [if_pos own, if_pos own]
    rw [replaces, own, prototype, Bool.and_false] at values
    exact ⟨alike.keys, alike.values,
      prototype_alike alike.inherited (values.resolve_left Bool.false_ne_true)⟩
  · rw [if_neg own, if_neg own]
    exact write_alike alike values

theorem assignAll_alike (prototype : sensitive prototypeKey = false) {info info' : Info}
    (alike : info.AlikeTo sensitive info') {given given' : Metadata}
    (members : MetadataAlike sensitive given given') :
    (info.assignAll given).AlikeTo sensitive (info'.assignAll given') := by
  rw [MetadataAlike, alike_object] at members
  unfold Info.assignAll
  generalize given.entries = entries at members ⊢
  generalize given'.entries = entries' at members ⊢
  induction members generalizing info info' with
  | nil => exact alike
  | cons first _ ih => exact ih (assign_alike prototype alike first)

theorem infoAlike_refl (info : Info) : info.AlikeTo sensitive info where
  keys := rfl
  values key _ := by
    cases info.own.get key with
    | none => exact .none
    | some value => exact .some (alike_refl 1 value)
  inherited := List.forall₂_same.mpr fun m _ => ⟨rfl, Or.inr (alike_refl 2 m.2)⟩

theorem merge_alike (prototype : sensitive prototypeKey = false) (level message : JsString)
    {given given' : Metadata} (members : MetadataAlike sensitive given given') :
    (merge level message given).AlikeTo sensitive (merge level message given') := by
  have merged := assignAll_alike prototype
    (infoAlike_refl ((Info.mk InsertionMap.empty []).assignAll defaultMeta)) members
  exact write_alike (write_alike merged (Or.inr (alike_refl 1 _))) (Or.inr (alike_refl 1 _))

/-- What redaction and truth cannot tell apart; and a value that is not truthy is the same. -/
structure Matching (sensitive : JsString → Bool) (v w : JsValue) : Prop where
  redacted : redactSensitiveData sensitive 0 v = redactSensitiveData sensitive 0 w
  truth : truthy v = truthy w
  same : truthy v = false → v = w

theorem matching_of_alike {depth : Nat} {v w : JsValue}
    (alike : Alike (replaces sensitive) depth v w) : Matching sensitive v w where
  redacted := by
    apply redact_alike
    apply alike_shift _ alike
    intro n key hidden
    rw [replaces, Bool.and_eq_true, decide_eq_true_eq] at hidden ⊢
    exact ⟨by omega, hidden.2⟩
  truth := by
    cases v with
    | primitive p =>
      rw [Alike] at alike
      rw [alike]
    | date d =>
      rw [Alike] at alike
      rw [alike]
    | array items =>
      obtain ⟨others, rfl, -⟩ := alike
      rfl
    | object members =>
      obtain ⟨others, rfl, -⟩ := alike
      rfl
  same := by
    intro falsy
    cases v with
    | primitive p =>
      rw [Alike] at alike
      exact alike.symm
    | date d => cases falsy
    | array items => cases falsy
    | object members => cases falsy

theorem read_matching {info info' : Info} (alike : info.AlikeTo sensitive info')
    {name : JsString} (shown : sensitive name = false) :
    Option.Rel (Matching sensitive) (info.read name) (info'.read name) := by
  have own := alike.values name shown
  have inherited := child_alike
    (show replaces sensitive 1 name = false by rw [replaces, shown, Bool.and_false])
    alike.inherited
  unfold Info.read
  generalize info.own.get name = v at own ⊢
  generalize info'.own.get name = w at own ⊢
  generalize (JsValue.object info.inherited).child (.key name) = v' at inherited ⊢
  generalize (JsValue.object info'.inherited).child (.key name) = w' at inherited ⊢
  cases own with
  | some values => exact .some (matching_of_alike values)
  | none =>
    cases inherited with
    | some values => exact .some (matching_of_alike values)
    | none => exact .none

end TwoRuns

section Formats
variable {sensitive : JsString → Bool} {info info' : Info} {key : JsString}

/- The text tells what the format makes of every property. -/
theorem jsonFormat_eq_iff {valueJson : JsValue → Option Json}
    (keys : info.own.keys = info'.own.keys) :
    jsonFormat valueJson info = jsonFormat valueJson info' ↔
      ∀ key, (info.own.get key).bind valueJson = (info'.own.get key).bind valueJson := by
  have listed (i : Info) (key : JsString) (json : Json) :
      (key, json) ∈ ownOrder (i.own.entries.filterMap fun m =>
        (valueJson m.2).map fun json => (m.1, json)) ↔
      (i.own.get key).bind valueJson = some json := by
    rw [(ownOrder_perm _).mem_iff, List.mem_filterMap]
    simp only [Option.map_eq_some_iff, Prod.mk.injEq, Option.bind_eq_some_iff,
      InsertionMap.get_iff_mem, Prod.exists]
    constructor
    · rintro ⟨k, value, member, made, written, rfl, rfl⟩
      exact ⟨value, member, written⟩
    · rintro ⟨value, member, written⟩
      exact ⟨key, value, member, json, written, rfl, rfl⟩
  unfold jsonFormat
  rw [Json.stringify_inj, Json.object.injEq]
  constructor
  · intro same key
    apply Option.ext
    intro json
    rw [← listed, ← listed, same]
  · intro same
    rw [InsertionMap.filterMap_entries, InsertionMap.filterMap_entries, ← keys]
    simp only [same]

/- A property that is not truthy is the same in records that are alike. -/
theorem own_eq_of_falsy (alike : info.AlikeTo sensitive info') (shown : sensitive key = false)
    (falsy : (info.read key).any truthy = false) : info.own.get key = info'.own.get key := by
  have own := alike.values key shown
  unfold Info.read at falsy
  generalize info.own.get key = v at own falsy ⊢
  generalize info'.own.get key = w at own ⊢
  cases own with
  | none => rfl
  | some values => rw [(matching_of_alike values).same falsy]

theorem redactFormat_eq (sensitive : JsString → Bool) (info : Info) :
    redactFormat sensitive info =
      match (info.read metaKey).filter truthy with
      | some value => info.write metaKey (redactSensitiveData sensitive 0 value)
      | none => info := by
  unfold redactFormat
  cases info.read metaKey with
  | none => rfl
  | some value =>
    rw [Option.filter_some]
    by_cases truth : truthy value = true
    · simp [truth]
    · simp [truth]

theorem redactFormat_get (other : key ≠ metaKey) :
    (redactFormat sensitive info).own.get key = info.own.get key := by
  rw [redactFormat_eq]
  split
  · exact InsertionMap.get_set_ne _ _ other
  · rfl

theorem redactFormat_read (other : key ≠ metaKey) :
    (redactFormat sensitive info).read key = info.read key := by
  have inherited : (redactFormat sensitive info).inherited = info.inherited := by
    rw [redactFormat_eq]
    split
    · rfl
    · rfl
  rw [Info.read, Info.read, redactFormat_get other, inherited]

theorem timestampFormat_get {now : JsString} (other : key ≠ timestampKey) :
    (timestampFormat now info).own.get key = info.own.get key := by
  unfold timestampFormat
  split
  · rfl
  · exact InsertionMap.get_set_ne _ _ other

/- What is truthy in one of two such records is so in the other. -/
theorem read_truthy (alike : info.AlikeTo sensitive info') (shown : sensitive key = false) :
    (info.read key).any truthy = (info'.read key).any truthy := by
  have matching := read_matching alike shown
  generalize info.read key = v at matching ⊢
  generalize info'.read key = w at matching ⊢
  cases matching with
  | none => rfl
  | some values => exact values.truth

theorem redactFormat_meta (alike : info.AlikeTo sensitive info')
    (shown : sensitive metaKey = false) :
    (redactFormat sensitive info).own.get metaKey =
      (redactFormat sensitive info').own.get metaKey ∧
    (redactFormat sensitive info).own.keys = (redactFormat sensitive info').own.keys := by
  have matching := read_matching alike shown
  have falsy := own_eq_of_falsy alike shown
  rw [redactFormat_eq, redactFormat_eq]
  generalize info.read metaKey = v at matching falsy ⊢
  generalize info'.read metaKey = w at matching ⊢
  cases matching with
  | none => exact ⟨falsy rfl, alike.keys⟩
  | @some v w values =>
    rw [Option.filter_some, Option.filter_some, ← values.truth]
    by_cases truth : truthy v = true
    · simp only [if_pos truth, write_get, values.redacted]
      exact ⟨rfl, write_keys alike.keys⟩
    · rw [if_neg truth, if_neg truth]
      exact ⟨falsy (by simpa using truth), alike.keys⟩

theorem timestamp_not_meta : timestampKey ≠ metaKey := by decide

/- The two formatted records agree on meta, and on every other property where it was so. -/
theorem formatted_get_iff {casing : Casing} {now : JsString}
    {valueJson : JsValue → Option Json}
    (alike : info.AlikeTo (isSensitive casing.toLowerCase defaultSensitiveKeys) info')
    (metaShown : isSensitive casing.toLowerCase defaultSensitiveKeys metaKey = false)
    (timestampShown : isSensitive casing.toLowerCase defaultSensitiveKeys timestampKey = false)
    (key : JsString) :
    (((formatted casing now info).own.get key).bind valueJson =
      ((formatted casing now info').own.get key).bind valueJson) ↔
      (key ≠ metaKey → (info.own.get key).bind valueJson = (info'.own.get key).bind valueJson) := by
  unfold formatted errorsFormat
  by_cases isMeta : key = metaKey
  · subst isMeta
    rw [timestampFormat_get timestamp_not_meta.symm, timestampFormat_get timestamp_not_meta.symm,
      (redactFormat_meta alike metaShown).1]
    simp
  · by_cases isTimestamp : key = timestampKey
    · subst isTimestamp
      unfold timestampFormat
      rw [redactFormat_read isMeta, redactFormat_read isMeta, ← read_truthy alike timestampShown]
      by_cases truth : (info.read timestampKey).any truthy = true
      · rw [if_pos truth, if_pos truth, redactFormat_get isMeta, redactFormat_get isMeta]
        simp [isMeta]
      · rw [if_neg truth, if_neg truth,
          own_eq_of_falsy alike timestampShown (by simpa using truth)]
        simp [Info.write]
    · rw [timestampFormat_get isTimestamp, timestampFormat_get isTimestamp,
        redactFormat_get isMeta, redactFormat_get isMeta]
      simp [isMeta]

theorem timestampFormat_keys {now : JsString} (truth : (info.read timestampKey).any truthy =
    (info'.read timestampKey).any truthy) (keys : info.own.keys = info'.own.keys) :
    (timestampFormat now info).own.keys = (timestampFormat now info').own.keys := by
  unfold timestampFormat
  rw [← truth]
  split
  · exact keys
  · exact write_keys keys

theorem prodFormat_eq_iff {casing : Casing} {now : JsString} {valueJson : JsValue → Option Json}
    (alike : info.AlikeTo (isSensitive casing.toLowerCase defaultSensitiveKeys) info')
    (metaShown : isSensitive casing.toLowerCase defaultSensitiveKeys metaKey = false)
    (timestampShown : isSensitive casing.toLowerCase defaultSensitiveKeys timestampKey = false) :
    prodFormat casing valueJson now info = prodFormat casing valueJson now info' ↔
      ∀ key ≠ metaKey, (info.own.get key).bind valueJson = (info'.own.get key).bind valueJson := by
  have keys : (formatted casing now info).own.keys = (formatted casing now info').own.keys := by
    refine timestampFormat_keys ?_ (redactFormat_meta alike metaShown).2
    rw [redactFormat_read timestamp_not_meta, redactFormat_read timestamp_not_meta]
    exact read_truthy alike timestampShown
  unfold prodFormat
  rw [jsonFormat_eq_iff keys]
  exact forall_congr' fun key => formatted_get_iff alike metaShown timestampShown key

end Formats

section Merged
variable {level message key : JsString}

theorem assign_get {info : Info} {name : JsString} {value : JsValue} :
    (info.assign name value).own.get key =
      if key = name ∧ key ≠ prototypeKey then some value else info.own.get key := by
  unfold Info.assign
  by_cases own : name = prototypeKey
  · rw [if_pos own, if_neg fun both => both.2 (both.1.trans own)]
  · rw [if_neg own, Info.write, InsertionMap.get_set]
    by_cases same : key = name
    · rw [if_pos same, if_pos ⟨same, same ▸ own⟩]
    · rw [if_neg same, if_neg fun both => same both.1]

theorem assignAll_get {info : Info} {given : Metadata} (other : key ≠ prototypeKey) :
    (info.assignAll given).own.get key = (given.get key).or (info.own.get key) := by
  have loop (entries : List (JsString × JsValue)) (distinct : DistinctKeys entries)
      (info : Info) : (entries.foldl (fun info m => info.assign m.1 m.2) info).own.get key =
        ((InsertionMap.mk entries distinct).get key).or (info.own.get key) := by
    induction entries generalizing info with
    | nil => rfl
    | cons m entries ih =>
      obtain ⟨fresh, more⟩ := List.nodup_cons.mp distinct
      rw [List.foldl_cons, ih more, assign_get, InsertionMap.get_cons distinct]
      by_cases same : key = m.1
      · have absent : (InsertionMap.mk entries more).get key = none := by
          rw [InsertionMap.get_none_iff, same]
          exact fresh
        rw [absent, if_pos ⟨same, other⟩, if_pos same]
        rfl
      · rw [if_neg fun both => same both.1, if_neg same]
  exact loop given.entries given.distinct info

theorem assignAll_prototype {info : Info} {given : Metadata} :
    (info.assignAll given).own.get prototypeKey = info.own.get prototypeKey := by
  unfold Info.assignAll
  induction given.entries generalizing info with
  | nil => rfl
  | cons m entries ih =>
    rw [List.foldl_cons, ih, assign_get, if_neg fun both => both.2 rfl]

/-- The properties whose values in the metadata never reach the record, or reach it redacted. -/
def replacedKeys : List JsString := [prototypeKey, levelKey, messageKey, metaKey]

theorem merge_get {given : Metadata} (kept : key ∉ [prototypeKey, levelKey, messageKey]) :
    (merge level message given).own.get key = (given.get key).or (defaultMeta.get key) := by
  simp only [List.mem_cons, List.not_mem_nil, or_false, not_or] at kept
  obtain ⟨notPrototype, notLevel, notMessage⟩ := kept
  rw [merge, write_get, write_get, if_neg notMessage, if_neg notLevel,
    assignAll_get notPrototype, assignAll_get notPrototype, InsertionMap.get_empty, Option.or_none]

theorem merge_get_fixed {given given' : Metadata}
    (fixed : key ∈ [prototypeKey, levelKey, messageKey]) :
    (merge level message given).own.get key = (merge level message given').own.get key := by
  unfold merge
  rw [write_get, write_get, write_get, write_get]
  by_cases isMessage : key = messageKey
  · rw [if_pos isMessage, if_pos isMessage]
  · rw [if_neg isMessage, if_neg isMessage]
    by_cases isLevel : key = levelKey
    · rw [if_pos isLevel, if_pos isLevel]
    · have isPrototype : key = prototypeKey := by simpa [isLevel, isMessage] using fixed
      simp only [isPrototype, assignAll_prototype]

/- Properties of the defaults that the metadata leave out are left out in both. -/
theorem default_agree {given given' : Metadata} {valueJson : JsValue → Option Json}
    (keys : given.keys = given'.keys) :
    (((given.get key).or (defaultMeta.get key)).bind valueJson =
      ((given'.get key).or (defaultMeta.get key)).bind valueJson) ↔
      (given.get key).bind valueJson = (given'.get key).bind valueJson := by
  have both : given.get key = none ↔ given'.get key = none := by
    rw [InsertionMap.get_none_iff, InsertionMap.get_none_iff, keys]
  cases found : given.get key with
  | none => rw [both.mp found]; simp
  | some v =>
    cases found' : given'.get key with
    | none => rw [both.mpr found'] at found; cases found
    | some w => rfl

theorem not_sensitive (casing : Casing) {name : JsString}
    (small : name.all (fun u => u < 128 ∧ ¬ (65 ≤ u ∧ u ≤ 90)) = true)
    (harmless : name ∉ defaultSensitiveKeys) :
    isSensitive casing.toLowerCase defaultSensitiveKeys name = false := by
  rw [isSensitive, casing.lower small]
  exact decide_eq_false harmless

theorem keys_of_alike {sensitive : JsString → Bool} {given given' : Metadata}
    (alike : MetadataAlike sensitive given given') : given.keys = given'.keys := by
  rw [MetadataAlike, alike_object] at alike
  unfold InsertionMap.keys
  generalize given.entries = entries at alike ⊢
  generalize given'.entries = entries' at alike ⊢
  induction alike with
  | nil => rfl
  | cons first _ ih => rw [List.map_cons, List.map_cons, ih, first.1]

/- What two calls write is told by the metadata outside the replaced properties. -/
theorem merged_written_iff {casing : Casing} {now : JsString} {valueJson : JsValue → Option Json}
    {given given' : Metadata}
    (alike : MetadataAlike (isSensitive casing.toLowerCase defaultSensitiveKeys) given given') :
    prodFormat casing valueJson now (merge level message given) =
      prodFormat casing valueJson now (merge level message given') ↔
      ∀ key ∉ replacedKeys, (given.get key).bind valueJson = (given'.get key).bind valueJson := by
  have keys := keys_of_alike alike
  have prototype : isSensitive casing.toLowerCase defaultSensitiveKeys prototypeKey = false :=
    not_sensitive casing (by decide) (by decide)
  rw [prodFormat_eq_iff (merge_alike prototype level message alike)
    (not_sensitive casing (by decide) (by decide)) (not_sensitive casing (by decide) (by decide))]
  constructor
  · intro same key kept
    simp only [replacedKeys, List.mem_cons, List.not_mem_nil, or_false, not_or] at kept
    obtain ⟨notPrototype, notLevel, notMessage, notMeta⟩ := kept
    have others : key ∉ [prototypeKey, levelKey, messageKey] := by
      simp [notPrototype, notLevel, notMessage]
    rw [← default_agree keys, ← merge_get others, ← merge_get others]
    exact same key notMeta
  · intro same key notMeta
    by_cases fixed : key ∈ [prototypeKey, levelKey, messageKey]
    · rw [merge_get_fixed fixed]
    · rw [merge_get fixed, merge_get fixed, default_agree keys]
      apply same
      simp only [List.mem_cons, List.not_mem_nil, or_false, not_or] at fixed
      simp [replacedKeys, notMeta, fixed]

theorem set_alike {sensitive : JsString → Bool} {given given' : Metadata}
    (alike : MetadataAlike sensitive given given') (name : JsString) (value : JsValue) :
    MetadataAlike sensitive (given.set name value) (given'.set name value) := by
  have keys := keys_of_alike alike
  rw [MetadataAlike, alike_object] at alike ⊢
  have itself : MemberAlike (replaces sensitive) 0 (name, value) (name, value) :=
    ⟨rfl, Or.inr (alike_refl 1 value)⟩
  unfold InsertionMap.set
  by_cases present : name ∈ given.keys
  · rw [dif_pos present, dif_pos (keys ▸ present), List.forall₂_map_left_iff,
      List.forall₂_map_right_iff]
    apply alike.imp
    intro m n both
    unfold InsertionMap.overwrite
    rw [← both.1]
    by_cases same : m.1 = name
    · rw [if_pos same, if_pos same]
      exact itself
    · rw [if_neg same, if_neg same]
      exact both
  · rw [dif_neg present, dif_neg (keys ▸ present)]
    exact List.rel_append alike (List.Forall₂.cons itself .nil)

end Merged

/-- The properties of the metadata that a call's record shows redacted or not at all. -/
def LogCall.replaced (call : LogCall) : List JsString :=
  replacedKeys ++ (call.added.map Prod.fst).toList

/-- Metadata that differ in nothing but what stands under sensitive keys at depths up to 10 are
    written alike if and only if they are so under every key of the top level but meta and the
    ones that the call and the logger write themselves. -/
theorem metadata_written_alike_iff (casing : Casing) (valueJson : JsValue → Option Json)
    (now : JsString) (call : LogCall) {given given' : Metadata}
    (alike : MetadataAlike (isSensitive casing.toLowerCase defaultSensitiveKeys) given given') :
    call.written casing valueJson now given = call.written casing valueJson now given' ↔
      ∀ key ∉ call.replaced,
        (given.get key).bind valueJson = (given'.get key).bind valueJson := by
  unfold LogCall.written LogCall.metadata LogCall.replaced
  cases call.added with
  | none =>
    rw [merged_written_iff alike]
    simp
  | some m =>
    rw [merged_written_iff (set_alike alike m.1 m.2)]
    simp only [InsertionMap.get_set, Option.map_some, Option.toList_some, List.mem_append,
      List.mem_singleton, not_or]
    constructor
    · intro same key kept
      have agree := same key kept.1
      rwa [if_neg kept.2, if_neg kept.2] at agree
    · intro same key kept
      by_cases itself : key = m.1
      · rw [if_pos itself, if_pos itself]
      · rw [if_neg itself, if_neg itself]
        exact same key ⟨kept, itself⟩

/-- What JSON.stringify makes of a value, where it does not throw. -/
def plainJson (value : JsValue) : Option Json := value.toJson.getD none

def withPassword (password : String) : Metadata :=
  InsertionMap.empty.set (.ofString "password") (textValue (.ofString password))

def withMetaPassword (password : String) : Metadata :=
  InsertionMap.empty.set metaKey
    (.object [(.ofString "password", textValue (.ofString password))])

theorem password_written :
    MetadataAlike (isSensitive asciiCasing.toLowerCase defaultSensitiveKeys) (withPassword "a")
      (withPassword "b") ∧
    (LogCall.info (.ofString "in")).written asciiCasing plainJson [] (withPassword "a") ≠
      (LogCall.info (.ofString "in")).written asciiCasing plainJson [] (withPassword "b") := by
  have alike : MetadataAlike (isSensitive asciiCasing.toLowerCase defaultSensitiveKeys)
      (withPassword "a") (withPassword "b") :=
    alike_object.mpr (.cons ⟨rfl, Or.inl (by decide)⟩ .nil)
  refine ⟨alike, fun same => ?_⟩
  have shown := (merged_written_iff alike).mp same (.ofString "password") (by decide)
  simp only [withPassword, InsertionMap.get_set_self, Option.bind_some, textValue, plainJson,
    JsValue.toJson, Option.getD_some, Option.some.injEq, Json.string.injEq,
    JsString.ofString_inj] at shown
  simp at shown

theorem meta_password_redacted :
    (LogCall.info (.ofString "in")).written asciiCasing plainJson [] (withMetaPassword "a") =
      (LogCall.info (.ofString "in")).written asciiCasing plainJson [] (withMetaPassword "b") := by
  have hidden : Alike (replaces (isSensitive asciiCasing.toLowerCase defaultSensitiveKeys)) 1
      (.object [(.ofString "password", textValue (.ofString "a"))])
      (.object [(.ofString "password", textValue (.ofString "b"))]) :=
    alike_object.mpr (.cons ⟨rfl, Or.inl (by decide)⟩ .nil)
  have alike : MetadataAlike (isSensitive asciiCasing.toLowerCase defaultSensitiveKeys)
      (withMetaPassword "a") (withMetaPassword "b") :=
    alike_object.mpr (.cons ⟨rfl, Or.inr hidden⟩ .nil)
  apply (metadata_written_alike_iff asciiCasing plainJson [] (.info (.ofString "in")) alike).mpr
  intro key kept
  have other : key ≠ metaKey := by
    rintro rfl
    exact kept (by simp [LogCall.replaced, replacedKeys])
  rw [withMetaPassword, withMetaPassword, InsertionMap.get_set_ne _ _ other,
    InsertionMap.get_set_ne _ _ other]

end AstraPort.Logging
