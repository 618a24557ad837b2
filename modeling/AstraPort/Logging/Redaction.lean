import AstraPort.Foundation.Casing
import AstraPort.Foundation.Hiding

/- redactSensitiveData: what it hides, how deep, and what it leaves as it is. -/
namespace AstraPort.Logging
open JsValue

def defaultSensitiveKeys : List JsString :=
  ["password", "passwd", "secret", "token", "accesstoken", "refreshtoken", "authorization",
    "apikey", "api_key", "privatekey", "private_key", "secretkey", "secret_key", "creditcard",
    "credit_card", "cardnumber", "card_number", "cvv", "ssn", "socialsecuritynumber",
    "passphrase", "mnemonic", "seed"].map JsString.ofString

def redactedMark : JsValue := .primitive (.string (.ofString "[REDACTED]"))

/-- Assigning to this property of a plain object makes no own property. -/
def prototypeKey : JsString := .ofString "__proto__"

/-- sensitiveKeys.has(k.toLowerCase()); toLowerCase is the host's. -/
def isSensitive (toLowerCase : JsString → JsString) (sensitiveKeys : List JsString)
    (k : JsString) : Bool := decide (toLowerCase k ∈ sensitiveKeys)

mutual
/-- A date is an object without own properties. -/
def redactSensitiveData (sensitive : JsString → Bool) (depth : Nat) : JsValue → JsValue
  | .primitive p => .primitive p
  | .date d => if 10 < depth then .date d else .object []
  | .array items =>
    if 10 < depth then .array items else .array (redactItems sensitive (depth + 1) items)
  | .object members =>
    if 10 < depth then .object members else .object (redactEntries sensitive depth members)

def redactItems (sensitive : JsString → Bool) (depth : Nat) : List JsValue → List JsValue
  | [] => []
  | item :: items => redactSensitiveData sensitive depth item :: redactItems sensitive depth items

def redactEntries (sensitive : JsString → Bool) (depth : Nat) :
    List (JsString × JsValue) → List (JsString × JsValue)
  | [] => []
  | (k, v) :: entries =>
    let value := if sensitive k then redactedMark else redactSensitiveData sensitive (depth + 1) v
    if k = prototypeKey then redactEntries sensitive depth entries
    else (k, value) :: redactEntries sensitive depth entries
end

section Entries
variable {sensitive : JsString → Bool} {depth : Nat}

def redactEntry (sensitive : JsString → Bool) (depth : Nat) (m : JsString × JsValue) :
    JsString × JsValue :=
  (m.1, if sensitive m.1 then redactedMark else redactSensitiveData sensitive (depth + 1) m.2)

/-- The properties an assignment makes. -/
def assignable (members : List (JsString × JsValue)) : List (JsString × JsValue) :=
  members.filter fun m => m.1 ≠ prototypeKey

theorem redactItems_map (items : List JsValue) :
    redactItems sensitive depth items = items.map (redactSensitiveData sensitive depth) := by
  induction items with
  | nil => rw [redactItems, List.map_nil]
  | cons item items ih => rw [redactItems, ih, List.map_cons]

theorem redactEntries_map (members : List (JsString × JsValue)) :
    redactEntries sensitive depth members =
      (assignable members).map (redactEntry sensitive depth) := by
  induction members with
  | nil => rw [redactEntries]; rfl
  | cons m members ih =>
    rw [redactEntries, ih]
    by_cases own : m.1 = prototypeKey
    · simp [own, assignable]
    · simp [own, assignable, redactEntry]

theorem redact_array (shallow : depth ≤ 10) (items : List JsValue) :
    redactSensitiveData sensitive depth (.array items) =
      .array (items.map (redactSensitiveData sensitive (depth + 1))) := by
  rw [redactSensitiveData, if_neg (by omega), redactItems_map]

theorem redact_object (shallow : depth ≤ 10) (members : List (JsString × JsValue)) :
    redactSensitiveData sensitive depth (.object members) =
      .object ((assignable members).map (redactEntry sensitive depth)) := by
  rw [redactSensitiveData, if_neg (by omega), redactEntries_map]

/- Behind the guard nothing changes. -/
theorem redact_deep (deep : 10 < depth) (value : JsValue) :
    redactSensitiveData sensitive depth value = value := by
  cases value with
  | primitive p => rw [redactSensitiveData]
  | date d => rw [redactSensitiveData, if_pos deep]
  | array items => rw [redactSensitiveData, if_pos deep]
  | object members => rw [redactSensitiveData, if_pos deep]

end Entries

section Secrecy
variable {sensitive : JsString → Bool} {depth : Nat}

/-- The keys under which values are replaced. -/
def replaces (sensitive : JsString → Bool) (depth : Nat) (key : JsString) : Bool :=
  decide (depth ≤ 10) && sensitive key

theorem replaces_deep (deep : 10 < depth) (d : Nat) (deeper : d ≥ depth) (key : JsString) :
    replaces sensitive d key = false := by
  rw [replaces, decide_eq_false (by omega), Bool.false_and]

/- Values that are alike become the same, one constructor at a time. -/
theorem redact_alike {x y : JsValue} (alike : Alike (replaces sensitive) depth x y) :
    redactSensitiveData sensitive depth x = redactSensitiveData sensitive depth y := by
  induction x generalizing depth y with
  | primitive p =>
    rw [Alike] at alike
    rw [alike]
  | date d =>
    rw [Alike] at alike
    rw [alike]
  | array items ih =>
    by_cases deep : 10 < depth
    · rw [alike_eq (replaces_deep deep) alike]
    · rw [Alike] at alike
      obtain ⟨others, rfl, pairs⟩ := alike
      rw [itemsAlike_iff] at pairs
      rw [redact_array (by omega), redact_array (by omega)]
      congr 1
      induction pairs with
      | nil => rfl
      | cons first more rest =>
        rw [List.map_cons, List.map_cons, ih _ List.mem_cons_self first,
          rest fun item member => ih item (List.mem_cons_of_mem _ member)]
  | object members ih =>
    by_cases deep : 10 < depth
    · rw [alike_eq (replaces_deep deep) alike]
    · rw [Alike] at alike
      obtain ⟨others, rfl, pairs⟩ := alike
      rw [membersAlike_iff] at pairs
      rw [redactSensitiveData, redactSensitiveData, if_neg deep, if_neg deep]
      congr 1
      induction pairs with
      | nil => rfl
      | @cons m n members others first more rest =>
        obtain ⟨key, hidden | values⟩ := first
        · have listed : sensitive m.1 = true := by
            rw [replaces, Bool.and_eq_true] at hidden
            exact hidden.2
          rw [redactEntries, redactEntries, ← key, listed, if_pos rfl, if_pos rfl,
            rest fun m member => ih m (List.mem_cons_of_mem _ member)]
        · rw [redactEntries, redactEntries, ← key, ih m List.mem_cons_self values,
            rest fun m member => ih m (List.mem_cons_of_mem _ member)]

/-- Values in so many arrays. -/
def nested : Nat → JsValue → JsValue
  | 0, value => value
  | n + 1, value => .array [nested n value]

theorem redact_nested {n : Nat} (shallow : depth + n ≤ 11) (value : JsValue) :
    redactSensitiveData sensitive depth (nested n value) =
      nested n (redactSensitiveData sensitive (depth + n) value) := by
  induction n generalizing depth with
  | zero => rfl
  | succ n ih =>
    rw [nested, redact_array (by omega), List.map_singleton, ih (by omega),
      show depth + 1 + n = depth + (n + 1) by omega]
    rfl

theorem nested_inj {n : Nat} {value other : JsValue} (same : nested n value = nested n other) :
    value = other := by
  induction n with
  | zero => exact same
  | succ n ih => exact ih (List.head_eq_of_cons_eq (JsValue.array.inj same))

theorem nested_alike {hides : Nat → JsString → Bool} {n : Nat} {value other : JsValue}
    (alike : Alike hides (depth + n) value other) :
    Alike hides depth (nested n value) (nested n other) := by
  induction n generalizing depth with
  | zero => exact alike
  | succ n ih =>
    rw [nested, nested, alike_array, List.forall₂_cons]
    rw [show depth + (n + 1) = depth + 1 + n by omega] at alike
    exact ⟨ih alike, List.Forall₂.nil⟩

end Secrecy

/-- Values that differ in nothing but what stands under the default sensitive keys of objects
    at depths up to 10 are redacted to the same value. -/
theorem secrets_to_depth_ten_redacted (toLowerCase : JsString → JsString) {x y : JsValue}
    (alike : Alike (replaces (isSensitive toLowerCase defaultSensitiveKeys)) 0 x y) :
    redactSensitiveData (isSensitive toLowerCase defaultSensitiveKeys) 0 x =
      redactSensitiveData (isSensitive toLowerCase defaultSensitiveKeys) 0 y :=
  redact_alike alike

/-- { Password: … } in so many arrays. -/
def passwordIn (arrays : Nat) (password : String) : JsValue :=
  nested arrays (.object [(.ofString "Password", .primitive (.string (.ofString password)))])

theorem password_sensitive :
    isSensitive lowerLetters defaultSensitiveKeys (.ofString "Password") = true := by
  decide

theorem passwordIn_alike {hides : Nat → JsString → Bool} {arrays : Nat}
    (hidden : hides arrays (.ofString "Password") = true) (first second : String) :
    Alike hides 0 (passwordIn arrays first) (passwordIn arrays second) := by
  apply nested_alike
  rw [alike_object, List.forall₂_cons]
  exact ⟨⟨rfl, Or.inl (by simpa using hidden)⟩, List.Forall₂.nil⟩

theorem passwords_in_ten_arrays_redacted :
    redactSensitiveData (isSensitive lowerLetters defaultSensitiveKeys) 0 (passwordIn 10 "a") =
      redactSensitiveData (isSensitive lowerLetters defaultSensitiveKeys) 0
        (passwordIn 10 "b") :=
  secrets_to_depth_ten_redacted lowerLetters
    (passwordIn_alike (by rw [replaces, password_sensitive]; rfl) "a" "b")

theorem password_in_eleven_arrays_shown : ¬ ∀ x y : JsValue,
    x.everywhere isJson = true → y.everywhere isJson = true →
    Alike (fun _ key => isSensitive lowerLetters defaultSensitiveKeys key) 0 x y →
    redactSensitiveData (isSensitive lowerLetters defaultSensitiveKeys) 0 x =
      redactSensitiveData (isSensitive lowerLetters defaultSensitiveKeys) 0 y := by
  intro always
  have same := always (passwordIn 11 "a") (passwordIn 11 "b") (by decide) (by decide)
    (passwordIn_alike password_sensitive "a" "b")
  rw [passwordIn, passwordIn, redact_nested (by omega), redact_nested (by omega),
    redact_deep (by omega), redact_deep (by omega)] at same
  have member := JsValue.object.inj (nested_inj same)
  simp [JsString.ofString_inj] at member

section Form
variable {sensitive : JsString → Bool} {depth : Nat}

/-- No object has a property of the name that cannot be assigned. -/
def plainKeys : JsValue → Bool
  | .object members => members.all fun m => decide (m.1 ≠ prototypeKey)
  | _ => true

/-- The path passes no sensitive key. -/
def Open (sensitive : JsString → Bool) (path : List Step) : Prop :=
  ∀ key, .key key ∈ path → sensitive key = false

/-- The path, from a value at the depth, does not enter a value that is replaced. -/
def Unreplaced (sensitive : JsString → Bool) (depth : Nat) (path : List Step) : Prop :=
  ∀ key, .key key ∈ path.take (11 - depth) → sensitive key = false

theorem Open.unreplaced {path : List Step} (passes : Open sensitive path) (depth : Nat) :
    Unreplaced sensitive depth path :=
  fun key inside => passes key (List.mem_of_mem_take inside)

theorem Unreplaced.step {step : Step} {path : List Step} (shallow : depth ≤ 10)
    (passes : Unreplaced sensitive depth (step :: path)) :
    ∀ key, step = .key key → sensitive key = false := by
  intro key same
  apply passes key
  rw [show 11 - depth = (10 - depth) + 1 by omega, List.take_succ_cons, same]
  exact List.mem_cons_self

theorem Unreplaced.tail {step : Step} {path : List Step}
    (passes : Unreplaced sensitive depth (step :: path)) :
    Unreplaced sensitive (depth + 1) path := by
  intro key inside
  apply passes key
  by_cases shallow : depth ≤ 10
  · rw [show 11 - depth = (11 - (depth + 1)) + 1 by omega, List.take_succ_cons]
    exact List.mem_cons_of_mem _ inside
  · rw [show 11 - (depth + 1) = 0 by omega, List.take_zero] at inside
    cases inside

theorem assignable_plain {members : List (JsString × JsValue)}
    (plain : plainKeys (.object members) = true) : assignable members = members :=
  List.filter_eq_self.mpr (List.all_eq_true.mp plain)

theorem redacted_property (shallow : depth ≤ 10) {members : List (JsString × JsValue)}
    (plain : plainKeys (.object members) = true) (name : JsString) :
    (redactSensitiveData sensitive depth (.object members)).child (.key name) =
      (members.find? fun m => m.1 = name).map fun m => (redactEntry sensitive depth m).2 := by
  rw [redact_object shallow, assignable_plain plain, child, List.find?_map, Option.map_map]
  rfl

/- One step into a value finds what it found before, redacted. -/
theorem redact_child {value : JsValue} (plain : plainKeys value = true) {step : Step}
    (passes : depth ≤ 10 → ∀ key, step = .key key → sensitive key = false) :
    (redactSensitiveData sensitive depth value).child step =
      (value.child step).map (redactSensitiveData sensitive (depth + 1)) := by
  by_cases deep : 10 < depth
  · have unchanged : redactSensitiveData sensitive (depth + 1) = id :=
      funext fun inner => redact_deep (by omega) inner
    rw [redact_deep deep, unchanged, Option.map_id, id]
  · cases value with
    | primitive p =>
      rw [redactSensitiveData]
      cases step <;> rfl
    | date d =>
      rw [redactSensitiveData, if_neg deep]
      cases step <;> rfl
    | array items =>
      rw [redact_array (by omega)]
      cases step with
      | key name => rfl
      | index position => exact List.getElem?_map
    | object members =>
      cases step with
      | index position =>
        rw [redact_object (by omega)]
        rfl
      | key name =>
        rw [redacted_property (by omega) plain, child, Option.map_map]
        apply Option.map_congr
        intro m found
        have same : m.1 = name := by simpa using List.find?_some found
        have shown := passes (by omega) name rfl
        rw [redactEntry, same, shown]
        rfl

theorem redact_follow {path : List Step} {value : JsValue}
    (plain : value.everywhere plainKeys = true) (passes : Unreplaced sensitive depth path) :
    (redactSensitiveData sensitive depth value).follow path =
      (value.follow path).map (redactSensitiveData sensitive (depth + path.length)) := by
  induction path generalizing depth value with
  | nil => rfl
  | cons step path ih =>
    rw [follow, redact_child (everywhere_here plain) passes.step, follow]
    cases found : value.child step with
    | none => rfl
    | some inner =>
      have onward := ih (child_everywhere plain found) passes.tail
      rw [Option.map_some, Option.bind_some, Option.bind_some, onward, List.length_cons,
        show depth + 1 + path.length = depth + (path.length + 1) by omega]

theorem redact_sameForm {value : JsValue} (json : isJson value = true)
    (plain : plainKeys value = true) :
    SameForm value (redactSensitiveData sensitive depth value) := by
  by_cases deep : 10 < depth
  · rw [redact_deep deep]
    cases value <;> rfl
  · cases value with
    | primitive p => rw [redactSensitiveData]; rfl
    | date d => cases json
    | array items =>
      rw [redact_array (by omega)]
      exact (List.length_map _).symm
    | object members =>
      rw [redact_object (by omega), assignable_plain plain]
      simp [SameForm, redactEntry]

theorem sameForm_of_redact {x y : JsValue} (jsonY : y.everywhere isJson = true)
    (plainY : y.everywhere plainKeys = true)
    (same : redactSensitiveData sensitive depth x = redactSensitiveData sensitive depth y) :
    SameForm y (redactSensitiveData sensitive depth x) :=
  same ▸ redact_sameForm (everywhere_here jsonY) (everywhere_here plainY)

theorem items_of_redact (shallow : depth ≤ 10) {items others : List JsValue}
    (same : redactSensitiveData sensitive depth (.array items) =
      redactSensitiveData sensitive depth (.array others)) :
    List.Forall₂ (fun a b => redactSensitiveData sensitive (depth + 1) a =
      redactSensitiveData sensitive (depth + 1) b) items others := by
  rwa [redact_array shallow, redact_array shallow, JsValue.array.injEq, ← List.forall₂_eq_eq_eq,
    List.forall₂_map_left_iff, List.forall₂_map_right_iff] at same

theorem members_of_redact (shallow : depth ≤ 10) {members others : List (JsString × JsValue)}
    (plain : plainKeys (.object members) = true) (plain' : plainKeys (.object others) = true)
    (same : redactSensitiveData sensitive depth (.object members) =
      redactSensitiveData sensitive depth (.object others)) :
    List.Forall₂ (fun a b => a.1 = b.1 ∧ (sensitive a.1 = true ∨
      redactSensitiveData sensitive (depth + 1) a.2 =
        redactSensitiveData sensitive (depth + 1) b.2)) members others := by
  rw [redact_object shallow, redact_object shallow, assignable_plain plain,
    assignable_plain plain', JsValue.object.injEq, ← List.forall₂_eq_eq_eq,
    List.forall₂_map_left_iff, List.forall₂_map_right_iff] at same
  apply same.imp
  intro a b entries
  obtain ⟨key, values⟩ := Prod.ext_iff.mp entries
  refine ⟨key, ?_⟩
  by_cases secret : sensitive a.1 = true
  · exact Or.inl secret
  · right
    have shown : ¬ sensitive b.1 = true := key ▸ secret
    simpa only [redactEntry, if_neg secret, if_neg shown] using values

/- Nothing else is hidden: JSON values redacted to the same were alike. -/
theorem alike_of_redact {x y : JsValue} (jsonX : x.everywhere isJson = true)
    (plainX : x.everywhere plainKeys = true) (jsonY : y.everywhere isJson = true)
    (plainY : y.everywhere plainKeys = true)
    (same : redactSensitiveData sensitive depth x = redactSensitiveData sensitive depth y) :
    Alike (replaces sensitive) depth x y := by
  induction x generalizing depth y with
  | primitive p =>
    have form := sameForm_of_redact jsonY plainY same
    rw [redactSensitiveData] at form
    cases y with
    | primitive q => rw [Alike, form]
    | date d => cases form
    | array others => cases form
    | object others => cases form
  | date d => cases everywhere_here jsonX
  | array items ih =>
    by_cases deep : 10 < depth
    · rw [redact_deep deep, redact_deep deep] at same
      rw [same]
      exact alike_refl depth y
    · have form := sameForm_of_redact jsonY plainY same
      rw [redact_array (by omega)] at form
      cases y with
      | primitive q => cases form
      | date d => cases form
      | object others => cases form
      | array others =>
        have pairs := List.forall₂_iff_zip.mp (items_of_redact (by omega) same)
        rw [everywhere_array] at jsonX plainX jsonY plainY
        rw [alike_array, List.forall₂_iff_zip]
        refine ⟨pairs.1, fun {a b} pair => ?_⟩
        obtain ⟨inItems, inOthers⟩ := List.of_mem_zip pair
        exact ih a inItems (jsonX.2 a inItems) (plainX.2 a inItems) (jsonY.2 b inOthers)
          (plainY.2 b inOthers) (pairs.2 pair)
  | object members ih =>
    by_cases deep : 10 < depth
    · rw [redact_deep deep, redact_deep deep] at same
      rw [same]
      exact alike_refl depth y
    · have form := sameForm_of_redact jsonY plainY same
      rw [redact_object (by omega)] at form
      cases y with
      | primitive q => cases form
      | date d => cases form
      | array others => cases form
      | object others =>
        rw [everywhere_object] at jsonX plainX jsonY plainY
        have pairs := List.forall₂_iff_zip.mp (members_of_redact (by omega) plainX.1 plainY.1 same)
        rw [alike_object, List.forall₂_iff_zip]
        refine ⟨pairs.1, fun {a b} pair => ?_⟩
        obtain ⟨inMembers, inOthers⟩ := List.of_mem_zip pair
        obtain ⟨key, hidden | values⟩ := pairs.2 pair
        · exact ⟨key, Or.inl (by rw [replaces, hidden, decide_eq_true (by omega)]; rfl)⟩
        · exact ⟨key, Or.inr (ih a inMembers (jsonX.2 a inMembers) (plainX.2 a inMembers)
            (jsonY.2 b inOthers) (plainY.2 b inOthers) values)⟩

/-- What redaction forgets of JSON values is what stands under sensitive keys, and no more. -/
theorem redacted_same_iff {x y : JsValue} (jsonX : x.everywhere isJson = true)
    (plainX : x.everywhere plainKeys = true) (jsonY : y.everywhere isJson = true)
    (plainY : y.everywhere plainKeys = true) :
    redactSensitiveData sensitive depth x = redactSensitiveData sensitive depth y ↔
      Alike (replaces sensitive) depth x y :=
  ⟨alike_of_redact jsonX plainX jsonY plainY, redact_alike⟩

theorem assignable_redacted (members : List (JsString × JsValue)) :
    assignable ((assignable members).map (redactEntry sensitive depth)) =
      (assignable members).map (redactEntry sensitive depth) := by
  apply List.filter_eq_self.mpr
  intro n inside
  obtain ⟨m, kept, rfl⟩ := List.mem_map.mp inside
  exact (List.mem_filter.mp kept).2

/- What was redacted is redacted. -/
theorem redact_redact (depth : Nat) (value : JsValue) :
    redactSensitiveData sensitive depth (redactSensitiveData sensitive depth value) =
      redactSensitiveData sensitive depth value := by
  induction value generalizing depth with
  | primitive p => rw [redactSensitiveData, redactSensitiveData]
  | date d =>
    by_cases deep : 10 < depth
    · rw [redact_deep deep, redact_deep deep]
    · rw [redactSensitiveData, if_neg deep, redact_object (by omega)]
      rfl
  | array items ih =>
    by_cases deep : 10 < depth
    · rw [redact_deep deep, redact_deep deep]
    · rw [redact_array (by omega), redact_array (by omega), List.map_map]
      congr 1
      exact List.map_congr_left fun item member => ih item member (depth + 1)
  | object members ih =>
    by_cases deep : 10 < depth
    · rw [redact_deep deep, redact_deep deep]
    · rw [redact_object (by omega), redact_object (by omega), assignable_redacted, List.map_map]
      congr 1
      apply List.map_congr_left
      intro m kept
      have member := (List.mem_filter.mp kept).1
      rw [Function.comp_apply, redactEntry, redactEntry]
      by_cases secret : sensitive m.1 = true
      · rw [if_pos secret, if_pos secret]
      · rw [if_neg secret, if_neg secret, ih m member (depth + 1)]

end Form
/-- Outside the values it replaces, redaction keeps a JSON value as it is: arrays, keys and
    their order, leaves. Under the sensitive keys of objects at depths up to 10 it leaves the
    mark, and redacting once more changes nothing. -/
theorem redaction_keeps_the_rest (toLowerCase : JsString → JsString)
    (sensitiveKeys : List JsString) {x : JsValue} (json : x.everywhere isJson = true)
    (plain : x.everywhere plainKeys = true) :
    let sensitive := isSensitive toLowerCase sensitiveKeys
    let redacted := redactSensitiveData sensitive 0 x
    (∀ path, Unreplaced sensitive 0 path →
      Option.Rel SameForm (x.follow path) (redacted.follow path)) ∧
    (∀ path leaf, Open sensitive path → x.follow path = some (.primitive leaf) →
      redacted.follow path = some (.primitive leaf)) ∧
    (∀ path members key, Open sensitive path → path.length ≤ 10 →
      x.follow path = some (.object members) → key ∈ members.map Prod.fst →
      sensitive key = true → redacted.follow (path ++ [.key key]) = some redactedMark) ∧
    redactSensitiveData sensitive 0 redacted = redacted := by
  intro sensitive redacted
  refine ⟨?_, ?_, ?_, redact_redact 0 x⟩
  · intro path passes
    rw [redact_follow plain passes]
    cases found : x.follow path with
    | none => exact .none
    | some inner =>
      exact .some (redact_sameForm (everywhere_here (follow_everywhere json found))
        (everywhere_here (follow_everywhere plain found)))
  · intro path leaf passes found
    rw [redact_follow plain (passes.unreplaced 0), found, Option.map_some, redactSensitiveData]
  · intro path members key passes shallow found listed secret
    have inner := everywhere_here (follow_everywhere plain found)
    rw [follow_concat, redact_follow plain (passes.unreplaced 0), found, Option.map_some,
      Option.bind_some, redacted_property (by omega) inner]
    obtain ⟨m, member, rfl⟩ := List.mem_map.mp listed
    have there : (members.find? fun n => n.1 = m.1).isSome = true :=
      List.find?_isSome.mpr ⟨m, member, by simp⟩
    obtain ⟨n, first⟩ := Option.isSome_iff_exists.mp there
    have same : n.1 = m.1 := by simpa using List.find?_some first
    rw [first, Option.map_some, redactEntry, same, secret]
    rfl

/-- A list of accounts of a name and a secret. -/
def accounts : JsValue :=
  .array [.object [(.ofString "name", .primitive (.string (.ofString "Ada"))),
    (.ofString "SEED", .array [.primitive .null])]]

theorem account_keeps_name_not_seed :
    (redactSensitiveData (isSensitive lowerLetters defaultSensitiveKeys) 0 accounts).follow
      [.index 0, .key (.ofString "name")] = some (.primitive (.string (.ofString "Ada"))) ∧
    (redactSensitiveData (isSensitive lowerLetters defaultSensitiveKeys) 0 accounts).follow
      [.index 0, .key (.ofString "SEED")] = some redactedMark := by
  obtain ⟨-, leaves, secrets, -⟩ := redaction_keeps_the_rest lowerLetters defaultSensitiveKeys
    (x := accounts) (by decide) (by decide)
  constructor
  · apply leaves [.index 0, .key (.ofString "name")] (.string (.ofString "Ada"))
    · intro key inside
      simp only [List.mem_cons, reduceCtorEq, Step.key.injEq, List.not_mem_nil, or_false,
        false_or] at inside
      rw [inside]
      decide
    · rfl
  · apply secrets [.index 0] [(.ofString "name", .primitive (.string (.ofString "Ada"))),
      (.ofString "SEED", .array [.primitive .null])] (.ofString "SEED")
    · intro key inside
      simp at inside
    · decide
    · rfl
    · simp
    · decide

end AstraPort.Logging
