import AstraPort.Foundation.InsertionMap
import AstraPort.Foundation.JsValue

/- What JSON.parse makes of a text: values whose objects list distinct keys in their own order.
   Every such value is written with the same text again after it was parsed. -/
namespace AstraPort

/-- What JSON.parse can return, and how objects list their keys, at one place of a value. -/
def isParsed (value : JsValue) : Bool :=
  value.isJson && match value with
    | .object members => decide (InOwnOrder members)
    | _ => true

/-- A JSON value in memory. -/
structure ParsedJson where
  value : JsValue
  parsed : value.everywhere isParsed = true

namespace JsValue

/-- Writing properties one after the other; a repeated key keeps its place and takes the value. -/
def assigned (members : List (JsString × JsValue)) : List (JsString × JsValue) :=
  (members.foldl (fun object m => object.set m.1 m.2) InsertionMap.empty).entries

mutual
/-- The value that a tree of JSON stands for. -/
def ofJson : Json → JsValue
  | .null => .primitive .null
  | .bool b => .primitive (.boolean b)
  | .number x => .primitive (.number (.finite x))
  | .string s => .primitive (.string s)
  | .array items => .array (ofItems items)
  | .object members => .object (ownOrder (assigned (ofMembers members)))

def ofItems : List Json → List JsValue
  | [] => []
  | item :: items => ofJson item :: ofItems items

def ofMembers : List (JsString × Json) → List (JsString × JsValue)
  | [] => []
  | (key, value) :: members => (key, ofJson value) :: ofMembers members
end

/-- The tree of a value that has one. -/
def tree (value : JsValue) : Json := (value.toJson.getD none).getD .null

section Parsing

theorem ofItems_map (items : List Json) : ofItems items = items.map ofJson := by
  induction items with
  | nil => rw [ofItems, List.map_nil]
  | cons item items ih => rw [ofItems, ih, List.map_cons]

theorem ofMembers_map (members : List (JsString × Json)) :
    ofMembers members = members.map fun m => (m.1, ofJson m.2) := by
  induction members with
  | nil => rw [ofMembers, List.map_nil]
  | cons m members ih => rw [ofMembers, ih, List.map_cons]

theorem assigned_distinct (members : List (JsString × JsValue)) :
    DistinctKeys (assigned members) := InsertionMap.distinct _

/- Written values stay, whatever their keys. -/
theorem assigned_all (good : JsValue → Prop) {members : List (JsString × JsValue)}
    (all : ∀ m ∈ members, good m.2) : ∀ m ∈ assigned members, good m.2 := by
  have onto (object : InsertionMap JsString JsValue) (before : ∀ m ∈ object.entries, good m.2) :
      ∀ m ∈ (members.foldl (fun object m => object.set m.1 m.2) object).entries, good m.2 := by
    induction members generalizing object with
    | nil => exact before
    | cons first rest ih =>
      obtain ⟨here, later⟩ := List.forall_mem_cons.mp all
      apply ih later
      intro m member
      obtain ⟨-, same⟩ | ⟨-, kept⟩ := (object.set_entries_iff first.1 first.2 m.1 m.2).mp member
      · rw [same]
        exact here
      · exact before m kept
  exact onto InsertionMap.empty fun m member => absurd member List.not_mem_nil

/- Members with distinct keys are written as they stand. -/
theorem assigned_self {members : List (JsString × JsValue)} (distinct : DistinctKeys members) :
    assigned members = members := by
  have onto (object : InsertionMap JsString JsValue)
      (apart : DistinctKeys (object.entries ++ members)) :
      (members.foldl (fun object m => object.set m.1 m.2) object).entries =
        object.entries ++ members := by
    clear distinct
    induction members generalizing object with
    | nil => exact (List.append_nil _).symm
    | cons first rest ih =>
      have unknown : first.1 ∉ object.keys := by
        intro known
        rw [DistinctKeys, List.map_append, List.nodup_append'] at apart
        exact apart.2.2 known (List.mem_map_of_mem List.mem_cons_self)
      have written : (object.set first.1 first.2).entries = object.entries ++ [first] := by
        rw [InsertionMap.set, dif_neg unknown]
      rw [List.foldl_cons, ih, written, List.append_assoc, List.singleton_append]
      rw [written, List.append_assoc, List.singleton_append]
      exact apart
  exact onto InsertionMap.empty distinct

/- Parsing gives what a parsed value is. -/
mutual
theorem ofJson_parsed (json : Json) : (ofJson json).everywhere isParsed = true := by
  match json with
  | .null => rfl
  | .bool b => rfl
  | .number x => rfl
  | .string s => rfl
  | .array items =>
    rw [ofJson, everywhere_array]
    exact ⟨rfl, ofItems_parsed items⟩
  | .object members =>
    have distinct := assigned_distinct (ofMembers members)
    have lists : isParsed (.object (ownOrder (assigned (ofMembers members)))) = true := by
      rw [isParsed, isJson, Bool.and_eq_true]
      exact ⟨decide_eq_true (distinct_perm (ownOrder_perm _) distinct),
        decide_eq_true (ownOrder_inOwnOrder distinct)⟩
    have values : ∀ m ∈ assigned (ofMembers members), m.2.everywhere isParsed = true :=
      assigned_all (fun value => value.everywhere isParsed = true) (ofMembers_parsed members)
    rw [ofJson, everywhere_object]
    exact ⟨lists, fun m member => values m ((ownOrder_perm _).mem_iff.mp member)⟩

theorem ofItems_parsed (items : List Json) :
    ∀ item ∈ ofItems items, item.everywhere isParsed = true := by
  match items with
  | [] => simp [ofItems]
  | item :: items =>
    rw [ofItems, List.forall_mem_cons]
    exact ⟨ofJson_parsed item, ofItems_parsed items⟩

theorem ofMembers_parsed (members : List (JsString × Json)) :
    ∀ m ∈ ofMembers members, m.2.everywhere isParsed = true := by
  match members with
  | [] => simp [ofMembers]
  | (key, json) :: members =>
    rw [ofMembers, List.forall_mem_cons]
    exact ⟨ofJson_parsed json, ofMembers_parsed members⟩
end

end Parsing

section Writing

theorem itemsToJson_of {items : List JsValue} {trees : List Json}
    (written : List.Forall₂ (fun item json => item.toJson = some (some json)) items trees) :
    itemsToJson items = some trees := by
  induction written with
  | nil => rfl
  | cons first _ ih =>
    rw [itemsToJson, first, ih]
    rfl

theorem membersToJson_of {members : List (JsString × JsValue)} {trees : List (JsString × Json)}
    (written : List.Forall₂ (fun m json => m.1 = json.1 ∧ m.2.toJson = some (some json.2))
      members trees) : membersToJson members = some trees := by
  induction written with
  | nil => rfl
  | cons first _ ih =>
    obtain ⟨key, value⟩ := first
    rw [membersToJson, value, ih, key]
    rfl

/-- A value has a tree, and what the tree stands for has the same one and the same type. -/
structure Reparses (value : JsValue) : Prop where
  written : value.toJson = some (some value.tree)
  again : (ofJson value.tree).toJson = some (some value.tree)
  kind : (ofJson value.tree).typeOf = value.typeOf

theorem reparses_of {value : JsValue} {json : Json} (written : value.toJson = some (some json))
    (again : (ofJson json).toJson = some (some json)) (kind : (ofJson json).typeOf = value.typeOf) :
    Reparses value := by
  have tree_eq : value.tree = json := by
    rw [tree, written]
    rfl
  exact ⟨by rw [tree_eq, written], by rw [tree_eq, again], by rw [tree_eq, kind]⟩

theorem primitive_reparses {p : Primitive} (json : isParsed (.primitive p) = true) :
    Reparses (.primitive p) := by
  cases p with
  | undefined => cases json
  | null => exact reparses_of rfl rfl rfl
  | boolean b => exact reparses_of rfl rfl rfl
  | string s => exact reparses_of rfl rfl rfl
  | bigint n => cases json
  | number x =>
    cases x with
    | finite x => exact reparses_of rfl rfl rfl
    | negativeZero => exact reparses_of rfl rfl rfl
    | nan => cases json
    | infinity negative => cases json

theorem array_reparses {items : List JsValue} (all : ∀ item ∈ items, Reparses item) :
    Reparses (.array items) := by
  have written : itemsToJson items = some (items.map tree) := by
    apply itemsToJson_of
    rw [List.forall₂_map_right_iff, List.forall₂_same]
    exact fun item member => (all item member).written
  have again : itemsToJson (ofItems (items.map tree)) = some (items.map tree) := by
    apply itemsToJson_of
    rw [ofItems_map, List.forall₂_map_left_iff, List.forall₂_map_right_iff,
      List.forall₂_map_left_iff, List.forall₂_same]
    exact fun item member => (all item member).again
  apply reparses_of
  · rw [toJson, written]
    rfl
  · rw [ofJson, toJson, again]
    rfl
  · rfl

theorem object_reparses {members : List (JsString × JsValue)} (distinct : DistinctKeys members)
    (ordered : InOwnOrder members) (all : ∀ m ∈ members, Reparses m.2) :
    Reparses (.object members) := by
  let trees := members.map fun m => (m.1, m.2.tree)
  have written : membersToJson members = some trees := by
    apply membersToJson_of
    rw [List.forall₂_map_right_iff, List.forall₂_same]
    exact fun m member => ⟨rfl, (all m member).written⟩
  have read : ofMembers trees = members.map fun m => (m.1, ofJson m.2.tree) := by
    rw [ofMembers_map, List.map_map]
    rfl
  -- Distinct keys in their own order are written into the object one behind the other.
  have made : ownOrder (assigned (ofMembers trees)) = ofMembers trees := by
    have distinct_again : DistinctKeys (ofMembers trees) := by
      rw [read, DistinctKeys, List.map_map]
      exact distinct
    have ordered_again : InOwnOrder (ofMembers trees) := by
      rw [read, InOwnOrder, List.pairwise_map]
      exact ordered
    rw [assigned_self distinct_again, ownOrder_eq_self ordered_again]
  have again : membersToJson (ofMembers trees) = some trees := by
    apply membersToJson_of
    rw [read, List.forall₂_map_left_iff, List.forall₂_map_right_iff, List.forall₂_same]
    exact fun m member => ⟨rfl, (all m member).again⟩
  apply reparses_of
  · rw [toJson, written]
    rfl
  · rw [ofJson, toJson, made, again]
    rfl
  · rfl

/- Every JSON value has a tree that stands for a value with the same tree. -/
theorem reparses {value : JsValue} (parsed : value.everywhere isParsed = true) :
    Reparses value := by
  induction value with
  | primitive p => exact primitive_reparses parsed
  | date d => cases parsed
  | array items ih =>
    rw [everywhere_array] at parsed
    exact array_reparses fun item member => ih item member (parsed.2 item member)
  | object members ih =>
    simp only [everywhere_object, isParsed, isJson, Bool.and_eq_true, decide_eq_true_eq] at parsed
    obtain ⟨⟨distinct, ordered⟩, all⟩ := parsed
    exact object_reparses distinct ordered fun m member => ih m member (all m member)

end Writing
end JsValue

/-- JSON.parse: none where it throws. -/
def parseJson (text : List Char) : Option ParsedJson :=
  (Json.parse text).map fun json => ⟨JsValue.ofJson json, JsValue.ofJson_parsed json⟩

namespace ParsedJson

/- JSON.stringify gives a text, which JSON.parse reads as a value of the same type with the same
   text. -/
theorem stringify_parse_stringify (data : ParsedJson) : ∃ text again,
    data.value.stringify = some (some text) ∧ parseJson text.toList = some again ∧
      again.value.stringify = some (some text) ∧ again.value.typeOf = data.value.typeOf := by
  obtain ⟨written, again, kind⟩ := JsValue.reparses data.parsed
  let text := String.ofList data.value.tree.stringify
  have read : Json.parse text.toList = some data.value.tree := by
    rw [String.toList_ofList, Json.parse_stringify]
  refine ⟨text, ⟨_, JsValue.ofJson_parsed data.value.tree⟩, ?_, ?_, ?_, kind⟩
  · rw [JsValue.stringify, written]
    rfl
  · rw [parseJson, read]
    rfl
  · rw [JsValue.stringify, again]
    rfl

end ParsedJson
end AstraPort
