import AstraPort.Foundation.Json
import AstraPort.Foundation.IsoDate
import AstraPort.Foundation.PropertyOrder

/- Values of ECMAScript that hold no function, symbol or cycle; JSON.stringify on them, and
   equality of values up to the order of keys. -/
namespace AstraPort

inductive JsNumeric where
  | finite (value : JsNumber)
  | negativeZero
  | nan
  | infinity (negative : Bool)
  deriving DecidableEq

/-- Both zeros are equal. -/
def JsNumeric.unsigned : JsNumeric → JsNumeric
  | .negativeZero => .finite .zero
  | x => x

/-- Number::toString. -/
def JsNumeric.text : JsNumeric → List Char
  | .finite x => x.text
  | .negativeZero => ['0']
  | .nan => ['N', 'a', 'N']
  | .infinity negative => (if negative then ['-'] else []) ++ "Infinity".toList

inductive Primitive where
  | undefined
  | null
  | boolean (value : Bool)
  | string (value : JsString)
  | number (value : JsNumeric)
  | bigint (value : Int)
  deriving DecidableEq

namespace Primitive

def unsigned : Primitive → Primitive
  | .number x => .number x.unsigned
  | p => p

def typeOf : Primitive → String
  | .undefined => "undefined"
  | .null => "object"
  | .boolean _ => "boolean"
  | .string _ => "string"
  | .number _ => "number"
  | .bigint _ => "bigint"

end Primitive

/-- An object lists its own properties in order; what has another prototype is a Date. -/
inductive JsValue where
  | primitive (value : Primitive)
  | date (value : Date)
  | array (items : List JsValue)
  | object (members : List (JsString × JsValue))

namespace JsValue

/-- The typeof operator. -/
def typeOf : JsValue → String
  | .primitive p => p.typeOf
  | _ => "object"

def isUndefined : JsValue → Bool
  | .primitive .undefined => true
  | _ => false

def isNullish : JsValue → Bool
  | .primitive .undefined => true
  | .primitive .null => true
  | _ => false

mutual
/-- The tree whose text JSON.stringify gives: no tree for undefined, and none at all where it
    throws, which it does for a bigint. -/
def toJson : JsValue → Option (Option Json)
  | .primitive .undefined => some none
  | .primitive .null => some (some .null)
  | .primitive (.boolean b) => some (some (.bool b))
  | .primitive (.string s) => some (some (.string s))
  | .primitive (.number (.finite x)) => some (some (.number x))
  | .primitive (.number .negativeZero) => some (some (.number .zero))
  | .primitive (.number _) => some (some .null)
  | .primitive (.bigint _) => none
  | .date d => some (some (.string (JsString.ofString d.toISOString)))
  | .array items => (itemsToJson items).map fun items => some (.array items)
  | .object members => (membersToJson members).map fun members => some (.object members)

/-- An element without a tree is written null. -/
def itemsToJson : List JsValue → Option (List Json)
  | [] => some []
  | item :: items =>
    item.toJson.bind fun first =>
      (itemsToJson items).map fun more => first.getD .null :: more

/-- A member without a tree is left out. -/
def membersToJson : List (JsString × JsValue) → Option (List (JsString × Json))
  | [] => some []
  | (key, value) :: members =>
    value.toJson.bind fun first =>
      (membersToJson members).map fun more => (first.map fun json => (key, json)).toList ++ more
end

/-- JSON.stringify, with the outer none where it throws and the inner one for undefined. -/
def stringify (value : JsValue) : Option (Option String) :=
  value.toJson.map fun json => json.map fun json => String.ofList json.stringify

mutual
/-- A test of every value inside, the whole one included. -/
def everywhere (test : JsValue → Bool) : JsValue → Bool
  | .primitive p => test (.primitive p)
  | .date d => test (.date d)
  | .array items => test (.array items) && everywhereItems test items
  | .object members => test (.object members) && everywhereMembers test members

def everywhereItems (test : JsValue → Bool) : List JsValue → Bool
  | [] => true
  | item :: items => item.everywhere test && everywhereItems test items

def everywhereMembers (test : JsValue → Bool) : List (JsString × JsValue) → Bool
  | [] => true
  | (_, value) :: members => value.everywhere test && everywhereMembers test members
end

/-- The keys of an object differ from one another. -/
def keysDiffer : JsValue → Bool
  | .object members => decide (members.map Prod.fst).Nodup
  | _ => true

/-- What JSON.parse can return, at one place of a value. -/
def isJson : JsValue → Bool
  | .primitive .undefined => false
  | .primitive (.bigint _) => false
  | .primitive (.number .nan) => false
  | .primitive (.number (.infinity _)) => false
  | .primitive _ => true
  | .date _ => false
  | .array _ => true
  | .object members => decide (members.map Prod.fst).Nodup

def WellFormed (value : JsValue) : Prop := value.everywhere keysDiffer = true

mutual
/-- Equality up to the order of keys; NaN is equal to itself, and 0 to -0. -/
def Same : JsValue → JsValue → Prop
  | .primitive p, other => ∃ q, other = .primitive q ∧ p.unsigned = q.unsigned
  | .date d, other => other = .date d
  | .array items, other => ∃ others, other = .array others ∧ SameItems items others
  | .object members, other => ∃ others, other = .object others ∧
      (∀ key, key ∈ members.map Prod.fst ↔ key ∈ others.map Prod.fst) ∧
      SameMembers members others

def SameItems : List JsValue → List JsValue → Prop
  | [], others => others = []
  | item :: items, others => ∃ other rest, others = other :: rest ∧ Same item other ∧
      SameItems items rest

def SameMembers : List (JsString × JsValue) → List (JsString × JsValue) → Prop
  | [], _ => True
  | (key, value) :: members, others =>
    (∀ other, (key, other) ∈ others → Same value other) ∧ SameMembers members others
end

/- Induction with a hypothesis for every item and every member. -/
@[induction_eliminator]
theorem induct {motive : JsValue → Prop} (primitive : ∀ p, motive (.primitive p))
    (date : ∀ d, motive (.date d))
    (array : ∀ items, (∀ item ∈ items, motive item) → motive (.array items))
    (object : ∀ members, (∀ m ∈ members, motive m.2) → motive (.object members))
    (value : JsValue) : motive value :=
  @JsValue.rec motive (fun items => ∀ item ∈ items, motive item)
    (fun members => ∀ m ∈ members, motive m.2) (fun m => motive m.2) primitive date array object
    (by simp) (fun _ _ first more => List.forall_mem_cons.mpr ⟨first, more⟩)
    (by simp) (fun _ _ first more => List.forall_mem_cons.mpr ⟨first, more⟩)
    (fun _ _ second => second) value

/- Two lists are related item by item under relations that agree on their items. -/
theorem forall₂_iff {A B : Type} {R S : A → B → Prop} {as : List A} {bs : List B}
    (agree : ∀ a ∈ as, ∀ b ∈ bs, R a b ↔ S a b) : List.Forall₂ R as bs ↔ List.Forall₂ S as bs := by
  induction as generalizing bs with
  | nil => simp
  | cons a as ih =>
    cases bs with
    | nil => simp
    | cons b bs =>
      rw [List.forall₂_cons, List.forall₂_cons,
        agree a List.mem_cons_self b List.mem_cons_self, ih]
      intro a' first b' second
      exact agree a' (List.mem_cons_of_mem a first) b' (List.mem_cons_of_mem b second)

section Structure
variable {test : JsValue → Bool}

theorem everywhere_items {items : List JsValue} :
    everywhereItems test items = true ↔ ∀ item ∈ items, item.everywhere test = true := by
  induction items with
  | nil => simp [everywhereItems]
  | cons item items ih => simp [everywhereItems, ih]

theorem everywhere_members {members : List (JsString × JsValue)} :
    everywhereMembers test members = true ↔ ∀ m ∈ members, m.2.everywhere test = true := by
  induction members with
  | nil => simp [everywhereMembers]
  | cons m members ih => simp [everywhereMembers, ih]

@[simp] theorem everywhere_array {items : List JsValue} :
    (array items).everywhere test = true ↔
      test (.array items) = true ∧ ∀ item ∈ items, item.everywhere test = true := by
  rw [everywhere, Bool.and_eq_true, everywhere_items]

@[simp] theorem everywhere_object {members : List (JsString × JsValue)} :
    (object members).everywhere test = true ↔
      test (.object members) = true ∧ ∀ m ∈ members, m.2.everywhere test = true := by
  rw [everywhere, Bool.and_eq_true, everywhere_members]

theorem isUndefined_eq {value : JsValue} (undef : value.isUndefined = true) :
    value = .primitive .undefined := by
  unfold isUndefined at undef
  split at undef
  · rfl
  · cases undef

theorem everywhere_mono {test test' : JsValue → Bool}
    (weaker : ∀ v, test v = true → test' v = true) {value : JsValue}
    (all : value.everywhere test = true) : value.everywhere test' = true := by
  induction value with
  | primitive p => exact weaker _ all
  | date d => exact weaker _ all
  | array items ih =>
    rw [everywhere_array] at all ⊢
    exact ⟨weaker _ all.1, fun item member => ih item member (all.2 item member)⟩
  | object members ih =>
    rw [everywhere_object] at all ⊢
    exact ⟨weaker _ all.1, fun m member => ih m member (all.2 m member)⟩

theorem wellFormed_array {items : List JsValue} :
    (array items).WellFormed ↔ ∀ item ∈ items, item.WellFormed := by
  simp [WellFormed, keysDiffer]

theorem wellFormed_object {members : List (JsString × JsValue)} :
    (object members).WellFormed ↔ DistinctKeys members ∧ ∀ m ∈ members, m.2.WellFormed := by
  simp [WellFormed, keysDiffer, DistinctKeys]

theorem sameItems_iff {items others : List JsValue} :
    SameItems items others ↔ List.Forall₂ Same items others := by
  induction items generalizing others with
  | nil => simp [SameItems]
  | cons item items ih => cases others <;> simp [SameItems, ih]

theorem sameMembers_iff {members others : List (JsString × JsValue)} :
    SameMembers members others ↔
      ∀ m ∈ members, ∀ other, (m.1, other) ∈ others → Same m.2 other := by
  induction members with
  | nil => simp [SameMembers]
  | cons m members ih => simp [SameMembers, ih]

theorem same_array {items others : List JsValue} :
    Same (.array items) (.array others) ↔ List.Forall₂ Same items others := by
  simp [Same, sameItems_iff]

theorem same_object {members others : List (JsString × JsValue)} :
    Same (.object members) (.object others) ↔
      (∀ key, key ∈ members.map Prod.fst ↔ key ∈ others.map Prod.fst) ∧
      ∀ m ∈ members, ∀ other, (m.1, other) ∈ others → Same m.2 other := by
  simp [Same, sameMembers_iff]

end Structure

section Trees

theorem itemsToJson_isSome {items : List JsValue} :
    (itemsToJson items).isSome = true ↔ ∀ item ∈ items, item.toJson.isSome = true := by
  induction items with
  | nil => simp [itemsToJson]
  | cons item items ih =>
    rw [itemsToJson, List.forall_mem_cons, ← ih]
    cases item.toJson <;> simp

theorem membersToJson_isSome {members : List (JsString × JsValue)} :
    (membersToJson members).isSome = true ↔ ∀ m ∈ members, m.2.toJson.isSome = true := by
  induction members with
  | nil => simp [membersToJson]
  | cons m members ih =>
    rw [membersToJson, List.forall_mem_cons, ← ih]
    cases m.2.toJson <;> simp

theorem itemsToJson_map {items : List JsValue} (tree : JsValue → Option Json)
    (trees : ∀ item ∈ items, item.toJson = some (tree item)) :
    itemsToJson items = some (items.map fun item => (tree item).getD .null) := by
  induction items with
  | nil => rfl
  | cons item items ih =>
    obtain ⟨first, more⟩ := List.forall_mem_cons.mp trees
    rw [itemsToJson, first, ih more]
    rfl

theorem membersToJson_filterMap {members : List (JsString × JsValue)}
    (tree : JsValue → Option Json) (trees : ∀ m ∈ members, m.2.toJson = some (tree m.2)) :
    membersToJson members =
      some (members.filterMap fun m => (tree m.2).map fun json => (m.1, json)) := by
  induction members with
  | nil => rfl
  | cons m members ih =>
    obtain ⟨first, more⟩ := List.forall_mem_cons.mp trees
    rw [membersToJson, first, ih more]
    cases shown : tree m.2 <;> simp [shown]

end Trees
end JsValue
end AstraPort
