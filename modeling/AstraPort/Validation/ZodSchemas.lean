import AstraPort.Foundation.InsertionMap
import AstraPort.Foundation.JsText
import AstraPort.Foundation.Magnitudes

/- Zod's schemas, as far as they are documented, and what Zod makes of a value under one: the
   parsed value, or nothing where it is rejected. -/
namespace AstraPort.Validation

inductive StringCheck where
  | min (value : JsNumeric)
  | max (value : JsNumeric)
  | regex (source : JsString)
  | email
  | url
  | uuid
  | datetime
  | other (kind : JsString)

inductive NumberCheck where
  | min (value : JsNumeric)
  | max (value : JsNumeric)
  | int
  | other (kind : JsString)

inductive EnumValue where
  | text (value : JsString)
  | number (value : JsNumeric)

def EnumValue.primitive : EnumValue → Primitive
  | .text value => .string value
  | .number value => .number value

/-- A shape lists its keys in order, a native enum what Object.entries gives of it. -/
inductive ZodSchema where
  | optional (innerType : ZodSchema)
  | nullable (innerType : ZodSchema)
  | default (defaultValue : JsValue) (innerType : ZodSchema)
  | effects (description : Option JsString) (refine : JsValue → Bool) (schema : ZodSchema)
  | string (description : Option JsString) (checks : List StringCheck)
  | number (description : Option JsString) (checks : List NumberCheck)
  | boolean (description : Option JsString)
  | date (description : Option JsString)
  | enum (description : Option JsString) (values : List JsString)
  | nativeEnum (description : Option JsString) (values : List (JsString × EnumValue))
  | literal (description : Option JsString) (value : Primitive)
  | array (description : Option JsString) (minLength maxLength : Option JsNumeric)
      (type : ZodSchema)
  | object (description : Option JsString) (shape : List (JsString × ZodSchema))
  | record (description : Option JsString) (valueType : ZodSchema)
  | union (description : Option JsString) (options : List ZodSchema)

namespace ZodSchema

/-- The checks of strings and numbers; those of strings may change what they pass. -/
structure Checks where
  string : List StringCheck → JsString → Option JsString
  number : List NumberCheck → JsNumeric → Bool

def undefined : JsValue := .primitive .undefined

def null : JsValue := .primitive .null

/-- The property of a value, which is undefined where there is none. -/
def property (members : List (JsString × JsValue)) (key : JsString) : JsValue :=
  (members.lookup key).getD undefined

/-- The operator === on primitive values. -/
def strictlyEqual (p q : Primitive) : Bool := p.unsigned = q.unsigned && p ≠ .number .nan

/-- The values of a native enum, without those that lead from a number back to its name. -/
def validEnumValues (values : List (JsString × EnumValue)) : List Primitive :=
  let named (value : EnumValue) : JsString :=
    match value with
    | .text text => text
    | .number x => printed x
  (values.filter fun e =>
    match values.lookup (named e.2) with
    | some (.number _) => false
    | _ => true).map fun e => e.2.primitive

def withinLength (minLength maxLength : Option JsNumeric) (items : List JsValue) : Bool :=
  let length : Magnitude := .finite items.length
  minLength.all (fun least => !length.less least.magnitude) &&
    maxLength.all fun most => !most.magnitude.less length

mutual

def parse (checks : Checks) : ZodSchema → JsValue → Option JsValue
  | optional innerType, data => if data.isUndefined then some data else parse checks innerType data
  | nullable innerType, data =>
    match data with
    | .primitive .null => some null
    | _ => parse checks innerType data
  | default defaultValue innerType, data =>
    parse checks innerType (if data.isUndefined then defaultValue else data)
  | effects _ refine schema, data => (parse checks schema data).filter refine
  | string _ stringChecks, data =>
    match data with
    | .primitive (.string text) =>
      (checks.string stringChecks text).map fun text => .primitive (.string text)
    | _ => none
  | number _ numberChecks, data =>
    match data with
    | .primitive (.number x) =>
      if x ≠ .nan ∧ checks.number numberChecks x then some data else none
    | _ => none
  | boolean _, data =>
    match data with
    | .primitive (.boolean _) => some data
    | _ => none
  | date _, data =>
    match data with
    | .date _ => some data
    | _ => none
  | enum _ values, data =>
    match data with
    | .primitive (.string text) => if text ∈ values then some data else none
    | _ => none
  | nativeEnum _ values, data =>
    match data with
    | .primitive p => if (validEnumValues values).any (strictlyEqual p) then some data else none
    | _ => none
  | literal _ value, data =>
    match data with
    | .primitive p => if strictlyEqual p value then some data else none
    | _ => none
  | array _ minLength maxLength type, data =>
    match data with
    | .array items =>
      if withinLength minLength maxLength items then
        (items.mapM (parse checks type)).map .array
      else none
    | _ => none
  | object _ shape, data =>
    match data with
    | .object members => (parseShape checks members shape).map .object
    | _ => none
  | record _ valueType, data =>
    match data with
    | .object members =>
      (members.mapM fun m => (parse checks valueType m.2).map fun value => (m.1, value)).map .object
    | _ => none
  | union _ options, data => parseFirst checks data options

/-- Every property is parsed; one that is absent and comes out undefined stays absent. -/
def parseShape (checks : Checks) (members : List (JsString × JsValue)) :
    List (JsString × ZodSchema) → Option (List (JsString × JsValue))
  | [] => some []
  | (key, schema) :: shape =>
    (parse checks schema (property members key)).bind fun value =>
      (parseShape checks members shape).map fun parsed =>
        if (members.lookup key).isNone && value.isUndefined then parsed
        else (key, value) :: parsed

/-- The first of the options that accepts the value. -/
def parseFirst (checks : Checks) (data : JsValue) : List ZodSchema → Option JsValue
  | [] => none
  | option :: options => (parse checks option data).or (parseFirst checks data options)

end

section Parsing
variable {checks : Checks} {members : List (JsString × JsValue)} {shape : List (JsString × ZodSchema)}

/-- An object may be without a property whose schema accepts undefined. -/
def acceptsUndefined (checks : Checks) (schema : ZodSchema) : Bool :=
  (parse checks schema undefined).isSome

/-- The key is absent, and the other properties are valid. -/
def OnlyLacks (checks : Checks) (shape : List (JsString × ZodSchema)) (key : JsString)
    (members : List (JsString × JsValue)) : Prop :=
  members.lookup key = none ∧
    ∀ e ∈ shape, e.1 ≠ key → (parse checks e.2 (property members e.1)).isSome = true

theorem parseShape_isSome : (parseShape checks members shape).isSome = true ↔
    ∀ e ∈ shape, (parse checks e.2 (property members e.1)).isSome = true := by
  induction shape with
  | nil => simp [parseShape]
  | cons e shape ih =>
    obtain ⟨key, schema⟩ := e
    rw [parseShape, List.forall_mem_cons, ← ih]
    cases parse checks schema (property members key) with
    | none => simp
    | some value => simp

/- An object that lacks one key only is rejected exactly where the schema of the key rejects
   undefined. -/
theorem object_rejected_iff {description : Option JsString} (distinct : DistinctKeys shape)
    {key : JsString} {schema : ZodSchema} (member : (key, schema) ∈ shape)
    (lacks : OnlyLacks checks shape key members) :
    parse checks (object description shape) (.object members) = none ↔
      acceptsUndefined checks schema = false := by
  obtain ⟨absent, others⟩ := lacks
  have missing : property members key = undefined := by rw [property, absent]; rfl
  have accepted : (parseShape checks members shape).isSome = true ↔
      acceptsUndefined checks schema = true := by
    rw [parseShape_isSome, acceptsUndefined, ← missing]
    constructor
    · intro all
      exact all (key, schema) member
    · rintro own ⟨key', schema'⟩ member'
      by_cases same : key' = key
      · subst same
        have first := (InsertionMap.lookup_mem distinct).mpr member
        have second := (InsertionMap.lookup_mem distinct).mpr member'
        cases first.symm.trans second
        exact own
      · exact others _ member' same
  rw [parse, Option.map_eq_none_iff, ← Option.not_isSome_iff_eq_none, accepted,
    Bool.not_eq_true]

end Parsing
section Absence
variable (checks : Checks) (description : Option JsString)

@[simp] theorem optional_accepts (innerType : ZodSchema) :
    acceptsUndefined checks (optional innerType) = true := rfl

@[simp] theorem nullable_accepts (innerType : ZodSchema) :
    acceptsUndefined checks (nullable innerType) = acceptsUndefined checks innerType := rfl

@[simp] theorem default_accepts (defaultValue : JsValue) (innerType : ZodSchema) :
    acceptsUndefined checks (default defaultValue innerType) =
      (parse checks innerType defaultValue).isSome := rfl

@[simp] theorem effects_accepts (refine : JsValue → Bool) (schema : ZodSchema) :
    acceptsUndefined checks (effects description refine schema) =
      (parse checks schema undefined).any refine := by
  rw [acceptsUndefined, parse, Option.isSome_filter]

@[simp] theorem union_accepts (options : List ZodSchema) :
    acceptsUndefined checks (union description options) =
      options.any (acceptsUndefined checks) := by
  rw [acceptsUndefined, parse]
  induction options with
  | nil => rfl
  | cons option options ih => rw [parseFirst, Option.isSome_or, ih, List.any_cons, acceptsUndefined]

@[simp] theorem literal_accepts (value : Primitive) :
    acceptsUndefined checks (literal description value) = decide (value = .undefined) := by
  cases value with
  | undefined => rfl
  | _ => rfl

@[simp] theorem nativeEnum_rejects (values : List (JsString × EnumValue)) :
    acceptsUndefined checks (nativeEnum description values) = false := by
  have none : (validEnumValues values).any (strictlyEqual .undefined) = false := by
    rw [List.any_eq_false]
    intro p member
    obtain ⟨⟨key, value⟩, -, rfl⟩ := List.mem_map.mp member
    cases value with
    | text _ => simp [strictlyEqual, EnumValue.primitive, Primitive.unsigned]
    | number _ => simp [strictlyEqual, EnumValue.primitive, Primitive.unsigned]
  simp [acceptsUndefined, parse, undefined, none]

end Absence
end ZodSchema
end AstraPort.Validation
