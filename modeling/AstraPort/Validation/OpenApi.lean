import AstraPort.Validation.ZodSchemas

/- zodToOpenApiSchema, and whether the properties it calls required are those Zod requires. -/
namespace AstraPort.Validation

structure OpenApiSchemaObject where
  type : Option String := none
  format : Option String := none
  description : Option JsString := none
  default : Option JsValue := none
  nullable : Bool := false
  enum : Option (List Primitive) := none
  properties : Option (List (JsString × OpenApiSchemaObject)) := none
  required : Option (List JsString) := none
  items : Option OpenApiSchemaObject := none
  oneOf : Option (List OpenApiSchemaObject) := none
  additionalProperties : Option OpenApiSchemaObject := none
  minimum : Option JsNumeric := none
  maximum : Option JsNumeric := none
  minLength : Option JsNumeric := none
  maxLength : Option JsNumeric := none
  minItems : Option JsNumeric := none
  maxItems : Option JsNumeric := none
  pattern : Option JsString := none

namespace OpenApiSchemaObject

/-- A description that is not empty is written over the one there. -/
def described (description : Option JsString) (res : OpenApiSchemaObject) : OpenApiSchemaObject :=
  match description with
  | none => res
  | some text => if text = [] then res else { res with description := some text }

def applyStringCheck (res : OpenApiSchemaObject) : StringCheck → OpenApiSchemaObject
  | .min value => { res with minLength := some value }
  | .max value => { res with maxLength := some value }
  | .regex source => { res with pattern := some source }
  | .email => { res with format := some "email" }
  | .url => { res with format := some "uri" }
  | .uuid => { res with format := some "uuid" }
  | .datetime => { res with format := some "date-time" }
  | .other _ => res

def applyNumberCheck (res : OpenApiSchemaObject) : NumberCheck → OpenApiSchemaObject
  | .min value => { res with minimum := some value }
  | .max value => { res with maximum := some value }
  | .int => { res with type := some "integer" }
  | .other _ => res

end OpenApiSchemaObject

section Conversion
open OpenApiSchemaObject

/-- schema instanceof ZodOptional || schema instanceof ZodDefault -/
def isOptionalOrDefault : ZodSchema → Bool
  | .optional _ => true
  | .default _ _ => true
  | _ => false

def requiredKeys (shape : List (JsString × ZodSchema)) : List JsString :=
  (shape.filter fun e => !isOptionalOrDefault e.2).map Prod.fst

mutual

def zodToOpenApiSchema : ZodSchema → OpenApiSchemaObject
  | .optional innerType => zodToOpenApiSchema innerType
  | .nullable innerType => { zodToOpenApiSchema innerType with nullable := true }
  | .default defaultValue innerType =>
    { zodToOpenApiSchema innerType with default := some defaultValue }
  | .effects description _ schema => described description (zodToOpenApiSchema schema)
  | .string description checks =>
    checks.foldl applyStringCheck (described description { type := some "string" })
  | .number description checks =>
    checks.foldl applyNumberCheck (described description { type := some "number" })
  | .boolean description => described description { type := some "boolean" }
  | .date description =>
    described description { type := some "string", format := some "date-time" }
  | .enum description values =>
    described description { type := some "string", enum := some (values.map .string) }
  | .nativeEnum description values =>
    let ofNumber := match values with
      | (_, .number _) :: _ => true
      | _ => false
    described description
      { type := some (if ofNumber then "number" else "string"),
        enum := some (values.map fun e => e.2.primitive) }
  | .literal description value =>
    described description { type := some value.typeOf, enum := some [value] }
  | .array description minLength maxLength type =>
    { described description { type := some "array", items := some (zodToOpenApiSchema type) } with
      minItems := minLength, maxItems := maxLength }
  | .object description shape =>
    let required := requiredKeys shape
    described description
      { type := some "object", properties := some (convertProperties shape),
        required := if required = [] then none else some required }
  | .record description valueType =>
    described description
      { type := some "object", additionalProperties := some (zodToOpenApiSchema valueType) }
  | .union description options => described description { oneOf := some (convertOptions options) }

def convertProperties : List (JsString × ZodSchema) → List (JsString × OpenApiSchemaObject)
  | [] => []
  | (key, propSchema) :: shape =>
    (key, zodToOpenApiSchema propSchema) :: convertProperties shape

def convertOptions : List ZodSchema → List OpenApiSchemaObject
  | [] => []
  | option :: options => zodToOpenApiSchema option :: convertOptions options

end

end Conversion

/-- A step from a schema, or from what it is converted to, into a part of it. -/
inductive SchemaStep where
  | property (key : JsString)
  | items
  | values
  | option (index : Nat)

namespace ZodSchema

/-- The schema inside optional, nullable, default and effects. -/
def unwrapped : ZodSchema → ZodSchema
  | optional innerType => unwrapped innerType
  | nullable innerType => unwrapped innerType
  | default _ innerType => unwrapped innerType
  | effects _ _ schema => unwrapped schema
  | schema => schema

def part : ZodSchema → SchemaStep → Option ZodSchema
  | object _ shape, .property key => shape.lookup key
  | array _ _ _ type, .items => some type
  | record _ valueType, .values => some valueType
  | union _ options, .option index => options[index]?
  | _, _ => none

/-- What stands at the end of a path, without its wrappers. -/
def reach : ZodSchema → List SchemaStep → Option ZodSchema
  | schema, [] => some schema.unwrapped
  | schema, step :: path => (schema.unwrapped.part step).bind fun inner => inner.reach path

end ZodSchema

namespace OpenApiSchemaObject

def part (res : OpenApiSchemaObject) : SchemaStep → Option OpenApiSchemaObject
  | .property key => res.properties.bind fun properties => properties.lookup key
  | .items => res.items
  | .values => res.additionalProperties
  | .option index => res.oneOf.bind fun options => options[index]?

def reach : OpenApiSchemaObject → List SchemaStep → Option OpenApiSchemaObject
  | res, [] => some res
  | res, step :: path => (res.part step).bind fun inner => inner.reach path

/-- Two objects with the same parts and the same required keys. -/
def Agree (a b : OpenApiSchemaObject) : Prop := a.part = b.part ∧ a.required = b.required

end OpenApiSchemaObject

section Places
open OpenApiSchemaObject
variable {schema inner : ZodSchema} {res : OpenApiSchemaObject}

theorem described_agrees (description : Option JsString) (res : OpenApiSchemaObject) :
    Agree (described description res) res := by
  cases description with
  | none => exact ⟨rfl, rfl⟩
  | some text =>
    rw [described]
    split
    · exact ⟨rfl, rfl⟩
    · exact ⟨rfl, rfl⟩

/- Wrappers change neither the parts nor what is required. -/
theorem unwrapped_agrees (schema : ZodSchema) :
    Agree (zodToOpenApiSchema schema) (zodToOpenApiSchema schema.unwrapped) := by
  induction schema using ZodSchema.unwrapped.induct with
  | case1 innerType ih => exact ih
  | case2 innerType ih => exact ih
  | case3 _ innerType ih => exact ih
  | case4 description _ schema ih =>
    have same := described_agrees description (zodToOpenApiSchema schema)
    exact ⟨same.1.trans ih.1, same.2.trans ih.2⟩
  | case5 schema noOptional noNullable noDefault noEffects =>
    rw [ZodSchema.unwrapped.eq_5 schema noOptional noNullable noDefault noEffects]
    exact ⟨rfl, rfl⟩

theorem lookup_converted (shape : List (JsString × ZodSchema)) (key : JsString) :
    (convertProperties shape).lookup key = (shape.lookup key).map zodToOpenApiSchema := by
  induction shape with
  | nil => rfl
  | cons e shape ih =>
    obtain ⟨key', schema⟩ := e
    rw [convertProperties, List.lookup_cons, List.lookup_cons]
    cases key == key' with
    | false => exact ih
    | true => rfl

theorem option_converted (options : List ZodSchema) (index : Nat) :
    (convertOptions options)[index]? = options[index]?.map zodToOpenApiSchema := by
  induction options generalizing index with
  | nil => rfl
  | cons option options ih =>
    cases index with
    | zero => rfl
    | succ index => exact ih index

/- One step: a part of a schema is converted to the part of what the schema is converted to. -/
theorem part_converted {step : SchemaStep} (found : schema.part step = some inner) :
    (zodToOpenApiSchema schema).part step = some (zodToOpenApiSchema inner) := by
  cases schema with
  | object description shape =>
    rw [zodToOpenApiSchema, (described_agrees description _).1]
    cases step with
    | property key =>
      have same : shape.lookup key = some inner := found
      simp [OpenApiSchemaObject.part, lookup_converted, same]
    | _ => cases found
  | array description minLength maxLength type =>
    cases step with
    | items =>
      cases found
      rw [zodToOpenApiSchema]
      exact congrFun (described_agrees description _).1 .items
    | _ => cases found
  | record description valueType =>
    rw [zodToOpenApiSchema, (described_agrees description _).1]
    cases step with
    | values =>
      cases found
      rfl
    | _ => cases found
  | union description options =>
    rw [zodToOpenApiSchema, (described_agrees description _).1]
    cases step with
    | option index =>
      have same : options[index]? = some inner := found
      simp [OpenApiSchemaObject.part, option_converted, same]
    | _ => cases found
  | _ => cases found

/- A whole path. -/
theorem reach_converted {path : List SchemaStep} (found : schema.reach path = some inner) :
    ∃ res, (zodToOpenApiSchema schema).reach path = some res ∧
      Agree res (zodToOpenApiSchema inner) := by
  induction path generalizing schema with
  | nil =>
    cases found
    exact ⟨_, rfl, unwrapped_agrees schema⟩
  | cons step path ih =>
    obtain ⟨next, stepped, onward⟩ := Option.bind_eq_some_iff.mp found
    obtain ⟨res, reached, agree⟩ := ih onward
    refine ⟨res, ?_, agree⟩
    rw [OpenApiSchemaObject.reach, (unwrapped_agrees schema).1, part_converted stepped]
    exact reached

end Places

/-- A key is called required exactly where its schema does not accept undefined, which is where
    Zod rejects the objects that lack this key only. -/
def RequiredHere (checks : ZodSchema.Checks) (description : Option JsString)
    (shape : List (JsString × ZodSchema)) (res : OpenApiSchemaObject) (key : JsString)
    (propSchema : ZodSchema) : Prop :=
  (key ∈ res.required.getD [] ↔ propSchema.acceptsUndefined checks = false) ∧
    ∀ members, ZodSchema.OnlyLacks checks shape key members →
      (key ∈ res.required.getD [] ↔
        ZodSchema.parse checks (.object description shape) (.object members) = none)

/-- This holds of every key of every object that a schema describes, at any depth. -/
def RequiredAsZod (checks : ZodSchema.Checks) (schema : ZodSchema) : Prop :=
  ∀ path description shape, schema.reach path = some (.object description shape) →
    ∃ res, (zodToOpenApiSchema schema).reach path = some res ∧
      ∀ key propSchema, (key, propSchema) ∈ shape →
        RequiredHere checks description shape res key propSchema

/-- The outermost layer of a schema tells whether it accepts undefined: no other wrapper than
    optional and default lets undefined through, no literal is undefined, and a default is one
    that the schema inside accepts. -/
def OutermostTells (checks : ZodSchema.Checks) : ZodSchema → Prop
  | .default defaultValue innerType => (innerType.parse checks defaultValue).isSome = true
  | .nullable innerType => innerType.acceptsUndefined checks = false
  | .effects _ refine schema =>
    ∀ value, schema.parse checks ZodSchema.undefined = some value → refine value = false
  | .union _ options => ∀ option ∈ options, option.acceptsUndefined checks = false
  | .literal _ value => value ≠ .undefined
  | _ => True

def DistinctEverywhere (schema : ZodSchema) : Prop :=
  ∀ path description shape, schema.reach path = some (.object description shape) →
    DistinctKeys shape

section Required
open ZodSchema
variable {checks : Checks} {schema : ZodSchema} {shape : List (JsString × ZodSchema)}

theorem outermostTells_iff (propSchema : ZodSchema) : OutermostTells checks propSchema ↔
    (isOptionalOrDefault propSchema = false ↔ propSchema.acceptsUndefined checks = false) := by
  cases propSchema with
  | optional innerType => simp [OutermostTells, isOptionalOrDefault]
  | nullable innerType => simp [OutermostTells, isOptionalOrDefault]
  | default defaultValue innerType =>
    simp [OutermostTells, isOptionalOrDefault, Option.isSome_iff_ne_none]
  | effects description refine schema =>
    simp [OutermostTells, isOptionalOrDefault, Option.any_eq_false]
  | union description options => simp [OutermostTells, isOptionalOrDefault]
  | literal description value => simp [OutermostTells, isOptionalOrDefault]
  | nativeEnum description values => simp [OutermostTells, isOptionalOrDefault]
  | _ => exact iff_of_true trivial (iff_of_true rfl rfl)

theorem mem_requiredKeys (distinct : DistinctKeys shape) {key : JsString} {propSchema : ZodSchema}
    (member : (key, propSchema) ∈ shape) :
    key ∈ requiredKeys shape ↔ isOptionalOrDefault propSchema = false := by
  unfold requiredKeys
  constructor
  · intro required
    obtain ⟨⟨key', other⟩, kept, same⟩ := List.mem_map.mp required
    obtain ⟨member', outermost⟩ := List.mem_filter.mp kept
    cases same
    have first := (InsertionMap.lookup_mem distinct).mpr member
    have second := (InsertionMap.lookup_mem distinct).mpr member'
    cases first.symm.trans second
    simpa using outermost
  · intro outermost
    exact List.mem_map.mpr ⟨(key, propSchema), List.mem_filter.mpr ⟨member, by simp [outermost]⟩, rfl⟩

theorem required_converted (description : Option JsString) :
    (zodToOpenApiSchema (.object description shape)).required.getD [] = requiredKeys shape := by
  rw [zodToOpenApiSchema, (described_agrees description _).2]
  dsimp only
  split
  · rename_i none
    exact none.symm
  · rfl

end Required

/-- Checks that every string and number passes. -/
def noChecks : ZodSchema.Checks := ⟨fun _ text => some text, fun _ _ => true⟩

def optionalNotes : List (JsString × ZodSchema) :=
  [(.ofString "notes", .optional (.string none []))]

end AstraPort.Validation
