import AstraPort.Foundation.Bytes
import AstraPort.Foundation.Folding
import AstraPort.Validation.OpenApi

/- What a document says of a JSON value by a converted schema, against what Zod makes of it. A
   document counts the characters of a text, among which a pair of surrogates is one, and Zod
   counts its code units. -/
namespace AstraPort.Validation

/-- What patterns and formats mean, to both sides. -/
structure Vocabulary where
  matchesPattern : JsString → JsString → Bool
  hasFormat : String → JsString → Bool

def isInteger : JsNumeric → Bool
  | .finite x => x.value.isInt
  | .negativeZero => true
  | _ => false

/-- The types of a document; no value has another. -/
def hasType (name : String) : JsValue → Bool
  | .primitive (.string _) => name = "string"
  | .primitive (.number x) => name = "number" || name = "integer" && isInteger x
  | .primitive (.boolean _) => name = "boolean"
  | .array _ => name = "array"
  | .object _ => name = "object"
  | _ => false

def withinBounds (least most : Option JsNumeric) (m : Magnitude) : Bool :=
  least.all (fun least => !m.less least.magnitude) && most.all fun most => !most.magnitude.less m

namespace OpenApiSchemaObject

/-- A keyword says something of the values of its own type only. -/
structure KeywordsAdmit (v : Vocabulary) (res : OpenApiSchemaObject) (value : JsValue) :
    Prop where
  type : ∀ name ∈ res.type, hasType name value = true ∨ res.nullable = true ∧ value = ZodSchema.null
  enum : ∀ listed ∈ res.enum,
    ∃ p, value = .primitive p ∧ listed.any (ZodSchema.strictlyEqual p) = true
  text : ∀ text, value = .primitive (.string text) →
    withinBounds res.minLength res.maxLength (.finite (characters text).length) = true ∧
      (∀ source ∈ res.pattern, v.matchesPattern source text = true) ∧
      ∀ name ∈ res.format, v.hasFormat name text = true
  number : ∀ x, value = .primitive (.number x) →
    withinBounds res.minimum res.maximum x.magnitude = true
  length : ∀ items, value = .array items →
    withinBounds res.minItems res.maxItems (.finite items.length) = true
  required : ∀ members, value = .object members →
    ∀ key ∈ res.required.getD [], key ∈ members.map Prod.fst

theorem sizeOf_items {res inner : OpenApiSchemaObject} (inside : inner ∈ res.items) :
    sizeOf inner < sizeOf res := by
  cases res
  cases inside
  simp +arith

theorem sizeOf_additional {res inner : OpenApiSchemaObject}
    (inside : inner ∈ res.additionalProperties) : sizeOf inner < sizeOf res := by
  cases res
  cases inside
  simp +arith

theorem sizeOf_property {res : OpenApiSchemaObject} {e : JsString × OpenApiSchemaObject}
    (inside : e ∈ res.properties.getD []) : sizeOf e.2 < sizeOf res := by
  obtain ⟨_, _, _, _, _, _, properties, _⟩ := res
  cases properties with
  | none => cases inside
  | some properties =>
    have size : sizeOf e < sizeOf properties := List.sizeOf_lt_of_mem inside
    obtain ⟨key, inner⟩ := e
    simp only [Prod.mk.sizeOf_spec] at size
    simp only [mk.sizeOf_spec, Option.some.sizeOf_spec]
    omega

theorem sizeOf_option {res inner : OpenApiSchemaObject} {options : List OpenApiSchemaObject}
    (divided : options ∈ res.oneOf) (inside : inner ∈ options) : sizeOf inner < sizeOf res := by
  have size := List.sizeOf_lt_of_mem inside
  cases res
  cases divided
  simp +arith only [mk.sizeOf_spec, Option.some.sizeOf_spec]
  omega

/-- What a document allows: the keywords, the parts of arrays and objects, and of several options
    one and no more. -/
def Admits (v : Vocabulary) (res : OpenApiSchemaObject) (value : JsValue) : Prop :=
  KeywordsAdmit v res value ∧
    (∀ items, value = .array items → ∀ inner, (_ : inner ∈ res.items) → ∀ item ∈ items,
      Admits v inner item) ∧
    (∀ members, value = .object members →
      (∀ e, (_ : e ∈ res.properties.getD []) → ∀ m ∈ members, m.1 = e.1 → Admits v e.2 m.2) ∧
      ∀ inner, (_ : inner ∈ res.additionalProperties) → ∀ m ∈ members,
        m.1 ∉ (res.properties.getD []).map Prod.fst → Admits v inner m.2) ∧
    ∀ options, (_ : options ∈ res.oneOf) → ∃ i, ∃ _ : i < options.length,
      Admits v options[i] value ∧
        ∀ j, ∀ _ : j < options.length, j ≠ i → ¬ Admits v options[j] value
termination_by sizeOf res
decreasing_by
  · exact sizeOf_items (by assumption)
  · exact sizeOf_property (by assumption)
  · exact sizeOf_additional (by assumption)
  · exact sizeOf_option (by assumption) (List.getElem_mem _)
  · exact sizeOf_option (by assumption) (List.getElem_mem _)

section Keywords
variable {v : Vocabulary} {res : OpenApiSchemaObject} {value : JsValue}

/- A description and a default say nothing of a value. -/
theorem keywords_remarks (description : Option JsString) (default : Option JsValue) :
    KeywordsAdmit v { res with description := description, default := default } value ↔
      KeywordsAdmit v res value := by
  constructor
  · intro own
    exact ⟨own.type, own.enum, own.text, own.number, own.length, own.required⟩
  · intro own
    exact ⟨own.type, own.enum, own.text, own.number, own.length, own.required⟩

theorem admits_remarks (description : Option JsString) (default : Option JsValue) :
    Admits v { res with description := description, default := default } value ↔
      Admits v res value := by
  rw [Admits, Admits, keywords_remarks]

theorem described_cases (description : Option JsString) (res : OpenApiSchemaObject) :
    described description res = res ∨
      ∃ text, described description res = { res with description := some text } := by
  cases description with
  | none => exact .inl rfl
  | some text =>
    rw [described]
    split
    · exact .inl rfl
    · exact .inr ⟨text, rfl⟩

theorem keywords_described (description : Option JsString) :
    KeywordsAdmit v (described description res) value ↔ KeywordsAdmit v res value := by
  obtain same | ⟨text, same⟩ := described_cases description res
  · rw [same]
  · rw [same]
    exact keywords_remarks (some text) res.default

theorem admits_described (description : Option JsString) :
    Admits v (described description res) value ↔ Admits v res value := by
  obtain same | ⟨text, same⟩ := described_cases description res
  · rw [same]
  · rw [same]
    exact admits_remarks (some text) res.default

theorem described_type (description : Option JsString) :
    (described description res).type = res.type ∧
      (described description res).nullable = res.nullable ∧
      (described description res).oneOf = res.oneOf := by
  obtain same | ⟨text, same⟩ := described_cases description res
  · rw [same]
    exact ⟨rfl, rfl, rfl⟩
  · rw [same]
    exact ⟨rfl, rfl, rfl⟩

theorem admits_nullable (some : value ≠ ZodSchema.null) :
    Admits v { res with nullable := true } value ↔ Admits v res value := by
  rw [Admits, Admits]
  constructor
  · intro admits
    obtain ⟨own, parts⟩ := admits
    refine ⟨⟨?_, own.enum, own.text, own.number, own.length, own.required⟩, parts⟩
    intro name typed
    exact .inl ((own.type name typed).resolve_right fun null => some null.2)
  · intro admits
    obtain ⟨own, parts⟩ := admits
    refine ⟨⟨?_, own.enum, own.text, own.number, own.length, own.required⟩, parts⟩
    intro name typed
    exact .inl ((own.type name typed).resolve_right fun null => some null.2)

theorem admits_null (unlisted : res.enum = none) (undivided : res.oneOf = none) :
    Admits v { res with nullable := true } ZodSchema.null := by
  rw [Admits]
  refine ⟨⟨?_, ?_, ?_, ?_, ?_, ?_⟩, ?_, ?_, ?_⟩
  · intro name typed
    exact .inr ⟨rfl, rfl⟩
  · intro listed given
    cases unlisted.symm.trans given
  · intro text same
    cases same
  · intro x same
    cases same
  · intro items same
    cases same
  · intro members same
    cases same
  · intro items same
    cases same
  · intro members same
    cases same
  · intro options divided
    cases undivided.symm.trans divided

theorem admits_primitive {p : Primitive} (undivided : res.oneOf = none) :
    Admits v res (.primitive p) ↔ KeywordsAdmit v res (.primitive p) := by
  rw [Admits]
  apply and_iff_left
  refine ⟨?_, ?_, ?_⟩
  · intro items same
    cases same
  · intro members same
    cases same
  · intro options divided
    cases undivided.symm.trans divided

end Keywords
end OpenApiSchemaObject

namespace Vocabulary

/-- Whether a text passes a check, where Zod counts its code units. -/
def passesText (v : Vocabulary) (text : JsString) : StringCheck → Bool
  | .min least => !(Magnitude.finite text.length).less least.magnitude
  | .max most => !most.magnitude.less (.finite text.length)
  | .regex source => v.matchesPattern source text
  | .email => v.hasFormat "email" text
  | .url => v.hasFormat "uri" text
  | .uuid => v.hasFormat "uuid" text
  | .datetime => v.hasFormat "date-time" text
  | .other _ => true

def passesNumber (x : JsNumeric) : NumberCheck → Bool
  | .min least => !x.magnitude.less least.magnitude
  | .max most => !most.magnitude.less x.magnitude
  | .int => isInteger x
  | .other _ => true

end Vocabulary

/-- Checks that the conversion writes down, which are all but those that change a text or ask for
    something that has no keyword. -/
def StringCheck.written : StringCheck → Bool
  | .other _ => false
  | _ => true

def NumberCheck.written : NumberCheck → Bool
  | .other _ => false
  | _ => true

/-- The keyword a check is written to. -/
inductive Keyword where
  | least
  | most
  | pattern
  | format
  | type
  | none
  deriving DecidableEq

def StringCheck.keyword : StringCheck → Keyword
  | .min _ => .least
  | .max _ => .most
  | .regex _ => .pattern
  | .other _ => .none
  | _ => .format

def NumberCheck.keyword : NumberCheck → Keyword
  | .min _ => .least
  | .max _ => .most
  | .int => .type
  | .other _ => .none

/-- What Zod documents of its checks: strings that no check changes pass where they pass every
    check, and so do numbers where every check is one of these. -/
structure ChecksAsDocumented (v : Vocabulary) (checks : ZodSchema.Checks) : Prop where
  string : ∀ list text, (∀ check ∈ list, StringCheck.written check = true) →
    ((checks.string list text).isSome = true ↔ ∀ check ∈ list, v.passesText text check = true)
  number : ∀ list x, checks.number list x = true →
    ∀ check ∈ list, Vocabulary.passesNumber x check = true
  numbers : ∀ list x, (∀ check ∈ list, NumberCheck.written check = true) →
    (∀ check ∈ list, Vocabulary.passesNumber x check = true) → checks.number list x = true

namespace OpenApiSchemaObject
section Checks
variable {v : Vocabulary} {res : OpenApiSchemaObject} {text : JsString} {x : JsNumeric}

theorem withinBounds_and {least most : Option JsNumeric} {m : Magnitude} :
    withinBounds least most m = true ↔
      (∀ least' ∈ least, m.less least'.magnitude = false) ∧
        ∀ most' ∈ most, most'.magnitude.less m = false := by
  simp [withinBounds, Option.all_eq_true]

/- One check leaves room for every text that passes it, and more of them the same. -/
theorem text_step (basic : (characters text).length = text.length) {check : StringCheck}
    (own : KeywordsAdmit v res (.primitive (.string text)))
    (passes : v.passesText text check = true) :
    KeywordsAdmit v (applyStringCheck res check) (.primitive (.string text)) := by
  obtain ⟨bounds, pattern, format⟩ := own.text text rfl
  obtain ⟨least, most⟩ := withinBounds_and.mp bounds
  have limited {least most pattern format}
      (fits : withinBounds least most (.finite (characters text).length) = true ∧
        (∀ source ∈ pattern, v.matchesPattern source text = true) ∧
        ∀ name ∈ format, v.hasFormat name text = true) :
      KeywordsAdmit v { res with
        minLength := least, maxLength := most, pattern := pattern, format := format }
        (.primitive (.string text)) := by
    refine ⟨own.type, own.enum, ?_, own.number, own.length, own.required⟩
    intro other same
    cases same
    exact fits
  cases check with
  | min value =>
    apply limited
    refine ⟨withinBounds_and.mpr ⟨?_, most⟩, pattern, format⟩
    intro value' given
    cases given
    rw [basic]
    simpa [Vocabulary.passesText] using passes
  | max value =>
    apply limited
    refine ⟨withinBounds_and.mpr ⟨least, ?_⟩, pattern, format⟩
    intro value' given
    cases given
    rw [basic]
    simpa [Vocabulary.passesText] using passes
  | regex source =>
    apply limited
    refine ⟨bounds, ?_, format⟩
    intro source' given
    cases given
    exact passes
  | other kind => exact own
  | _ =>
    apply limited
    refine ⟨bounds, pattern, ?_⟩
    intro name given
    cases given
    exact passes

theorem text_run (basic : (characters text).length = text.length) {list : List StringCheck}
    (passes : ∀ check ∈ list, v.passesText text check = true)
    (own : KeywordsAdmit v res (.primitive (.string text))) :
    KeywordsAdmit v (list.foldl applyStringCheck res) (.primitive (.string text)) := by
  induction list generalizing res with
  | nil => exact own
  | cons check list ih =>
    obtain ⟨first, more⟩ := List.forall_mem_cons.mp passes
    exact ih more (text_step basic own first)

theorem number_step {check : NumberCheck} (own : KeywordsAdmit v res (.primitive (.number x)))
    (passes : Vocabulary.passesNumber x check = true) :
    KeywordsAdmit v (applyNumberCheck res check) (.primitive (.number x)) := by
  obtain ⟨least, most⟩ := withinBounds_and.mp (own.number x rfl)
  have limited {least most} (fits : withinBounds least most x.magnitude = true) :
      KeywordsAdmit v { res with minimum := least, maximum := most }
        (.primitive (.number x)) := by
    refine ⟨own.type, own.enum, own.text, ?_, own.length, own.required⟩
    intro other same
    cases same
    exact fits
  cases check with
  | min value =>
    apply limited
    refine withinBounds_and.mpr ⟨?_, most⟩
    intro value' given
    cases given
    simpa [Vocabulary.passesNumber] using passes
  | max value =>
    apply limited
    refine withinBounds_and.mpr ⟨least, ?_⟩
    intro value' given
    cases given
    simpa [Vocabulary.passesNumber] using passes
  | int =>
    refine ⟨?_, own.enum, own.text, own.number, own.length, own.required⟩
    intro name given
    cases given
    have whole : isInteger x = true := passes
    exact .inl (by simp [hasType, whole])
  | other kind => exact own

theorem number_run {list : List NumberCheck}
    (passes : ∀ check ∈ list, Vocabulary.passesNumber x check = true)
    (own : KeywordsAdmit v res (.primitive (.number x))) :
    KeywordsAdmit v (list.foldl applyNumberCheck res) (.primitive (.number x)) := by
  induction list generalizing res with
  | nil => exact own
  | cons check list ih =>
    obtain ⟨first, more⟩ := List.forall_mem_cons.mp passes
    exact ih more (number_step own first)

/-- The keyword of a check has the value the check gave it. -/
def HasText (res : OpenApiSchemaObject) : StringCheck → Prop
  | .min least => res.minLength = some least
  | .max most => res.maxLength = some most
  | .regex source => res.pattern = some source
  | .email => res.format = some "email"
  | .url => res.format = some "uri"
  | .uuid => res.format = some "uuid"
  | .datetime => res.format = some "date-time"
  | .other _ => True

def HasNumber (res : OpenApiSchemaObject) : NumberCheck → Prop
  | .min least => res.minimum = some least
  | .max most => res.maximum = some most
  | .int => res.type = some "integer"
  | .other _ => True

theorem text_writes_apart : WritesApart applyStringCheck StringCheck.keyword HasText where
  written := by
    intro res check
    cases check with
    | other kind => exact trivial
    | _ => exact rfl
  kept := by
    intro res check other differ stands
    cases check <;> cases other <;> first | exact stands | exact absurd rfl differ

theorem number_writes_apart : WritesApart applyNumberCheck NumberCheck.keyword HasNumber where
  written := by
    intro res check
    cases check with
    | other kind => exact trivial
    | _ => exact rfl
  kept := by
    intro res check other differ stands
    cases check <;> cases other <;> first | exact stands | exact absurd rfl differ

/- What the keyword of a check admits passes the check. -/
theorem text_passes (basic : (characters text).length = text.length) {check : StringCheck}
    (own : KeywordsAdmit v res (.primitive (.string text))) (stands : HasText res check) :
    v.passesText text check = true := by
  obtain ⟨bounds, pattern, format⟩ := own.text text rfl
  rw [basic, withinBounds_and] at bounds
  cases check with
  | min value => simpa [Vocabulary.passesText] using bounds.1 value stands
  | max value => simpa [Vocabulary.passesText] using bounds.2 value stands
  | regex source => exact pattern source stands
  | other kind => rfl
  | _ => exact format _ stands

theorem number_passes {check : NumberCheck}
    (own : KeywordsAdmit v res (.primitive (.number x))) (stands : HasNumber res check) :
    Vocabulary.passesNumber x check = true := by
  have bounds := withinBounds_and.mp (own.number x rfl)
  cases check with
  | min value => simpa [Vocabulary.passesNumber] using bounds.1 value stands
  | max value => simpa [Vocabulary.passesNumber] using bounds.2 value stands
  | int =>
    obtain typed | null := own.type "integer" stands
    · simpa [hasType, Vocabulary.passesNumber] using typed
    · cases null.2
  | other kind => rfl

/- The checks of a string leave everything but its keywords, those of a number its type at most. -/
theorem text_checks_type (list : List StringCheck) (res : OpenApiSchemaObject) :
    (list.foldl applyStringCheck res).type = res.type ∧
      (list.foldl applyStringCheck res).nullable = res.nullable ∧
      (list.foldl applyStringCheck res).oneOf = res.oneOf := by
  induction list generalizing res with
  | nil => exact ⟨rfl, rfl, rfl⟩
  | cons check list ih =>
    have same := ih (applyStringCheck res check)
    cases check with
    | _ => exact same

theorem number_checks_type (list : List NumberCheck) (res : OpenApiSchemaObject) :
    ((list.foldl applyNumberCheck res).type = res.type ∨
        (list.foldl applyNumberCheck res).type = some "integer") ∧
      (list.foldl applyNumberCheck res).nullable = res.nullable ∧
      (list.foldl applyNumberCheck res).oneOf = res.oneOf := by
  induction list generalizing res with
  | nil => exact ⟨.inl rfl, rfl, rfl⟩
  | cons check list ih =>
    have same := ih (applyNumberCheck res check)
    cases check with
    | int => exact ⟨.inr (or_self_iff.mp same.1), same.2⟩
    | _ => exact same

end Checks
end OpenApiSchemaObject
/-- Checks that change nothing and do what they are documented to do. -/
def Vocabulary.checks (v : Vocabulary) : ZodSchema.Checks where
  string list text := if list.all (v.passesText text) then some text else none
  number list x := list.all (passesNumber x)

theorem checks_documented (v : Vocabulary) : ChecksAsDocumented v v.checks where
  string := by
    intro list text _
    simp [Vocabulary.checks]
  number := by
    intro list x
    exact List.all_eq_true.mp
  numbers := by
    intro list x _
    exact List.all_eq_true.mpr

section Parts
open ZodSchema
variable {checks : ZodSchema.Checks}

theorem mem_convertProperties {shape : List (JsString × ZodSchema)}
    {e : JsString × OpenApiSchemaObject} :
    e ∈ convertProperties shape ↔ ∃ e' ∈ shape, e = (e'.1, zodToOpenApiSchema e'.2) := by
  induction shape with
  | nil => simp [convertProperties]
  | cons e' shape ih => simp [convertProperties, ih]

theorem convertOptions_map (options : List ZodSchema) :
    convertOptions options = options.map zodToOpenApiSchema := by
  induction options with
  | nil => rfl
  | cons option options ih => rw [convertOptions, ih, List.map_cons]

theorem mem_convertOptions {options : List ZodSchema} {res : OpenApiSchemaObject} :
    res ∈ convertOptions options ↔ ∃ option ∈ options, zodToOpenApiSchema option = res := by
  rw [convertOptions_map, List.mem_map]

theorem parseFirst_isSome {options : List ZodSchema} {data : JsValue} :
    (parseFirst checks data options).isSome = true ↔
      ∃ option ∈ options, (parse checks option data).isSome = true := by
  induction options with
  | nil => simp [parseFirst]
  | cons option options ih => simp [parseFirst, Option.isSome_or, ih]

theorem mapM_isSome {Item Image : Type} {f : Item → Option Image} {items : List Item} :
    (items.mapM f).isSome = true ↔ ∀ item ∈ items, (f item).isSome = true := by
  induction items with
  | nil => simp
  | cons item items ih =>
    rw [List.mapM_cons, List.forall_mem_cons, ← ih]
    cases f item with
    | none => simp
    | some image => cases items.mapM f <;> simp

/- What each kind of schema accepts. -/
section Kinds
variable {value : JsValue} {description : Option JsString}

theorem optional_parses {innerType : ZodSchema} (defined : value.isUndefined = false) :
    parse checks (optional innerType) value = parse checks innerType value := by
  simp [parse, defined]

theorem default_parses {defaultValue : JsValue} {innerType : ZodSchema}
    (defined : value.isUndefined = false) :
    parse checks (default defaultValue innerType) value = parse checks innerType value := by
  simp [parse, defined]

theorem nullable_parses {innerType : ZodSchema} (some : value ≠ null) :
    parse checks (nullable innerType) value = parse checks innerType value := by
  cases value with
  | primitive p =>
    cases p with
    | null => exact absurd rfl some
    | _ => rfl
  | _ => rfl

theorem string_accepts {list : List StringCheck} :
    (parse checks (string description list) value).isSome = true ↔
      ∃ text, value = .primitive (.string text) ∧ (checks.string list text).isSome = true := by
  constructor
  · intro accepted
    cases value with
    | primitive p =>
      cases p with
      | string text => exact ⟨text, rfl, by simpa [parse] using accepted⟩
      | _ => cases accepted
    | _ => cases accepted
  · rintro ⟨text, rfl, accepted⟩
    simpa [parse] using accepted

theorem number_accepts {list : List NumberCheck} :
    (parse checks (number description list) value).isSome = true ↔
      ∃ x, value = .primitive (.number x) ∧ x ≠ .nan ∧ checks.number list x = true := by
  constructor
  · intro accepted
    cases value with
    | primitive p =>
      cases p with
      | number x =>
        have passes : x ≠ .nan ∧ checks.number list x = true := by
          by_contra fails
          rw [parse, if_neg fails] at accepted
          cases accepted
        exact ⟨x, rfl, passes⟩
      | _ => cases accepted
    | _ => cases accepted
  · rintro ⟨x, rfl, passes⟩
    rw [parse, if_pos passes]
    rfl

theorem boolean_accepts : (parse checks (boolean description) value).isSome = true ↔
    ∃ b, value = .primitive (.boolean b) := by
  constructor
  · intro accepted
    cases value with
    | primitive p =>
      cases p with
      | boolean b => exact ⟨b, rfl⟩
      | _ => cases accepted
    | _ => cases accepted
  · rintro ⟨b, rfl⟩
    rfl

theorem date_accepts (accepted : (parse checks (date description) value).isSome = true) :
    ∃ d, value = .date d := by
  cases value with
  | date d => exact ⟨d, rfl⟩
  | primitive p => cases p <;> cases accepted
  | _ => cases accepted

theorem enum_accepts {values : List JsString} :
    (parse checks (enum description values) value).isSome = true ↔
      ∃ text ∈ values, value = .primitive (.string text) := by
  constructor
  · intro accepted
    cases value with
    | primitive p =>
      cases p with
      | string text =>
        have member : text ∈ values := by
          by_contra none
          rw [parse, if_neg none] at accepted
          cases accepted
        exact ⟨text, member, rfl⟩
      | _ => cases accepted
    | _ => cases accepted
  · rintro ⟨text, member, rfl⟩
    rw [parse, if_pos member]
    rfl

theorem nativeEnum_accepts {values : List (JsString × EnumValue)} :
    (parse checks (nativeEnum description values) value).isSome = true ↔
      ∃ p, value = .primitive p ∧ (validEnumValues values).any (strictlyEqual p) = true := by
  constructor
  · intro accepted
    cases value with
    | primitive p =>
      have inside : (validEnumValues values).any (strictlyEqual p) = true := by
        by_contra none
        rw [parse, if_neg none] at accepted
        cases accepted
      exact ⟨p, rfl, inside⟩
    | _ => cases accepted
  · rintro ⟨p, rfl, inside⟩
    rw [parse, if_pos inside]
    rfl

theorem literal_accepts_iff {literal : Primitive} :
    (parse checks (.literal description literal) value).isSome = true ↔
      ∃ p, value = .primitive p ∧ strictlyEqual p literal = true := by
  constructor
  · intro accepted
    cases value with
    | primitive p =>
      have same : strictlyEqual p literal = true := by
        by_contra differ
        rw [parse, if_neg differ] at accepted
        cases accepted
      exact ⟨p, rfl, same⟩
    | _ => cases accepted
  · rintro ⟨p, rfl, same⟩
    rw [parse, if_pos same]
    rfl

theorem array_accepts {minLength maxLength : Option JsNumeric} {type : ZodSchema} :
    (parse checks (array description minLength maxLength type) value).isSome = true ↔
      ∃ items, value = .array items ∧ withinLength minLength maxLength items = true ∧
        ∀ item ∈ items, (parse checks type item).isSome = true := by
  constructor
  · intro accepted
    cases value with
    | array items =>
      have within : withinLength minLength maxLength items = true := by
        by_contra beyond
        rw [parse, if_neg beyond] at accepted
        cases accepted
      rw [parse, if_pos within, Option.isSome_map, mapM_isSome] at accepted
      exact ⟨items, rfl, within, accepted⟩
    | primitive p => cases p <;> cases accepted
    | _ => cases accepted
  · rintro ⟨items, rfl, within, accepted⟩
    rwa [parse, if_pos within, Option.isSome_map, mapM_isSome]

theorem object_accepts {shape : List (JsString × ZodSchema)} :
    (parse checks (object description shape) value).isSome = true ↔
      ∃ members, value = .object members ∧
        ∀ e ∈ shape, (parse checks e.2 (property members e.1)).isSome = true := by
  constructor
  · intro accepted
    cases value with
    | object members =>
      rw [parse, Option.isSome_map, parseShape_isSome] at accepted
      exact ⟨members, rfl, accepted⟩
    | primitive p => cases p <;> cases accepted
    | _ => cases accepted
  · rintro ⟨members, rfl, accepted⟩
    rwa [parse, Option.isSome_map, parseShape_isSome]

theorem record_accepts {valueType : ZodSchema} :
    (parse checks (record description valueType) value).isSome = true ↔
      ∃ members, value = .object members ∧
        ∀ m ∈ members, (parse checks valueType m.2).isSome = true := by
  constructor
  · intro accepted
    cases value with
    | object members =>
      rw [parse, Option.isSome_map, mapM_isSome] at accepted
      exact ⟨members, rfl, fun m member => by simpa using accepted m member⟩
    | primitive p => cases p <;> cases accepted
    | _ => cases accepted
  · rintro ⟨members, rfl, accepted⟩
    rw [parse, Option.isSome_map, mapM_isSome]
    intro m member
    simpa using accepted m member

theorem union_accepts_iff {options : List ZodSchema} :
    (parse checks (union description options) value).isSome = true ↔
      ∃ option ∈ options, (parse checks option value).isSome = true := by
  rw [parse, parseFirst_isSome]

end Kinds
end Parts

/-- JSON without characters beyond the basic plane. -/
def plainJson (value : JsValue) : Bool :=
  value.isJson &&
    match value with
    | .primitive (.string text) => decide ((characters text).length = text.length)
    | _ => true

/-- Schemas whose document allows what they accept: no text is changed before it is measured, null
    is no listed value and no option of a union, an enum has values of one type only, a property
    that may be absent is optional or has a default outermost, and no two options of a union are
    documented to have a value in common. -/
inductive Faithful (v : Vocabulary) (checks : ZodSchema.Checks) : ZodSchema → Prop where
  | optional {innerType} (inner : Faithful v checks innerType) :
      Faithful v checks (.optional innerType)
  | nullable {innerType} (unlisted : (zodToOpenApiSchema innerType).enum = none)
      (undivided : (zodToOpenApiSchema innerType).oneOf = none)
      (inner : Faithful v checks innerType) : Faithful v checks (.nullable innerType)
  | default {defaultValue innerType} (inner : Faithful v checks innerType) :
      Faithful v checks (.default defaultValue innerType)
  | effects {description refine schema} (inner : Faithful v checks schema) :
      Faithful v checks (.effects description refine schema)
  | string {description list} (written : ∀ check ∈ list, StringCheck.written check = true) :
      Faithful v checks (.string description list)
  | number {description list} : Faithful v checks (.number description list)
  | boolean {description} : Faithful v checks (.boolean description)
  | date {description} : Faithful v checks (.date description)
  | enum {description values} : Faithful v checks (.enum description values)
  | nativeEnum {description values}
      (alike : ∀ p ∈ ZodSchema.validEnumValues values,
        ∀ name ∈ (zodToOpenApiSchema (.nativeEnum description values)).type,
          hasType name (.primitive p) = true) :
      Faithful v checks (.nativeEnum description values)
  | literal {description value} (some : value ≠ .null) :
      Faithful v checks (.literal description value)
  | array {description minLength maxLength type} (inner : Faithful v checks type) :
      Faithful v checks (.array description minLength maxLength type)
  | object {description shape} (properties : ∀ e ∈ shape, Faithful v checks e.2)
      (required : ∀ e ∈ shape, isOptionalOrDefault e.2 = false →
        e.2.acceptsUndefined checks = false) :
      Faithful v checks (.object description shape)
  | record {description valueType} (inner : Faithful v checks valueType) :
      Faithful v checks (.record description valueType)
  | union {description options} (each : ∀ option ∈ options, Faithful v checks option)
      (exclusive : options.Pairwise fun a b => ∀ value,
        ¬ ((zodToOpenApiSchema a).Admits v value ∧ (zodToOpenApiSchema b).Admits v value)) :
      Faithful v checks (.union description options)

/-- Schemas that accept what their document allows: every check has a keyword to itself, nothing
    is asked for beyond the checks, every listed value of the documented type is one of the enum's,
    and a property that is not required may be absent. No JSON is a date, which a document calls a
    text. -/
inductive Precise (checks : ZodSchema.Checks) : ZodSchema → Prop where
  | optional {innerType} (inner : Precise checks innerType) : Precise checks (.optional innerType)
  | nullable {innerType} (inner : Precise checks innerType) : Precise checks (.nullable innerType)
  | default {defaultValue innerType} (inner : Precise checks innerType) :
      Precise checks (.default defaultValue innerType)
  | effects {description refine schema} (passes : ∀ value, refine value = true)
      (inner : Precise checks schema) : Precise checks (.effects description refine schema)
  | string {description list} (written : ∀ check ∈ list, StringCheck.written check = true)
      (apart : (list.map StringCheck.keyword).Nodup) : Precise checks (.string description list)
  | number {description list} (written : ∀ check ∈ list, NumberCheck.written check = true)
      (apart : (list.map NumberCheck.keyword).Nodup) : Precise checks (.number description list)
  | boolean {description} : Precise checks (.boolean description)
  | enum {description values} : Precise checks (.enum description values)
  | nativeEnum {description values}
      (valid : ∀ e ∈ values, ∀ name ∈ (zodToOpenApiSchema (.nativeEnum description values)).type,
        hasType name (.primitive e.2.primitive) = true →
          e.2.primitive ∈ ZodSchema.validEnumValues values) :
      Precise checks (.nativeEnum description values)
  | literal {description value} : Precise checks (.literal description value)
  | array {description minLength maxLength type} (inner : Precise checks type) :
      Precise checks (.array description minLength maxLength type)
  | object {description shape} (properties : ∀ e ∈ shape, Precise checks e.2)
      (absent : ∀ e ∈ shape, isOptionalOrDefault e.2 = true →
        e.2.acceptsUndefined checks = true) : Precise checks (.object description shape)
  | record {description valueType} (inner : Precise checks valueType) :
      Precise checks (.record description valueType)
  | union {description options} (each : ∀ option ∈ options, Precise checks option) :
      Precise checks (.union description options)

section Accepted
open ZodSchema OpenApiSchemaObject
variable {v : Vocabulary} {checks : ZodSchema.Checks} {value : JsValue}

theorem plainJson_text {text : JsString} (plain : plainJson (.primitive (.string text)) = true) :
    (characters text).length = text.length := by
  simpa [plainJson, JsValue.isJson] using plain

theorem plainJson_distinct {members : List (JsString × JsValue)}
    (plain : plainJson (.object members) = true) : DistinctKeys members := by
  simpa [plainJson, JsValue.isJson, DistinctKeys] using plain

theorem plainJson_defined (plain : value.everywhere plainJson = true) :
    value.isUndefined = false := by
  by_contra undefined
  rw [Bool.not_eq_false] at undefined
  rw [JsValue.isUndefined_eq undefined] at plain
  cases plain

/- Equal values are the same but for the sign of zero. -/
theorem strictlyEqual_cases {p q : Primitive} (same : strictlyEqual p q = true) :
    p = q ∨ ∃ x y, p = .number x ∧ q = .number y ∧ x.unsigned = y.unsigned := by
  have unsigned : p.unsigned = q.unsigned := by
    rw [strictlyEqual, Bool.and_eq_true, decide_eq_true_eq] at same
    exact same.1
  cases p with
  | number x =>
    cases q with
    | number y => exact .inr ⟨x, y, rfl, rfl, Primitive.number.inj unsigned⟩
    | _ => cases unsigned
  | _ =>
    left
    cases q with
    | number y => cases unsigned
    | _ => exact unsigned

theorem isInteger_unsigned (x : JsNumeric) : isInteger x.unsigned = isInteger x := by
  cases x with
  | negativeZero =>
    have zero : JsNumber.zero.value = 0 := by simp [JsNumber.value, JsNumber.zero, digitsValue]
    rw [JsNumeric.unsigned, isInteger, zero]
    rfl
  | _ => rfl

theorem strictlyEqual_type {p q : Primitive} (same : strictlyEqual p q = true) (name : String) :
    hasType name (.primitive p) = hasType name (.primitive q) := by
  obtain rfl | ⟨x, y, rfl, rfl, unsigned⟩ := strictlyEqual_cases same
  · rfl
  · rw [hasType, hasType, ← isInteger_unsigned x, unsigned, isInteger_unsigned]

/- The type that typeof gives a literal is that of the values equal to it, but not for null. -/
theorem literal_type {p literal : Primitive} (some : literal ≠ .null)
    (json : JsValue.isJson (.primitive p) = true) (same : strictlyEqual p literal = true) :
    hasType literal.typeOf (.primitive p) = true := by
  obtain rfl | ⟨x, y, rfl, rfl, -⟩ := strictlyEqual_cases same
  · cases p with
    | undefined => cases json
    | null => exact absurd rfl some
    | bigint n => cases json
    | number x => simp [Primitive.typeOf, hasType]
    | _ => rfl
  · simp [Primitive.typeOf, hasType]

theorem nativeEnum_converts (description : Option JsString) (values : List (JsString × EnumValue)) :
    ∃ name, zodToOpenApiSchema (.nativeEnum description values) = described description
      { type := some name, enum := some (values.map fun e => e.2.primitive) } := ⟨_, rfl⟩

theorem array_converts (description : Option JsString) (minLength maxLength : Option JsNumeric)
    (type : ZodSchema) : zodToOpenApiSchema (.array description minLength maxLength type) =
      described description
        { type := some "array", items := some (zodToOpenApiSchema type),
          minItems := minLength, maxItems := maxLength } := by
  rw [zodToOpenApiSchema]
  cases description with
  | none => rfl
  | some text =>
    rw [described, described]
    split
    · rfl
    · rfl

/- A type alone. -/
theorem typed_admits {name : String} {p : Primitive} (typed : hasType name (.primitive p) = true) :
    KeywordsAdmit v { type := some name } (.primitive p) := by
  refine ⟨?_, ?_, ?_, ?_, ?_, ?_⟩
  · intro name' given
    cases given
    exact .inl typed
  · intro listed given
    cases given
  · intro text same
    refine ⟨rfl, ?_, ?_⟩
    · intro source given
      cases given
    · intro source given
      cases given
  · intro x same
    rfl
  · intro items same
    cases same
  · intro members same
    cases same

theorem listed_admits {name : String} {listed : List Primitive} {p : Primitive}
    (typed : hasType name (.primitive p) = true) (inside : listed.any (strictlyEqual p) = true) :
    KeywordsAdmit v { type := some name, enum := some listed } (.primitive p) := by
  have own : KeywordsAdmit v { type := some name } (.primitive p) := typed_admits typed
  refine ⟨own.type, ?_, own.text, own.number, own.length, own.required⟩
  intro listed' given
  cases given
  exact ⟨p, rfl, inside⟩

theorem array_admits {items : List JsValue} {minLength maxLength : Option JsNumeric}
    {inner : OpenApiSchemaObject} (within : withinLength minLength maxLength items = true)
    (each : ∀ item ∈ items, inner.Admits v item) :
    Admits v
      { type := some "array", items := some inner,
        minItems := minLength, maxItems := maxLength } (.array items) := by
  rw [Admits]
  refine ⟨⟨?_, ?_, ?_, ?_, ?_, ?_⟩, ?_, ?_, ?_⟩
  · intro name given
    cases given
    exact .inl rfl
  · intro listed given
    cases given
  · intro text same
    cases same
  · intro x same
    cases same
  · intro items' same
    cases same
    exact within
  · intro members same
    cases same
  · intro items' same inner' given
    cases same
    cases given
    exact each
  · intro members same
    cases same
  · intro options given
    cases given

/- Keys of which the schema tells, whether by name or not. -/
theorem object_admits {members : List (JsString × JsValue)}
    {properties : Option (List (JsString × OpenApiSchemaObject))} {required : Option (List JsString)}
    {additional : Option OpenApiSchemaObject}
    (present : ∀ key ∈ required.getD [], key ∈ members.map Prod.fst)
    (each : ∀ e ∈ properties.getD [], ∀ m ∈ members, m.1 = e.1 → e.2.Admits v m.2)
    (others : ∀ inner ∈ additional, ∀ m ∈ members, inner.Admits v m.2) :
    Admits v
      { type := some "object", properties := properties, required := required,
        additionalProperties := additional } (.object members) := by
  rw [Admits]
  refine ⟨⟨?_, ?_, ?_, ?_, ?_, ?_⟩, ?_, ?_, ?_⟩
  · intro name given
    cases given
    exact .inl rfl
  · intro listed given
    cases given
  · intro text same
    cases same
  · intro x same
    cases same
  · intro items same
    cases same
  · intro members' same
    cases same
    exact present
  · intro items same
    cases same
  · intro members' same
    cases same
    exact ⟨each, fun inner given m member _ => others inner given m member⟩
  · intro options given
    cases given

theorem union_admits {options : List OpenApiSchemaObject} {option : OpenApiSchemaObject}
    (member : option ∈ options) (admits : option.Admits v value)
    (exclusive : options.Pairwise fun a b => ¬ (a.Admits v value ∧ b.Admits v value)) :
    Admits v { oneOf := some options } value := by
  rw [Admits]
  refine ⟨⟨?_, ?_, ?_, ?_, ?_, ?_⟩, ?_, ?_, ?_⟩
  · intro name given
    cases given
  · intro listed given
    cases given
  · intro text same
    refine ⟨rfl, ?_, ?_⟩
    · intro source given
      cases given
    · intro source given
      cases given
  · intro x same
    rfl
  · intro items same
    rfl
  · intro members same key given
    cases given
  · intro items same inner given
    cases given
  · intro members same
    refine ⟨?_, ?_⟩
    · intro e given
      cases given
    · intro inner given
      cases given
  · intro options' given
    cases given
    obtain ⟨i, bound, found⟩ := List.getElem_of_mem member
    refine ⟨i, bound, found ▸ admits, ?_⟩
    intro j bound' differ admits'
    rw [List.pairwise_iff_getElem] at exclusive
    obtain before | after := Nat.lt_or_gt_of_ne differ
    · exact exclusive j i bound' bound before ⟨admits', found ▸ admits⟩
    · exact exclusive i j bound bound' after ⟨found ▸ admits, admits'⟩

theorem property_absent {members : List (JsString × JsValue)} {key : JsString}
    (absent : key ∉ members.map Prod.fst) : property members key = undefined := by
  have none : members.lookup key = none := by
    rw [List.lookup_eq_none_iff]
    intro m member
    apply bne_iff_ne.mpr
    intro same
    exact absent (List.mem_map.mpr ⟨m, member, same.symm⟩)
  rw [property, none]
  rfl

theorem property_present {members : List (JsString × JsValue)} (distinct : DistinctKeys members)
    {key : JsString} (inside : (key, value) ∈ members) : property members key = value := by
  obtain ⟨front, back, parts⟩ := List.append_of_mem inside
  have found : members.lookup key = some value := by
    rw [List.lookup_eq_some_iff]
    refine ⟨front, back, parts, ?_⟩
    intro m member
    rw [DistinctKeys, parts, List.map_append, List.nodup_append] at distinct
    have differ := distinct.2.2 m.1 (List.mem_map_of_mem member) key (by simp)
    exact bne_iff_ne.mpr differ.symm
  rw [property, found]
  rfl

theorem required_listed (shape : List (JsString × ZodSchema)) :
    (if requiredKeys shape = [] then none else some (requiredKeys shape)).getD [] =
      requiredKeys shape := by
  split
  · rename_i none
    exact none.symm
  · rfl

/- Keys are required for the properties that are neither optional nor have a default. -/
theorem mem_required {shape : List (JsString × ZodSchema)} {key : JsString} :
    key ∈ requiredKeys shape ↔
      ∃ propSchema, (key, propSchema) ∈ shape ∧ isOptionalOrDefault propSchema = false := by
  simp [requiredKeys]

/-- Whatever Zod accepts of JSON, the document allows. -/
theorem accepted_admitted (documented : ChecksAsDocumented v checks) {schema : ZodSchema}
    (faithful : Faithful v checks schema) (plain : value.everywhere plainJson = true)
    (accepted : (parse checks schema value).isSome = true) :
    (zodToOpenApiSchema schema).Admits v value := by
  induction faithful generalizing value with
  | optional inner ih =>
    rw [optional_parses (plainJson_defined plain)] at accepted
    exact ih plain accepted
  | nullable unlisted undivided inner ih =>
    by_cases null : value = ZodSchema.null
    · rw [null]
      exact admits_null unlisted undivided
    · rw [nullable_parses null] at accepted
      exact (admits_nullable null).mpr (ih plain accepted)
  | default inner ih =>
    rw [default_parses (plainJson_defined plain)] at accepted
    exact (admits_remarks _ _).mpr (ih plain accepted)
  | effects inner ih =>
    rw [parse, Option.isSome_filter] at accepted
    rw [zodToOpenApiSchema, admits_described]
    exact ih plain (Option.isSome_of_any accepted)
  | string written =>
    obtain ⟨text, rfl, passes⟩ := string_accepts.mp accepted
    rw [documented.string _ _ written] at passes
    rw [zodToOpenApiSchema, admits_primitive ((text_checks_type _ _).2.2.trans (described_type _).2.2)]
    apply text_run (plainJson_text plain) passes
    exact (keywords_described _).mpr (typed_admits rfl)
  | number =>
    obtain ⟨x, rfl, -, passes⟩ := number_accepts.mp accepted
    rw [zodToOpenApiSchema,
      admits_primitive ((number_checks_type _ _).2.2.trans (described_type _).2.2)]
    apply number_run (documented.number _ _ passes)
    exact (keywords_described _).mpr (typed_admits rfl)
  | boolean =>
    obtain ⟨b, rfl⟩ := boolean_accepts.mp accepted
    rw [zodToOpenApiSchema, admits_described, admits_primitive rfl]
    exact typed_admits rfl
  | date =>
    -- no JSON is a Date
    obtain ⟨d, rfl⟩ := date_accepts accepted
    cases plain
  | enum =>
    obtain ⟨text, member, rfl⟩ := enum_accepts.mp accepted
    rw [zodToOpenApiSchema, admits_described, admits_primitive rfl]
    apply listed_admits rfl
    rw [List.any_map, List.any_eq_true]
    exact ⟨text, member, by simp [strictlyEqual]⟩
  | @nativeEnum description values alike =>
    obtain ⟨p, rfl, inside⟩ := nativeEnum_accepts.mp accepted
    obtain ⟨q, valid, same⟩ := List.any_eq_true.mp inside
    obtain ⟨name, converted⟩ := nativeEnum_converts description values
    rw [converted, (described_type _).1] at alike
    rw [converted, admits_described, admits_primitive rfl]
    apply listed_admits
    · rw [strictlyEqual_type same]
      exact alike q valid name rfl
    · obtain ⟨e, kept, rfl⟩ := List.mem_map.mp valid
      rw [List.any_map, List.any_eq_true]
      exact ⟨e, (List.mem_filter.mp kept).1, same⟩
  | @literal description literal some =>
    obtain ⟨p, rfl, same⟩ := literal_accepts_iff.mp accepted
    rw [zodToOpenApiSchema, admits_described, admits_primitive rfl]
    apply listed_admits (literal_type some (Bool.and_eq_true_iff.mp plain).1 same)
    simp [same]
  | array inner ih =>
    obtain ⟨items, rfl, within, each⟩ := array_accepts.mp accepted
    rw [JsValue.everywhere_array] at plain
    rw [array_converts, admits_described]
    exact array_admits within fun item member => ih (plain.2 item member) (each item member)
  | @object description shape properties required ih =>
    obtain ⟨members, rfl, each⟩ := object_accepts.mp accepted
    rw [JsValue.everywhere_object] at plain
    have distinct := plainJson_distinct plain.1
    rw [zodToOpenApiSchema, admits_described]
    apply object_admits
    · intro key listed
      rw [required_listed] at listed
      obtain ⟨propSchema, member, outermost⟩ := mem_required.mp listed
      have rejected := required _ member outermost
      by_contra absent
      have missing := each _ member
      rw [property_absent absent] at missing
      exact Bool.false_ne_true (rejected.symm.trans missing)
    · intro e member m inside same
      obtain ⟨e', member', rfl⟩ := mem_convertProperties.mp member
      have found : property members e'.1 = m.2 := property_present distinct (same ▸ inside)
      exact ih e' member' (plain.2 m inside) (found ▸ each e' member')
    · intro inner given
      cases given
  | record inner ih =>
    obtain ⟨members, rfl, each⟩ := record_accepts.mp accepted
    rw [JsValue.everywhere_object] at plain
    rw [zodToOpenApiSchema, admits_described]
    apply object_admits
    · intro key inside
      cases inside
    · intro e inside
      cases inside
    · intro inner' given m member
      cases given
      exact ih (plain.2 m member) (each m member)
  | union each exclusive ih =>
    obtain ⟨option, member, accepted⟩ := union_accepts_iff.mp accepted
    rw [zodToOpenApiSchema, admits_described, convertOptions_map]
    apply union_admits (List.mem_map_of_mem member) (ih option member plain accepted)
    rw [List.pairwise_map]
    exact exclusive.imp fun apart => apart value

/-- Words that mean anything. -/
def anyWords : Vocabulary := ⟨fun _ _ => true, fun _ _ => true⟩

def contact : ZodSchema :=
  .object none
    [(.ofString "email", .string none [.email]), (.ofString "news", .optional (.boolean none))]

def contactValue : JsValue := .object [(.ofString "email", .primitive (.string (.ofString "a@b.c")))]

theorem contact_admitted : (zodToOpenApiSchema contact).Admits anyWords contactValue := by
  apply accepted_admitted (checks_documented anyWords)
  · apply Faithful.object
    · simp only [List.forall_mem_cons]
      refine ⟨.string (by decide), .optional .boolean, by simp⟩
    · simp [isOptionalOrDefault, acceptsUndefined, parse, undefined]
  · decide +kernel
  · decide +kernel

section Admitted
variable {res : OpenApiSchemaObject}

theorem admits_own (admits : res.Admits v value) : KeywordsAdmit v res value := by
  rw [Admits] at admits
  exact admits.1

theorem admits_type (admits : res.Admits v value) {name : String} (type : res.type = some name)
    (solid : res.nullable = false) : hasType name value = true := by
  obtain typed | null := (admits_own admits).type name type
  · exact typed
  · cases solid.symm.trans null.1

theorem hasType_string (typed : hasType "string" value = true) :
    ∃ text, value = .primitive (.string text) := by
  cases value with
  | primitive p =>
    cases p with
    | string text => exact ⟨text, rfl⟩
    | _ => simp [hasType] at typed
  | _ => simp [hasType] at typed

theorem hasType_number {name : String} (numeric : name = "number" ∨ name = "integer")
    (typed : hasType name value = true) : ∃ x, value = .primitive (.number x) := by
  cases value with
  | primitive p =>
    cases p with
    | number x => exact ⟨x, rfl⟩
    | _ => obtain rfl | rfl := numeric <;> simp [hasType] at typed
  | _ => obtain rfl | rfl := numeric <;> simp [hasType] at typed

theorem hasType_boolean (typed : hasType "boolean" value = true) :
    ∃ b, value = .primitive (.boolean b) := by
  cases value with
  | primitive p =>
    cases p with
    | boolean b => exact ⟨b, rfl⟩
    | _ => simp [hasType] at typed
  | _ => simp [hasType] at typed

theorem hasType_array (typed : hasType "array" value = true) : ∃ items, value = .array items := by
  cases value with
  | array items => exact ⟨items, rfl⟩
  | primitive p => cases p <;> simp [hasType] at typed
  | _ => simp [hasType] at typed

theorem hasType_object (typed : hasType "object" value = true) :
    ∃ members, value = .object members := by
  cases value with
  | object members => exact ⟨members, rfl⟩
  | primitive p => cases p <;> simp [hasType] at typed
  | _ => simp [hasType] at typed

end Admitted

/-- Whatever the document allows of JSON, Zod accepts. -/
theorem admitted_accepted (documented : ChecksAsDocumented v checks) {schema : ZodSchema}
    (precise : Precise checks schema) (plain : value.everywhere plainJson = true)
    (admits : (zodToOpenApiSchema schema).Admits v value) :
    (parse checks schema value).isSome = true := by
  induction precise generalizing value with
  | optional inner ih =>
    rw [optional_parses (plainJson_defined plain)]
    exact ih plain admits
  | nullable inner ih =>
    by_cases null : value = ZodSchema.null
    · rw [null]
      rfl
    · rw [nullable_parses null]
      exact ih plain ((admits_nullable null).mp admits)
  | default inner ih =>
    rw [default_parses (plainJson_defined plain)]
    exact ih plain ((admits_remarks _ _).mp admits)
  | effects passes inner ih =>
    rw [zodToOpenApiSchema, admits_described] at admits
    rw [parse, Option.isSome_filter]
    obtain ⟨parsed, accepted⟩ := Option.isSome_iff_exists.mp (ih plain admits)
    rw [accepted]
    exact passes parsed
  | @string description list written apart =>
    rw [zodToOpenApiSchema] at admits
    have kept := text_checks_type list (described description { type := some "string" })
    rw [(described_type description).1, (described_type description).2.1] at kept
    obtain ⟨text, rfl⟩ := hasType_string (admits_type admits kept.1 kept.2.1)
    refine string_accepts.mpr ⟨text, rfl, (documented.string _ _ written).mpr ?_⟩
    intro check member
    exact text_passes (plainJson_text plain) (admits_own admits)
      (text_writes_apart.stands apart _ check member)
  | @number description list written apart =>
    rw [zodToOpenApiSchema] at admits
    have kept := number_checks_type list (described description { type := some "number" })
    rw [(described_type description).1, (described_type description).2.1] at kept
    have numeric : ∃ x, value = .primitive (.number x) := by
      obtain plainNumber | integer := kept.1
      · exact hasType_number (.inl rfl) (admits_type admits plainNumber kept.2.1)
      · exact hasType_number (.inr rfl) (admits_type admits integer kept.2.1)
    obtain ⟨x, rfl⟩ := numeric
    have finite : x ≠ .nan := by
      rintro rfl
      cases plain
    refine number_accepts.mpr ⟨x, rfl, finite, documented.numbers _ _ written ?_⟩
    intro check member
    exact number_passes (admits_own admits) (number_writes_apart.stands apart _ check member)
  | boolean =>
    rw [zodToOpenApiSchema, admits_described] at admits
    exact boolean_accepts.mpr (hasType_boolean (admits_type admits rfl rfl))
  | enum =>
    rw [zodToOpenApiSchema, admits_described] at admits
    obtain ⟨p, rfl, inside⟩ := (admits_own admits).enum _ rfl
    rw [List.any_map, List.any_eq_true] at inside
    obtain ⟨text, member, same⟩ := inside
    obtain rfl | ⟨x, y, rfl, other, -⟩ := strictlyEqual_cases same
    · exact enum_accepts.mpr ⟨text, member, rfl⟩
    · cases other
  | @nativeEnum description values valid =>
    obtain ⟨name, converted⟩ := nativeEnum_converts description values
    rw [converted, admits_described] at admits
    rw [converted, (described_type _).1] at valid
    obtain ⟨p, rfl, inside⟩ := (admits_own admits).enum _ rfl
    rw [List.any_map, List.any_eq_true] at inside
    obtain ⟨e, member, same⟩ := inside
    have typed : hasType name (.primitive e.2.primitive) = true := by
      rw [← strictlyEqual_type same]
      exact admits_type admits rfl rfl
    refine nativeEnum_accepts.mpr ⟨p, rfl, List.any_eq_true.mpr ?_⟩
    exact ⟨_, valid e member name rfl typed, same⟩
  | literal =>
    rw [zodToOpenApiSchema, admits_described] at admits
    obtain ⟨p, rfl, inside⟩ := (admits_own admits).enum _ rfl
    exact literal_accepts_iff.mpr ⟨p, rfl, by simpa using inside⟩
  | array inner ih =>
    rw [array_converts, admits_described] at admits
    obtain ⟨items, rfl⟩ := hasType_array (admits_type admits rfl rfl)
    rw [JsValue.everywhere_array] at plain
    have within := (admits_own admits).length items rfl
    rw [Admits] at admits
    refine array_accepts.mpr ⟨items, rfl, within, ?_⟩
    intro item member
    exact ih (plain.2 item member) (admits.2.1 items rfl _ rfl item member)
  | @object description shape properties absent ih =>
    rw [zodToOpenApiSchema, admits_described] at admits
    obtain ⟨members, rfl⟩ := hasType_object (admits_type admits rfl rfl)
    rw [JsValue.everywhere_object] at plain
    have present := (admits_own admits).required members rfl
    rw [Admits] at admits
    have each := (admits.2.2.1 members rfl).1
    refine object_accepts.mpr ⟨members, rfl, ?_⟩
    intro e member
    by_cases inside : e.1 ∈ members.map Prod.fst
    · obtain ⟨m, member', same⟩ := List.mem_map.mp inside
      have own : (e.1, m.2) ∈ members := same ▸ member'
      rw [property_present (plainJson_distinct plain.1) own]
      apply ih e member (plain.2 m member')
      exact each _ (mem_convertProperties.mpr ⟨e, member, rfl⟩) m member' same
    · rw [property_absent inside]
      apply absent e member
      by_contra outermost
      rw [Bool.not_eq_true] at outermost
      apply inside
      apply present
      dsimp only
      rw [required_listed]
      exact mem_required.mpr ⟨e.2, member, outermost⟩
  | record inner ih =>
    rw [zodToOpenApiSchema, admits_described] at admits
    obtain ⟨members, rfl⟩ := hasType_object (admits_type admits rfl rfl)
    rw [JsValue.everywhere_object] at plain
    rw [Admits] at admits
    refine record_accepts.mpr ⟨members, rfl, ?_⟩
    intro m member
    apply ih (plain.2 m member)
    exact (admits.2.2.1 members rfl).2 _ rfl m member (List.not_mem_nil)
  | union each ih =>
    rw [zodToOpenApiSchema, admits_described, Admits] at admits
    obtain ⟨i, bound, admits, -⟩ := admits.2.2.2 _ rfl
    obtain ⟨option, member, converted⟩ := mem_convertOptions.mp (List.getElem_mem bound)
    rw [union_accepts_iff]
    exact ⟨option, member, ih option member plain (converted ▸ admits)⟩

theorem news_accepted :
    (parse anyWords.checks (.object none [(.ofString "news", .boolean none)])
      (.object [(.ofString "news", .primitive (.boolean true))])).isSome = true := by
  apply admitted_accepted (checks_documented anyWords)
  · apply Precise.object
    · simp only [List.forall_mem_cons]
      exact ⟨.boolean, by simp⟩
    · simp [isOptionalOrDefault]
  · decide +kernel
  · rw [zodToOpenApiSchema, admits_described]
    apply object_admits
    · decide +kernel
    · intro e inside m member _
      cases List.mem_singleton.mp inside
      cases List.mem_singleton.mp member
      rw [zodToOpenApiSchema, admits_described, admits_primitive rfl]
      exact typed_admits rfl
    · intro inner given
      cases given

end Accepted
end AstraPort.Validation
