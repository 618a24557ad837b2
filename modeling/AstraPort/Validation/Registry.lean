import AstraPort.Foundation.Casing
import AstraPort.Foundation.Folding
import AstraPort.Validation.OpenApi
import Mathlib.Data.List.Find

/- ValidationSchemaRegistry over whole runs of registrations. -/
namespace AstraPort.Validation

structure ValidationSchemaRegistry where
  registeredSchemas : InsertionMap JsString ZodSchema
  routeSchemas : InsertionMap JsString (JsString × ZodSchema)

/-- `${method.toUpperCase()}:${path}:${target}` -/
def routeKey (upper : UpperCasing) (method path target : JsString) : JsString :=
  upper.toUpperCase method ++ 58 :: (path ++ 58 :: target)

namespace ValidationSchemaRegistry

def empty : ValidationSchemaRegistry := ⟨.empty, .empty⟩

def registerSchema (registry : ValidationSchemaRegistry) (name : JsString) (schema : ZodSchema) :
    ValidationSchemaRegistry :=
  { registry with registeredSchemas := registry.registeredSchemas.set name schema }

def registerRouteSchema (upper : UpperCasing) (registry : ValidationSchemaRegistry)
    (method path target : JsString) (schema : ZodSchema) : ValidationSchemaRegistry :=
  { registry with
    routeSchemas := registry.routeSchemas.set (routeKey upper method path target) (target, schema) }

def getRouteSchema (upper : UpperCasing) (registry : ValidationSchemaRegistry)
    (method path target : JsString) : Option ZodSchema :=
  (registry.routeSchemas.get (routeKey upper method path target)).map Prod.snd

def getComponentsSchemas (registry : ValidationSchemaRegistry) :
    InsertionMap JsString OpenApiSchemaObject :=
  registry.registeredSchemas.entries.foldl (fun schemas e => schemas.set e.1 (zodToOpenApiSchema e.2))
    .empty

end ValidationSchemaRegistry

/-- A call of registerRouteSchema. -/
structure RouteSchema where
  method : JsString
  path : JsString
  target : JsString
  schema : ZodSchema

inductive Registration where
  | registerSchema (name : JsString) (schema : ZodSchema)
  | registerRouteSchema (route : RouteSchema)

namespace Registration

def named : Registration → Option (JsString × ZodSchema)
  | .registerSchema name schema => some (name, schema)
  | .registerRouteSchema _ => none

def routed : Registration → Option RouteSchema
  | .registerSchema _ _ => none
  | .registerRouteSchema r => some r

def apply (upper : UpperCasing) (registry : ValidationSchemaRegistry) :
    Registration → ValidationSchemaRegistry
  | .registerSchema name schema => registry.registerSchema name schema
  | .registerRouteSchema r =>
    registry.registerRouteSchema upper r.method r.path r.target r.schema

end Registration

/-- The registry after a run of calls; the lookups between them change nothing. -/
def registryAfter (upper : UpperCasing) (calls : List Registration) : ValidationSchemaRegistry :=
  calls.foldl (Registration.apply upper) .empty

/-- No colon is in the method, written in capitals, or in the target. -/
def PlainRoute (upper : UpperCasing) (method target : JsString) : Prop :=
  58 ∉ upper.toUpperCase method ∧ 58 ∉ target

/-- A route is known by its method in capitals, its path and its target. -/
def RouteSchema.isFor (upper : UpperCasing) (method path target : JsString) (r : RouteSchema) : Bool :=
  upper.toUpperCase r.method = upper.toUpperCase method ∧ r.path = path ∧ r.target = target

section Registrations
variable {upper : UpperCasing} {method path target : JsString}

theorem colon_apart {front front' back back' : JsString} (free : 58 ∉ front) (free' : 58 ∉ front')
    (same : front ++ 58 :: back = front' ++ 58 :: back') : front = front' ∧ back = back' := by
  induction front generalizing front' with
  | nil =>
    cases front' with
    | nil => exact ⟨rfl, (List.cons.inj same).2⟩
    | cons u front' => simp [(List.cons.inj same).1] at free'
  | cons u front ih =>
    cases front' with
    | nil => simp [(List.cons.inj same).1] at free
    | cons u' front' =>
      obtain ⟨rfl, rest⟩ := List.cons.inj same
      rw [List.mem_cons, not_or] at free free'
      obtain ⟨rfl, backs⟩ := ih free.2 free'.2 rest
      exact ⟨rfl, backs⟩

/- The path may have colons, as the parameters of a route do: the method is read from the front
   and the target from the back. -/
theorem routeKey_inj {method' path' target' : JsString} (plain : PlainRoute upper method target)
    (plain' : PlainRoute upper method' target') :
    routeKey upper method path target = routeKey upper method' path' target' ↔
      upper.toUpperCase method = upper.toUpperCase method' ∧ path = path' ∧ target = target' := by
  constructor
  · intro same
    obtain ⟨methods, rest⟩ := colon_apart plain.1 plain'.1 same
    have backwards := congrArg List.reverse rest
    simp only [List.reverse_append, List.reverse_cons, List.append_assoc, List.cons_append,
      List.nil_append] at backwards
    obtain ⟨targets, paths⟩ := colon_apart (by simpa using plain.2) (by simpa using plain'.2) backwards
    exact ⟨methods, List.reverse_injective paths, List.reverse_injective targets⟩
  · intro same
    rw [routeKey, routeKey, same.1, same.2.1, same.2.2]

theorem registry_writes (upper : UpperCasing) (calls : List Registration)
    (registry : ValidationSchemaRegistry) :
    (calls.foldl (Registration.apply upper) registry).registeredSchemas =
        (calls.filterMap Registration.named).foldl (fun m w => m.set w.1 w.2)
          registry.registeredSchemas ∧
      (calls.foldl (Registration.apply upper) registry).routeSchemas =
        (calls.filterMap Registration.routed).foldl
          (fun m r => m.set (routeKey upper r.method r.path r.target) (r.target, r.schema))
          registry.routeSchemas := by
  induction calls generalizing registry with
  | nil => exact ⟨rfl, rfl⟩
  | cons call calls ih =>
    cases call with
    | registerSchema name schema => exact ih (registry.registerSchema name schema)
    | registerRouteSchema r =>
      exact ih (registry.registerRouteSchema upper r.method r.path r.target r.schema)

end Registrations

/-- After any calls a name stands for the schema registered last under it, and a route for the one
    registered last for it, with the method in any case. -/
theorem registry_newest (upper : UpperCasing) {calls : List Registration}
    (plainCalls : ∀ r, .registerRouteSchema r ∈ calls → PlainRoute upper r.method r.target) (name : JsString)
    {method path target : JsString} (plain : PlainRoute upper method target) :
    (registryAfter upper calls).getComponentsSchemas.get name =
        ((calls.filterMap Registration.named).reverse.find? fun w => w.1 = name).map
          (fun w => zodToOpenApiSchema w.2) ∧
      (registryAfter upper calls).getRouteSchema upper method path target =
        ((calls.filterMap Registration.routed).reverse.find?
          (RouteSchema.isFor upper method path target)).map RouteSchema.schema := by
  obtain ⟨schemas, routes⟩ := registry_writes upper calls .empty
  constructor
  · rw [ValidationSchemaRegistry.getComponentsSchemas, InsertionMap.get_copied, registryAfter, schemas,
      InsertionMap.get_writes, ValidationSchemaRegistry.empty, InsertionMap.get_empty,
      InsertionMap.get_empty, Option.or_none, Option.or_none, Option.map_map]
    rfl
  · rw [ValidationSchemaRegistry.getRouteSchema, registryAfter, routes, InsertionMap.get_writes,
      ValidationSchemaRegistry.empty, InsertionMap.get_empty, Option.or_none, Option.map_map]
    have same : ∀ r ∈ (calls.filterMap Registration.routed).reverse,
        decide (routeKey upper r.method r.path r.target = routeKey upper method path target) =
          r.isFor upper method path target := by
      intro r member
      have called : .registerRouteSchema r ∈ calls := by
        obtain ⟨call, member, given⟩ := List.mem_filterMap.mp (List.mem_reverse.mp member)
        cases call with
        | registerSchema _ _ => cases given
        | registerRouteSchema r' =>
          cases given
          exact member
      rw [RouteSchema.isFor, decide_eq_decide, routeKey_inj (plainCalls r called) plain]
    rw [List.find?_congr same]
    rfl

def userCalls : List Registration :=
  [.registerRouteSchema ⟨.ofString "post", .ofString "/users/:id", .ofString "body", .boolean none⟩]

theorem user_route_found : (registryAfter asciiUpperCasing userCalls).getRouteSchema asciiUpperCasing
    (.ofString "POST") (.ofString "/users/:id") (.ofString "body") = some (.boolean none) := by
  have plain : ∀ r, .registerRouteSchema r ∈ userCalls →
      PlainRoute asciiUpperCasing r.method r.target := by
    intro r member
    cases List.mem_singleton.mp member
    exact ⟨by decide +kernel, by decide +kernel⟩
  have same : PlainRoute asciiUpperCasing (.ofString "POST") (.ofString "body") :=
    ⟨by decide +kernel, by decide +kernel⟩
  rw [(registry_newest asciiUpperCasing plain [] same).2]
  rfl

end AstraPort.Validation
