import AstraPort.Foundation.JsText
import AstraPort.Validation.Registry
import Mathlib.Data.List.Chain
import Mathlib.Data.List.Infix

/- buildOpenApiDocument: what the document says of the routes of an application. -/
namespace AstraPort.Docs
open Validation

/-- The keys of a route's methods, and which of them it has. -/
structure Route where
  path : JsString
  methods : List (JsString × Bool)

/-- A layer of the router may have a route, and its handler a stack of further layers. -/
inductive Layer where
  | mk (route : Option Route) (stack : List Layer)

structure OperationDefinition where
  method : JsString
  path : JsString

def routeOperations (upper : UpperCasing) (route : Option Route) : List OperationDefinition :=
  match route with
  | none => []
  | some route =>
    (route.methods.filter fun m => m.2).map fun m => ⟨upper.toUpperCase m.1, route.path⟩

mutual

def visitLayer (upper : UpperCasing) : Layer → List OperationDefinition
  | .mk route stack => routeOperations upper route ++ collectOperations upper stack

/-- visit, from the stack of the application's router. -/
def collectOperations (upper : UpperCasing) : List Layer → List OperationDefinition
  | [] => []
  | layer :: layers => visitLayer upper layer ++ collectOperations upper layers

end

/-- replace(/[..]+/g, unit): one unit for every run of units in the class. -/
def replaceRuns (inClass : UInt16 → Bool) (unit : UInt16) : JsString → JsString
  | [] => []
  | u :: text =>
    if inClass u then
      if text.head?.any inClass then replaceRuns inClass unit text
      else unit :: replaceRuns inClass unit text
    else u :: replaceRuns inClass unit text

def slash : UInt16 := 47

def normalizePath (path : JsString) : JsString :=
  if path = [] then [slash]
  else replaceRuns (· = slash) slash (if path.head? = some slash then path else slash :: path)

def getTag (path : JsString) : JsString :=
  let segments := (path.splitOn slash).filter (· ≠ [])
  let general := JsString.ofString "general"
  if segments.head? = some (JsString.ofString "api") then (segments[1]?).getD general
  else segments.head?.getD general

def describePath (path : JsString) : JsString :=
  let cleanPath := (replaceRuns (fun u => u = 58 ∨ u = slash) 32 path).trim
  if cleanPath = [] then .ofString "resource" else cleanPath

def getSummary (upper : UpperCasing) (method path : JsString) : JsString :=
  upper.toUpperCase method ++ 32 :: describePath path

def actionResource (action : String) (path : JsString) : JsString :=
  .ofString action ++ .ofString " the " ++ describePath path ++ .ofString " resource."

def getDescription (method path : JsString) : JsString :=
  if method = .ofString "POST" then actionResource "Create or execute" path
  else if method = .ofString "PUT" then actionResource "Update" path
  else if method = .ofString "DELETE" then actionResource "Remove" path
  else actionResource "Retrieve" path

def field (key : String) (value : JsValue) : JsString × JsValue := (.ofString key, value)

def textValue (text : String) : JsValue := .primitive (.string (.ofString text))

def trueValue : JsValue := .primitive (.boolean true)

def getExample (method path : JsString) : JsValue :=
  if JsString.ofString "status" <:+: path then
    .object [field "status" (textValue "ok"), field "service" (textValue "AstraPort API")]
  else if method = .ofString "POST" then
    .object [field "success" trueValue, field "message" (textValue "Request accepted")]
  else if method = .ofString "DELETE" then .object [field "success" trueValue]
  else .object [field "success" trueValue, field "data" (.array [])]

structure RequestBody where
  schema : OpenApiSchemaObject
  example_ : JsValue

/-- Any object: additionalProperties is true, as a schema without keywords is. -/
def anyObject : OpenApiSchemaObject := { type := some "object", additionalProperties := some {} }

def getRequestBody (method : JsString) (example_ : JsValue)
    (schemaOverride : Option OpenApiSchemaObject) : Option RequestBody :=
  if method = .ofString "POST" ∨ method = .ofString "PUT" ∨ method = .ofString "PATCH" then
    some ⟨schemaOverride.getD anyObject, example_⟩
  else none

structure Operation where
  tag : JsString
  summary : JsString
  description : JsString
  operationId : JsString
  example_ : JsValue
  requestBody : Option RequestBody

def isAlphanumeric (u : UInt16) : Bool :=
  (97 ≤ u ∧ u ≤ 122) ∨ (65 ≤ u ∧ u ≤ 90) ∨ (48 ≤ u ∧ u ≤ 57)

/-- What is written at a path and a method. -/
def describeOperation (upper : UpperCasing) (registry : ValidationSchemaRegistry)
    (method path : JsString) : Operation :=
  let bodySchema := registry.getRouteSchema upper method path (.ofString "body")
  let example_ := getExample method path
  { tag := getTag path
    summary := getSummary upper method path
    description := getDescription method path
    operationId := method ++ 95 :: replaceRuns (fun u => !isAlphanumeric u) 95 path
    example_ := example_
    requestBody := getRequestBody method example_ (bodySchema.map zodToOpenApiSchema) }

abbrev Paths := InsertionMap JsString (InsertionMap JsString Operation)

def docsPrefix : JsString := .ofString "/docs"

def addOperation (casing : Casing) (upper : UpperCasing) (registry : ValidationSchemaRegistry)
    (paths : Paths) (operation : OperationDefinition) : Paths :=
  let normalizedPath := normalizePath operation.path
  if normalizedPath = [] ∨ docsPrefix <+: normalizedPath then paths
  else
    let method := casing.toLowerCase operation.method
    paths.set normalizedPath (((paths.get normalizedPath).getD .empty).set method
      (describeOperation upper registry method normalizedPath))

structure OpenApiDocument where
  paths : Paths
  schemas : InsertionMap JsString OpenApiSchemaObject

/-- The parts of the document that depend on the application. -/
def buildOpenApiDocument (casing : Casing) (upper : UpperCasing)
    (registry : ValidationSchemaRegistry) (stack : List Layer) : OpenApiDocument where
  paths := (collectOperations upper stack).foldl (addOperation casing upper registry) .empty
  schemas := registry.getComponentsSchemas

/-- The layers of a stack, at any depth. -/
inductive Within : List Layer → Layer → Prop where
  | here {layers layer} (member : layer ∈ layers) : Within layers layer
  | deeper {layers route stack layer} (outer : Layer.mk route stack ∈ layers)
      (inner : Within stack layer) : Within layers layer

/-- Some layer has a route with this method that is documented at this path. -/
def Served (casing : Casing) (upper : UpperCasing) (layers : List Layer) (method path : JsString) :
    Prop :=
  ∃ route stack m, Within layers (.mk (some route) stack) ∧ (m, true) ∈ route.methods ∧
    casing.toLowerCase (upper.toUpperCase m) = method ∧ normalizePath route.path = path

@[induction_eliminator]
theorem Layer.induct {motive : Layer → Prop}
    (mk : ∀ route stack, (∀ layer ∈ stack, motive layer) → motive (.mk route stack))
    (layer : Layer) : motive layer :=
  @Layer.rec motive (fun stack => ∀ layer ∈ stack, motive layer) mk (by simp)
    (fun _ _ first more => List.forall_mem_cons.mpr ⟨first, more⟩) layer

section Collection
variable {upper : UpperCasing} {op : OperationDefinition}

theorem mem_routeOperations {route : Option Route} : op ∈ routeOperations upper route ↔
    ∃ own, route = some own ∧ ∃ m, (m, true) ∈ own.methods ∧ op = ⟨upper.toUpperCase m, own.path⟩ := by
  cases route with
  | none => simp [routeOperations]
  | some own =>
    simp only [routeOperations, List.mem_map, List.mem_filter, Option.some.injEq]
    constructor
    · rintro ⟨m, ⟨member, has⟩, rfl⟩
      exact ⟨own, rfl, m.1, has ▸ member, rfl⟩
    · rintro ⟨_, rfl, m, member, rfl⟩
      exact ⟨(m, true), ⟨member, rfl⟩, rfl⟩

theorem mem_collect {layers : List Layer} : op ∈ collectOperations upper layers ↔
    ∃ layer ∈ layers, op ∈ visitLayer upper layer := by
  induction layers with
  | nil => simp [collectOperations]
  | cons layer layers ih => simp [collectOperations, ih]

theorem visited_within (layer : Layer) {layers : List Layer} (member : layer ∈ layers)
    (visited : op ∈ visitLayer upper layer) :
    ∃ route stack m, Within layers (.mk (some route) stack) ∧ (m, true) ∈ route.methods ∧
      op = ⟨upper.toUpperCase m, route.path⟩ := by
  induction layer generalizing layers with
  | mk route stack ih =>
    rw [visitLayer, List.mem_append] at visited
    obtain here | below := visited
    · obtain ⟨own, rfl, m, has, same⟩ := mem_routeOperations.mp here
      exact ⟨own, stack, m, .here member, has, same⟩
    · obtain ⟨inner, member', visited⟩ := mem_collect.mp below
      obtain ⟨found, rest, m, within, has, same⟩ := ih inner member' member' visited
      exact ⟨found, rest, m, .deeper member within, has, same⟩

theorem within_visited {layers : List Layer} {layer : Layer} (within : Within layers layer)
    (visited : op ∈ visitLayer upper layer) : op ∈ collectOperations upper layers := by
  induction within with
  | here member => exact mem_collect.mpr ⟨_, member, visited⟩
  | deeper outer inner ih =>
    apply mem_collect.mpr
    refine ⟨_, outer, ?_⟩
    rw [visitLayer]
    exact List.mem_append_right _ (ih visited)

/- Every route of the tree is visited, and nothing else. -/
theorem mem_collectOperations {layers : List Layer} : op ∈ collectOperations upper layers ↔
    ∃ route stack m, Within layers (.mk (some route) stack) ∧ (m, true) ∈ route.methods ∧
      op = ⟨upper.toUpperCase m, route.path⟩ := by
  constructor
  · intro collected
    obtain ⟨layer, member, visited⟩ := mem_collect.mp collected
    exact visited_within layer member visited
  · rintro ⟨route, stack, m, within, has, same⟩
    apply within_visited within
    rw [visitLayer]
    exact List.mem_append_left _ (mem_routeOperations.mpr ⟨route, rfl, m, has, same⟩)

end Collection

section Normalizing
variable {path : JsString}

/-- No two slashes follow one another. -/
def SingleSlashes (path : JsString) : Prop := path.IsChain fun u v => ¬ (u = slash ∧ v = slash)

theorem replaceRuns_head (inClass : UInt16 → Bool) (unit : UInt16) (own : inClass unit = true)
    (text : JsString) :
    (replaceRuns inClass unit text).head?.any inClass = text.head?.any inClass := by
  induction text with
  | nil => rfl
  | cons u text ih =>
    rw [replaceRuns]
    split
    · rename_i member
      split
      · rename_i next
        rw [ih, next]
        simp [member]
      · simp [own, member]
    · rfl

theorem normalized_single (text : JsString) :
    SingleSlashes (replaceRuns (· = slash) slash text) := by
  induction text with
  | nil => exact .nil
  | cons u text ih =>
    have head := replaceRuns_head (· = slash) slash (by simp) text
    rw [replaceRuns]
    split
    · split
      · exact ih
      · rename_i apart
        rw [← head, Bool.not_eq_true, Option.any_eq_false] at apart
        refine List.isChain_cons.mpr ⟨?_, ih⟩
        intro v next both
        exact of_decide_eq_false (apart v next) both.2
    · rename_i other
      refine List.isChain_cons.mpr ⟨?_, ih⟩
      intro v next both
      exact other (by simpa using both.1)

/- What has single slashes is left as it is. -/
theorem replaceRuns_single (single : SingleSlashes path) :
    replaceRuns (· = slash) slash path = path := by
  induction path with
  | nil => rfl
  | cons u path ih =>
    obtain ⟨apart, rest⟩ := List.isChain_cons.mp single
    rw [replaceRuns, ih rest]
    split
    · rename_i own
      have same : u = slash := by simpa using own
      have alone : ¬ path.head?.any (· = slash) = true := by
        rw [Option.any_eq_true]
        rintro ⟨v, head, also⟩
        exact apart v head ⟨same, by simpa using also⟩
      rw [if_neg alone, same]
    · rfl

/-- A path that begins with a slash, and has no slash behind a slash. -/
def Normalized (path : JsString) : Prop := path.head? = some slash ∧ SingleSlashes path

theorem normalizePath_normalized (path : JsString) : Normalized (normalizePath path) := by
  rw [normalizePath]
  split
  · exact ⟨rfl, .singleton _⟩
  · refine ⟨?_, normalized_single _⟩
    have led : (if path.head? = some slash then path else slash :: path).head? = some slash := by
      split
      · assumption
      · rfl
    have head := replaceRuns_head (· = slash) slash (by simp)
      (if path.head? = some slash then path else slash :: path)
    rw [led, Option.any_some, decide_eq_true rfl, Option.any_eq_true] at head
    obtain ⟨v, first, own⟩ := head
    rw [first, of_decide_eq_true own]

theorem normalizePath_of_normalized (normalized : Normalized path) : normalizePath path = path := by
  have some : path ≠ [] := by
    rintro rfl
    cases normalized.1
  rw [normalizePath, if_neg some, if_pos normalized.1, replaceRuns_single normalized.2]

end Normalizing
section Document
variable {casing : Casing} {upper : UpperCasing} {registry : ValidationSchemaRegistry}
  {method path : JsString}

/-- The operation at a path and a method. -/
def Paths.at (paths : Paths) (path method : JsString) : Option Operation :=
  (paths.get path).bind fun methods => methods.get method

/-- Whether the operation is documented at this path and this method. -/
def isAt (casing : Casing) (method path : JsString) (operation : OperationDefinition) : Bool :=
  normalizePath operation.path = path ∧ casing.toLowerCase operation.method = method ∧
    ¬ docsPrefix <+: path

/- One step: an operation is written where it is documented, and the others stay. -/
theorem at_addOperation (paths : Paths) (operation : OperationDefinition) :
    (addOperation casing upper registry paths operation).at path method =
      if isAt casing method path operation then some (describeOperation upper registry method path)
      else paths.at path method := by
  have given : normalizePath operation.path ≠ [] := by
    intro none
    have led := (normalizePath_normalized operation.path).1
    rw [none] at led
    cases led
  rw [addOperation]
  by_cases own : docsPrefix <+: normalizePath operation.path
  · have elsewhere : isAt casing method path operation = false := by
      apply decide_eq_false
      intro here
      exact here.2.2 (here.1 ▸ own)
    rw [if_pos (.inr own), elsewhere]
    rfl
  · rw [if_neg (not_or.mpr ⟨given, own⟩)]
    unfold Paths.at
    by_cases same : path = normalizePath operation.path
    · subst same
      rw [InsertionMap.get_set_self, Option.bind_some, InsertionMap.get_set]
      by_cases named : method = casing.toLowerCase operation.method
      · subst named
        have here : isAt casing (casing.toLowerCase operation.method)
            (normalizePath operation.path) operation = true := decide_eq_true ⟨rfl, rfl, own⟩
        rw [if_pos rfl, if_pos here]
      · have elsewhere : isAt casing method (normalizePath operation.path) operation = false :=
          decide_eq_false fun here => named here.2.1.symm
        rw [if_neg named, elsewhere]
        cases paths.get (normalizePath operation.path) <;> rfl
    · have elsewhere : isAt casing method path operation = false :=
        decide_eq_false fun here => same here.1.symm
      rw [InsertionMap.get_set_ne _ _ same, elsewhere]
      rfl

/- A run of them. -/
theorem at_addOperations (operations : List OperationDefinition) (paths : Paths) :
    (operations.foldl (addOperation casing upper registry) paths).at path method =
      if operations.any (isAt casing method path) then
        some (describeOperation upper registry method path)
      else paths.at path method := by
  induction operations generalizing paths with
  | nil => rfl
  | cons operation operations ih =>
    rw [List.foldl_cons, ih, at_addOperation, List.any_cons]
    cases operations.any (isAt casing method path) <;> cases isAt casing method path operation <;> rfl

/-- The document has exactly the operations that the application serves outside of its own pages,
    wherever in the tree of routers they are, each under its normalised path. -/
theorem documented_iff_served (casing : Casing) (upper : UpperCasing)
    (registry : ValidationSchemaRegistry) (stack : List Layer) (method path : JsString)
    (operation : Operation) :
    (buildOpenApiDocument casing upper registry stack).paths.at path method = some operation ↔
      Served casing upper stack method path ∧ ¬ docsPrefix <+: path ∧ Normalized path ∧
        operation = describeOperation upper registry method path := by
  have found : (collectOperations upper stack).any (isAt casing method path) = true ↔
      Served casing upper stack method path ∧ ¬ docsPrefix <+: path := by
    simp only [List.any_eq_true, isAt, decide_eq_true_eq, mem_collectOperations, Served]
    constructor
    · rintro ⟨_, ⟨route, rest, m, within, has, rfl⟩, at_, named, own⟩
      exact ⟨⟨route, rest, m, within, has, named, at_⟩, own⟩
    · rintro ⟨⟨route, rest, m, within, has, named, at_⟩, own⟩
      exact ⟨_, ⟨route, rest, m, within, has, rfl⟩, at_, named, own⟩
  unfold buildOpenApiDocument
  dsimp only
  rw [at_addOperations]
  by_cases served : Served casing upper stack method path ∧ ¬ docsPrefix <+: path
  · obtain ⟨_, _, _, _, _, _, normal⟩ := served.1
    rw [if_pos (found.mpr served)]
    have normalized : Normalized path := normal ▸ normalizePath_normalized _
    simp [served, normalized, eq_comm]
  · rw [if_neg (fun any => served (found.mp any))]
    constructor
    · intro none
      cases none
    · intro all
      exact absurd ⟨all.1, all.2.1⟩ served

/-- The names of the methods have ASCII units only, as those of HTTP do. -/
def AsciiMethods (stack : List Layer) : Prop :=
  ∀ route rest, Within stack (.mk (some route) rest) → ∀ m ∈ route.methods, ∀ u ∈ m.1, u < 128

/-- No unit is a capital letter. -/
def Small (text : JsString) : Prop := ∀ u ∈ text, ¬ (65 ≤ u ∧ u ≤ 90)

theorem lowerLetters_small (text : JsString) : Small (lowerLetters text) := by
  intro u member
  obtain ⟨v, _, rfl⟩ := List.mem_map.mp member
  split
  · rename_i capital
    simp only [UInt16.le_iff_toNat_le, UInt16.toNat_add, UInt16.reduceToNat] at capital ⊢
    omega
  · assumption

/- Methods are written small before they are compared with names in capitals. -/
theorem collected_small {stack : List Layer} (ascii : AsciiMethods stack)
    {operation : OperationDefinition} (collected : operation ∈ collectOperations upper stack) :
    Small (casing.toLowerCase operation.method) := by
  obtain ⟨route, rest, m, within, has, rfl⟩ := mem_collectOperations.mp collected
  have own := ascii route rest within _ has
  have raised : upper.toUpperCase m = upperLetters m := upper.ascii m own
  have still : ∀ u ∈ upperLetters m, u < 128 := by
    intro u member
    obtain ⟨v, inside, rfl⟩ := List.mem_map.mp member
    have small := own v inside
    split
    · rename_i letter
      simp only [UInt16.le_iff_toNat_le, UInt16.reduceToNat] at letter
      rw [UInt16.lt_iff_toNat_lt] at small ⊢
      rw [UInt16.toNat_sub_of_le _ _ (UInt16.le_iff_toNat_le.mpr (by simpa using by omega))]
      omega
    · exact small
  show Small (casing.toLowerCase (upper.toUpperCase m))
  rw [raised, casing.ascii _ still]
  exact lowerLetters_small _

theorem small_capital {method : JsString} (small : Small method) {name : String}
    (capital : (JsString.ofString name).head?.any (fun u => 65 ≤ u ∧ u ≤ 90) = true) :
    method ≠ .ofString name := by
  rintro rfl
  rw [Option.any_eq_true] at capital
  obtain ⟨u, first, own⟩ := capital
  exact small u (List.mem_of_mem_head? first) (of_decide_eq_true own)

theorem small_bodiless (small : Small method) (example_ : JsValue)
    (schemaOverride : Option OpenApiSchemaObject) :
    getRequestBody method example_ schemaOverride = none := by
  have post : method ≠ .ofString "POST" := small_capital small (by decide +kernel)
  have put : method ≠ .ofString "PUT" := small_capital small (by decide +kernel)
  have patch : method ≠ .ofString "PATCH" := small_capital small (by decide +kernel)
  simp [getRequestBody, post, put, patch]

theorem small_retrieves (small : Small method) (path : JsString) :
    getDescription method path = actionResource "Retrieve" path := by
  have post : method ≠ .ofString "POST" := small_capital small (by decide +kernel)
  have put : method ≠ .ofString "PUT" := small_capital small (by decide +kernel)
  have delete : method ≠ .ofString "DELETE" := small_capital small (by decide +kernel)
  simp [getDescription, post, put, delete]

/- Without a body an operation does not depend on the registry. -/
theorem small_describes (small : Small method) (registry registry' : ValidationSchemaRegistry) :
    describeOperation upper registry method path = describeOperation upper registry' method path := by
  simp [describeOperation, small_bodiless small]

/-- Operations of any method are described as retrievals and never have a body, so that the paths
    are the same whatever schemas are registered for the bodies of routes. -/
theorem bodies_undocumented (casing : Casing) (upper : UpperCasing)
    (registry registry' : ValidationSchemaRegistry) {stack : List Layer}
    (ascii : AsciiMethods stack) :
    (buildOpenApiDocument casing upper registry stack).paths =
        (buildOpenApiDocument casing upper registry' stack).paths ∧
      ∀ path method operation,
        (buildOpenApiDocument casing upper registry stack).paths.at path method = some operation →
          operation.requestBody = none ∧
            operation.description = actionResource "Retrieve" path := by
  constructor
  · apply List.foldl_ext
    intro paths operation collected
    have small : Small (casing.toLowerCase operation.method) := collected_small ascii collected
    unfold addOperation
    dsimp only
    rw [small_describes small registry registry']
  · intro path method operation found
    unfold buildOpenApiDocument at found
    dsimp only at found
    rw [at_addOperations] at found
    split at found
    · rename_i any
      obtain ⟨collected, member, at_⟩ := List.any_eq_true.mp any
      obtain ⟨-, rfl, -⟩ := of_decide_eq_true at_
      cases found
      have small : Small (casing.toLowerCase collected.method) := collected_small ascii member
      exact ⟨small_bodiless small _ _, small_retrieves small path⟩
    · cases found

/-- A route of a nested router, for whose body a schema is registered. -/
def userRoute : Route := ⟨.ofString "users//:id", [(.ofString "post", true)]⟩

def userRouter : List Layer := [.mk none [.mk (some userRoute) []]]

theorem user_body_undocumented :
    (buildOpenApiDocument asciiCasing asciiUpperCasing .empty userRouter).paths =
      (buildOpenApiDocument asciiCasing asciiUpperCasing
        (registryAfter asciiUpperCasing userCalls) userRouter).paths := by
  have nothing : ∀ layer, ¬ Within [] layer := by
    intro layer within
    cases within with
    | here member => cases member
    | deeper outer _ => cases outer
  have ascii : AsciiMethods userRouter := by
    intro route rest within
    cases within with
    | here member => cases List.mem_singleton.mp member
    | deeper outer inner =>
      cases List.mem_singleton.mp outer
      cases inner with
      | here member =>
        cases List.mem_singleton.mp member
        intro m has u inside
        cases List.mem_singleton.mp has
        have small : (JsString.ofString "post").all (fun u => u < 128) = true := by decide +kernel
        exact of_decide_eq_true (List.all_eq_true.mp small u inside)
      | deeper outer inner =>
        cases List.mem_singleton.mp outer
        exact absurd inner (nothing _)
  exact (bodies_undocumented asciiCasing asciiUpperCasing _ _ ascii).1

end Document
end AstraPort.Docs
