import AstraPort.Foundation.JsValue

/- The normal form that cache keys and ETags are made of, and what its JSON text shows of a
   value: all but undefined members, which of the numbers without a literal a number is, and
   undefined where null could stand. -/
namespace AstraPort.Cache
open JsValue

def typeTagged (type : String) (value : JsValue) : JsValue :=
  .object [(JsString.ofString "__type", .primitive (.string (JsString.ofString type))),
    (JsString.ofString "value", value)]

mutual
def normalizeForSerialization : JsValue → JsValue
  | .primitive .null => .primitive .null
  | .primitive .undefined => .primitive .undefined
  | .primitive p => typeTagged p.typeOf (.primitive p)
  | .date d => typeTagged "Date" (.primitive (.string (JsString.ofString d.toISOString)))
  | .array items => .array (normalizeItems items)
  | .object members => .object (ownOrder (sortKeys (normalizeMembers members)))

def normalizeItems : List JsValue → List JsValue
  | [] => []
  | item :: items => normalizeForSerialization item :: normalizeItems items

def normalizeMembers : List (JsString × JsValue) → List (JsString × JsValue)
  | [] => []
  | (key, value) :: members => (key, normalizeForSerialization value) :: normalizeMembers members
end

/-- none for undefined. What throws is written as its type alone. -/
def serializeArg (arg : JsValue) : Option String :=
  match (normalizeForSerialization arg).stringify with
  | some text => text
  | none =>
    (typeTagged "unserializable" (.primitive (.string (JsString.ofString arg.typeOf)))).stringify.join

/-- The tree of a tagged scalar. -/
def taggedJson (type : String) (json : Json) : Json :=
  .object [(JsString.ofString "__type", .string (JsString.ofString type)),
    (JsString.ofString "value", json)]

def noBigint : JsValue → Bool
  | .primitive (.bigint _) => false
  | _ => true

def BigintFree (value : JsValue) : Prop := value.everywhere noBigint = true

/-- The tree of the normal form, null for undefined. -/
def printed (value : JsValue) : Json := (normalizeForSerialization value).toJson.join.getD .null

inductive Shape where
  | primitive
  | date
  | array
  | object
  deriving DecidableEq

def shape : JsValue → Shape
  | .primitive _ => .primitive
  | .date _ => .date
  | .array _ => .array
  | .object _ => .object

/-- The shape of the value behind a tree: only a tag has a bare string for its __type. -/
def shapeBehind : Json → Shape
  | .array _ => .array
  | .object trees =>
    match trees.lookup (JsString.ofString "__type") with
    | some (.string type) => if type = JsString.ofString "Date" then .date else .primitive
    | _ => .object
  | _ => .primitive

mutual
/-- A value as its text shows it. -/
def visible : JsValue → JsValue
  | .primitive .undefined => .primitive .null
  | .primitive (.number (.infinity _)) => .primitive (.number .nan)
  | .primitive p => .primitive p
  | .date d => .date d
  | .array items => .array (visibleItems items)
  | .object members => .object (visibleMembers members)

def visibleItems : List JsValue → List JsValue
  | [] => []
  | item :: items => visible item :: visibleItems items

/-- Undefined members do not show. -/
def visibleMembers : List (JsString × JsValue) → List (JsString × JsValue)
  | [] => []
  | (key, value) :: members =>
    if value.isUndefined then visibleMembers members
    else (key, visible value) :: visibleMembers members
end

section NormalForm

theorem normalizeItems_eq (items : List JsValue) :
    normalizeItems items = items.map normalizeForSerialization := by
  induction items with
  | nil => rfl
  | cons item items ih => rw [normalizeItems, ih, List.map_cons]

theorem normalizeMembers_eq (members : List (JsString × JsValue)) :
    normalizeMembers members = members.map fun m => (m.1, normalizeForSerialization m.2) := by
  induction members with
  | nil => rfl
  | cons m members ih => rw [normalizeMembers, ih, List.map_cons]

theorem visibleItems_eq (items : List JsValue) : visibleItems items = items.map visible := by
  induction items with
  | nil => rfl
  | cons item items ih => rw [visibleItems, ih, List.map_cons]

theorem visibleMembers_eq (members : List (JsString × JsValue)) :
    visibleMembers members =
      (members.filter fun m => !m.2.isUndefined).map fun m => (m.1, visible m.2) := by
  induction members with
  | nil => rfl
  | cons m members ih =>
    rw [visibleMembers, ih]
    cases undef : m.2.isUndefined <;> simp [undef]

theorem mem_visibleMembers {members : List (JsString × JsValue)} {m : JsString × JsValue} :
    m ∈ visibleMembers members ↔
      ∃ value, (m.1, value) ∈ members ∧ value.isUndefined = false ∧ visible value = m.2 := by
  rw [visibleMembers_eq, List.mem_map]
  constructor
  · rintro ⟨m', member, rfl⟩
    obtain ⟨inside, shown⟩ := List.mem_filter.mp member
    exact ⟨m'.2, inside, by simpa using shown, rfl⟩
  · rintro ⟨value, member, shown, same⟩
    exact ⟨(m.1, value), List.mem_filter.mpr ⟨member, by simpa using shown⟩, by rw [same]⟩

theorem bigintFree_array {items : List JsValue} :
    BigintFree (.array items) ↔ ∀ item ∈ items, BigintFree item := by
  simp [BigintFree, noBigint]

theorem bigintFree_object {members : List (JsString × JsValue)} :
    BigintFree (.object members) ↔ ∀ m ∈ members, BigintFree m.2 := by
  simp [BigintFree, noBigint]

/- A member of the normal form is the normal form of a member. -/
theorem mem_normalized {members : List (JsString × JsValue)} {m : JsString × JsValue} :
    m ∈ ownOrder (sortKeys (normalizeMembers members)) ↔
      ∃ value, (m.1, value) ∈ members ∧ normalizeForSerialization value = m.2 := by
  rw [mem_sorted_own, normalizeMembers_eq, List.mem_map]
  constructor
  · rintro ⟨m', member, rfl⟩
    exact ⟨m'.2, member, rfl⟩
  · rintro ⟨value, member, normal⟩
    exact ⟨(m.1, value), member, by rw [normal]⟩

theorem typeTagged_toJson {type : String} {value : JsValue} {json : Json}
    (tree : value.toJson = some (some json)) :
    (typeTagged type value).toJson = some (some (taggedJson type json)) := by
  simp [typeTagged, toJson, membersToJson, tree, taggedJson]

theorem typeTagged_throws {type : String} {value : JsValue} (throws : value.toJson = none) :
    (typeTagged type value).toJson = none := by
  simp [typeTagged, toJson, membersToJson, throws]

/- A primitive other than undefined and null is tagged, and thrown out when it has no tree. -/
theorem scalar_toJson {p : Primitive} (notUndefined : p ≠ .undefined) (notNull : p ≠ .null) :
    (normalizeForSerialization (.primitive p)).toJson =
      (JsValue.primitive p).toJson.map fun json => some (taggedJson p.typeOf (json.getD .null)) := by
  have tagged : normalizeForSerialization (.primitive p) = typeTagged p.typeOf (.primitive p) := by
    cases p <;> first | rfl | contradiction
  rw [tagged]
  cases p with
  | undefined => exact absurd rfl notUndefined
  | null => exact absurd rfl notNull
  | bigint n => exact typeTagged_throws rfl
  | boolean b => exact typeTagged_toJson rfl
  | string s => exact typeTagged_toJson rfl
  | number x => cases x <;> exact typeTagged_toJson rfl

theorem date_toJson (d : Date) :
    (normalizeForSerialization (.date d)).toJson =
      some (some (taggedJson "Date" (.string (JsString.ofString d.toISOString)))) := by
  rw [normalizeForSerialization, typeTagged_toJson rfl]

/- JSON.stringify throws on the normal form exactly for what holds a bigint. -/
theorem serializes_iff (value : JsValue) :
    (normalizeForSerialization value).toJson.isSome = true ↔ BigintFree value := by
  induction value with
  | primitive p =>
    cases p with
    | undefined => exact iff_of_true rfl rfl
    | null => exact iff_of_true rfl rfl
    | boolean b => simp [scalar_toJson, toJson, BigintFree, everywhere, noBigint]
    | string s => simp [scalar_toJson, toJson, BigintFree, everywhere, noBigint]
    | number x =>
      cases x <;> simp [scalar_toJson, toJson, BigintFree, everywhere, noBigint]
    | bigint n => simp [scalar_toJson, toJson, BigintFree, everywhere, noBigint]
  | date d => simp [date_toJson, BigintFree, everywhere, noBigint]
  | array items ih =>
    rw [bigintFree_array, normalizeForSerialization, toJson, Option.isSome_map, itemsToJson_isSome,
      normalizeItems_eq, List.forall_mem_map]
    exact forall₂_congr ih
  | object members ih =>
    rw [bigintFree_object, normalizeForSerialization, toJson, Option.isSome_map,
      membersToJson_isSome]
    constructor
    · intro all m member
      exact (ih m member).mp (all (m.1, normalizeForSerialization m.2)
        (mem_normalized.mpr ⟨m.2, member, rfl⟩))
    · intro all m member
      obtain ⟨value, inside, normal⟩ := mem_normalized.mp member
      rw [← normal]
      exact (ih _ inside).mpr (all _ inside)

/- Without a bigint inside, undefined alone has no tree. -/
theorem toJson_printed {value : JsValue} (free : BigintFree value) :
    (normalizeForSerialization value).toJson =
      some (if value.isUndefined then none else some (printed value)) := by
  obtain ⟨tree, found⟩ := Option.isSome_iff_exists.mp ((serializes_iff value).mpr free)
  have shown : tree.isNone = value.isUndefined := by
    cases value with
    | primitive p =>
      cases p with
      | undefined => cases found; rfl
      | null => cases found; rfl
      | _ =>
        rw [scalar_toJson (by simp) (by simp)] at found
        obtain ⟨json, _, tagged⟩ := Option.map_eq_some_iff.mp found
        rw [← tagged]
        rfl
    | date d =>
      rw [date_toJson] at found
      cases found
      rfl
    | array items =>
      obtain ⟨trees, _, same⟩ := Option.map_eq_some_iff.mp found
      rw [← same]
      rfl
    | object members =>
      obtain ⟨trees, _, same⟩ := Option.map_eq_some_iff.mp found
      rw [← same]
      rfl
  rw [printed, found, ← shown]
  cases tree <;> rfl

theorem printed_array {items : List JsValue} (free : BigintFree (.array items)) :
    printed (.array items) = .array (items.map printed) := by
  have trees : ∀ item ∈ items.map normalizeForSerialization,
      item.toJson = some item.toJson.join := by
    intro item member
    obtain ⟨source, inside, rfl⟩ := List.mem_map.mp member
    rw [toJson_printed (bigintFree_array.mp free source inside)]
    rfl
  rw [printed, normalizeForSerialization, normalizeItems_eq, toJson,
    itemsToJson_map (fun item => item.toJson.join) trees, List.map_map]
  rfl

/- An object's tree has the arranged trees of those members that are not undefined. -/
theorem printed_object {members : List (JsString × JsValue)} (free : BigintFree (.object members))
    (distinct : DistinctKeys members) : ∃ trees, printed (.object members) = .object trees ∧
      Arranged trees ∧ ∀ t, t ∈ trees ↔
        ∃ value, (t.1, value) ∈ members ∧ value.isUndefined = false ∧ printed value = t.2 := by
  have whole : ∀ m ∈ ownOrder (sortKeys (normalizeMembers members)),
      m.2.toJson = some m.2.toJson.join := by
    intro m member
    obtain ⟨source, inside, normal⟩ := mem_normalized.mp member
    rw [← normal, toJson_printed (bigintFree_object.mp free _ inside)]
    rfl
  have distinct' : DistinctKeys (normalizeMembers members) := by
    rw [normalizeMembers_eq, DistinctKeys, List.map_map]
    exact distinct
  have tree := membersToJson_filterMap (fun value => value.toJson.join) whole
  refine ⟨_, by rw [printed, normalizeForSerialization, toJson, tree]; rfl,
    arranged_filterMap (sorted_own_arranged distinct') _ ?_, ?_⟩
  · intro m n shown
    obtain ⟨json, _, rfl⟩ := Option.map_eq_some_iff.mp shown
    rfl
  · intro t
    rw [List.mem_filterMap]
    constructor
    · rintro ⟨m, member, shown⟩
      obtain ⟨json, tree, rfl⟩ := Option.map_eq_some_iff.mp shown
      obtain ⟨source, inside, normal⟩ := mem_normalized.mp member
      rw [← normal, toJson_printed (bigintFree_object.mp free _ inside)] at tree
      cases undef : source.isUndefined with
      | true => simp [undef] at tree
      | false =>
        rw [undef] at tree
        exact ⟨source, inside, undef, Option.some.inj tree⟩
    · rintro ⟨source, inside, defined, same⟩
      refine ⟨(t.1, normalizeForSerialization source), mem_normalized.mpr ⟨source, inside, rfl⟩, ?_⟩
      rw [toJson_printed (bigintFree_object.mp free _ inside), defined]
      simp [same]

end NormalForm

section Texts

theorem taggedJson_inj {type type' : String} {json json' : Json} :
    taggedJson type json = taggedJson type' json' ↔ type = type' ∧ json = json' := by
  simp [taggedJson, JsString.ofString_inj]

theorem date_texts_inj {d d' : Date} :
    JsString.ofString d.toISOString = JsString.ofString d'.toISOString ↔ d = d' := by
  rw [JsString.ofString_inj, Date.toISOString_inj]

/- A primitive is null or tagged with its type. -/
theorem printed_primitive (p : Primitive) : printed (.primitive p) =
    match p with
    | .undefined => .null
    | .null => .null
    | .boolean b => taggedJson "boolean" (.bool b)
    | .string s => taggedJson "string" (.string s)
    | .number (.finite x) => taggedJson "number" (.number x)
    | .number .negativeZero => taggedJson "number" (.number .zero)
    | .number .nan => taggedJson "number" .null
    | .number (.infinity _) => taggedJson "number" .null
    | .bigint _ => .null := by
  cases p with
  | number x => cases x <;> rfl
  | _ => rfl

theorem printed_date (d : Date) :
    printed (.date d) = taggedJson "Date" (.string (JsString.ofString d.toISOString)) := rfl

theorem bigintFree_primitive {p : Primitive} (free : BigintFree (.primitive p)) (n : Int) :
    p ≠ .bigint n := by
  rintro rfl
  simp [BigintFree, everywhere, noBigint] at free

/-- The primitive that the tree of one stands for. -/
def primitiveBehind : Json → Primitive
  | .object [_, (_, .bool b)] => .boolean b
  | .object [_, (_, .string s)] => .string s
  | .object [_, (_, .number x)] => .number (.finite x)
  | .object _ => .number .nan
  | _ => .null

/- A primitive shows as the one behind its tree, up to the sign of zero. -/
theorem visible_primitive {p : Primitive} (free : BigintFree (.primitive p)) :
    ∃ q, visible (.primitive p) = .primitive q ∧
      q.unsigned = primitiveBehind (printed (.primitive p)) := by
  cases p with
  | undefined => exact ⟨.null, rfl, rfl⟩
  | null => exact ⟨.null, rfl, rfl⟩
  | boolean b => exact ⟨.boolean b, rfl, rfl⟩
  | string s => exact ⟨.string s, rfl, rfl⟩
  | bigint n => exact absurd rfl (bigintFree_primitive free n)
  | number x =>
    cases x with
    | infinity negative => exact ⟨.number .nan, rfl, rfl⟩
    | _ => exact ⟨.number _, rfl, rfl⟩

theorem printed_behind (p : Primitive) :
    printed (.primitive (primitiveBehind (printed (.primitive p)))) = printed (.primitive p) := by
  cases p with
  | number x => cases x <;> rfl
  | _ => rfl

theorem printed_primitive_iff {p q : Primitive} (free : BigintFree (.primitive p))
    (free' : BigintFree (.primitive q)) :
    printed (.primitive p) = printed (.primitive q) ↔
      Same (visible (.primitive p)) (visible (.primitive q)) := by
  obtain ⟨shown, seen, behind⟩ := visible_primitive free
  obtain ⟨shown', seen', behind'⟩ := visible_primitive free'
  rw [seen, seen']
  constructor
  · intro same
    exact ⟨shown', rfl, by rw [behind, behind', same]⟩
  · intro same
    obtain ⟨other, equal, unsigned⟩ := same
    cases equal
    rw [← printed_behind p, ← printed_behind q, ← behind, ← behind', unsigned]

/- No value of a caller is written as a bare string. -/
theorem printed_not_string {value : JsValue} (free : BigintFree value) (wellFormed : value.WellFormed)
    (s : JsString) : printed value ≠ .string s := by
  cases value with
  | primitive p =>
    rw [printed_primitive]
    split <;> simp [taggedJson]
  | date d => simp [printed_date, taggedJson]
  | array items => simp [printed_array free]
  | object members =>
    obtain ⟨trees, tree, _⟩ := printed_object free (wellFormed_object.mp wellFormed).1
    simp [tree]

/- A tree tells the shape of its value: an object is never taken for a tagged scalar,
   whatever its keys are. -/
theorem shapeBehind_printed {value : JsValue} (free : BigintFree value)
    (wellFormed : value.WellFormed) : shapeBehind (printed value) = shape value := by
  cases value with
  | primitive p =>
    rw [printed_primitive]
    split <;> rfl
  | date d => rfl
  | array items =>
    rw [printed_array free]
    rfl
  | object members =>
    obtain ⟨distinct, inner⟩ := wellFormed_object.mp wellFormed
    obtain ⟨trees, tree, _, inside⟩ := printed_object free distinct
    rw [tree, shapeBehind]
    split
    · rename_i type found
      obtain ⟨before, after, listed, _⟩ := List.lookup_eq_some_iff.mp found
      obtain ⟨value, source, _, bare⟩ := (inside (JsString.ofString "__type", .string type)).mp
        (by rw [listed]; simp)
      exact absurd bare (printed_not_string (bigintFree_object.mp free _ source) (inner _ source) _)
    · rfl

theorem same_shape {v w : JsValue} (same : Same (visible v) (visible w)) : shape v = shape w := by
  have kept (v : JsValue) : shape (visible v) = shape v := by
    cases v with
    | primitive p =>
      cases p with
      | number x => cases x <;> rfl
      | _ => rfl
    | _ => rfl
  rw [← kept v, ← kept w]
  revert same
  cases visible v with
  | primitive p =>
    rintro ⟨q, eq, _⟩
    rw [eq]
    rfl
  | date d =>
    intro eq
    rw [eq]
  | array items =>
    rintro ⟨others, eq, _⟩
    rw [eq]
    rfl
  | object members =>
    rintro ⟨others, eq, _⟩
    rw [eq]
    rfl

theorem printed_items {items others : List JsValue}
    (agree : ∀ v ∈ items, ∀ w ∈ others, printed v = printed w ↔ Same (visible v) (visible w)) :
    items.map printed = others.map printed ↔
      List.Forall₂ Same (items.map visible) (others.map visible) := by
  rw [← List.forall₂_eq_eq_eq, List.forall₂_map_left_iff, List.forall₂_map_right_iff,
    List.forall₂_map_left_iff, List.forall₂_map_right_iff]
  exact forall₂_iff agree

theorem visible_keys {members : List (JsString × JsValue)} {key : JsString} :
    key ∈ (visibleMembers members).map Prod.fst ↔
      ∃ value, (key, value) ∈ members ∧ value.isUndefined = false := by
  constructor
  · intro inside
    obtain ⟨m, member, rfl⟩ := List.mem_map.mp inside
    obtain ⟨value, source, defined, _⟩ := mem_visibleMembers.mp member
    exact ⟨value, source, defined⟩
  · intro found
    obtain ⟨value, source, defined⟩ := found
    exact List.mem_map.mpr ⟨(key, visible value),
      mem_visibleMembers.mpr ⟨value, source, defined, rfl⟩, rfl⟩

theorem printed_members {members others : List (JsString × JsValue)}
    (free : BigintFree (.object members)) (free' : BigintFree (.object others))
    (distinct : DistinctKeys members) (distinct' : DistinctKeys others)
    (agree : ∀ v ∈ members, ∀ w ∈ others,
      printed v.2 = printed w.2 ↔ Same (visible v.2) (visible w.2)) :
    printed (.object members) = printed (.object others) ↔
      Same (visible (.object members)) (visible (.object others)) := by
  obtain ⟨trees, tree, arranged, inside⟩ := printed_object free distinct
  obtain ⟨trees', tree', arranged', inside'⟩ := printed_object free' distinct'
  rw [tree, tree', Json.object.injEq, visible, visible, same_object]
  constructor
  · rintro rfl
    have shared (key : JsString) (j : Json) :
        (∃ v, (key, v) ∈ members ∧ v.isUndefined = false ∧ printed v = j) ↔
          ∃ w, (key, w) ∈ others ∧ w.isUndefined = false ∧ printed w = j :=
      (inside (key, j)).symm.trans (inside' (key, j))
    constructor
    · intro key
      rw [visible_keys, visible_keys]
      constructor
      · rintro ⟨v, source, defined⟩
        obtain ⟨w, target, defined', _⟩ := (shared key _).mp ⟨v, source, defined, rfl⟩
        exact ⟨w, target, defined'⟩
      · rintro ⟨w, target, defined⟩
        obtain ⟨v, source, defined', _⟩ := (shared key _).mpr ⟨w, target, defined, rfl⟩
        exact ⟨v, source, defined'⟩
    · intro m member other member'
      obtain ⟨v, source, defined, shown⟩ := mem_visibleMembers.mp member
      obtain ⟨w, target, _, shown'⟩ := mem_visibleMembers.mp member'
      obtain ⟨w', target', _, same⟩ := (shared m.1 _).mp ⟨v, source, defined, rfl⟩
      rw [distinct_value distinct' target' target] at same
      dsimp only at shown'
      rw [← shown, ← shown']
      exact (agree _ source _ target).mp same.symm
  · rintro ⟨keys, values⟩
    have partner (key : JsString) {v w : JsValue} (source : (key, v) ∈ members)
        (defined : v.isUndefined = false) (target : (key, w) ∈ others)
        (defined' : w.isUndefined = false) : printed v = printed w :=
      (agree _ source _ target).mpr
        (values (key, visible v) (mem_visibleMembers.mpr ⟨v, source, defined, rfl⟩) (visible w)
          (mem_visibleMembers.mpr ⟨w, target, defined', rfl⟩))
    apply arranged_ext arranged arranged'
    intro t
    rw [inside, inside']
    constructor
    · rintro ⟨v, source, defined, same⟩
      obtain ⟨w, target, defined'⟩ :=
        visible_keys.mp ((keys t.1).mp (visible_keys.mpr ⟨v, source, defined⟩))
      exact ⟨w, target, defined', (partner t.1 source defined target defined').symm.trans same⟩
    · rintro ⟨w, target, defined', same⟩
      obtain ⟨v, source, defined⟩ :=
        visible_keys.mp ((keys t.1).mpr (visible_keys.mpr ⟨w, target, defined'⟩))
      exact ⟨v, source, defined, (partner t.1 source defined target defined').trans same⟩

theorem printed_apart {v w : JsValue} (free : BigintFree v) (free' : BigintFree w)
    (wellFormed : v.WellFormed) (wellFormed' : w.WellFormed) (other : shape v ≠ shape w) :
    printed v = printed w ↔ Same (visible v) (visible w) := by
  refine iff_of_false ?_ (fun same => other (same_shape same))
  intro same
  rw [← shapeBehind_printed free wellFormed, ← shapeBehind_printed free' wellFormed', same] at other
  exact other rfl

/- Two values have one tree exactly when they show the same up to the order of keys. -/
theorem printed_iff {v w : JsValue} (free : BigintFree v) (free' : BigintFree w)
    (wellFormed : v.WellFormed) (wellFormed' : w.WellFormed) :
    printed v = printed w ↔ Same (visible v) (visible w) := by
  induction v generalizing w with
  | primitive p =>
    cases w with
    | primitive q => exact printed_primitive_iff free free'
    | _ => exact printed_apart free free' wellFormed wellFormed' (by simp [shape])
  | date d =>
    cases w with
    | date d' =>
      simp [printed_date, taggedJson_inj, visible, Same, date_texts_inj, eq_comm]
    | _ => exact printed_apart free free' wellFormed wellFormed' (by simp [shape])
  | array items ih =>
    cases w with
    | array others =>
      rw [printed_array free, printed_array free', Json.array.injEq, visible, visible,
        visibleItems_eq, visibleItems_eq, same_array]
      apply printed_items
      intro v member w member'
      exact ih v member (bigintFree_array.mp free v member) (bigintFree_array.mp free' w member')
        (wellFormed_array.mp wellFormed v member) (wellFormed_array.mp wellFormed' w member')
    | _ => exact printed_apart free free' wellFormed wellFormed' (by simp [shape])
  | object members ih =>
    cases w with
    | object others =>
      obtain ⟨distinct, inner⟩ := wellFormed_object.mp wellFormed
      obtain ⟨distinct', inner'⟩ := wellFormed_object.mp wellFormed'
      apply printed_members free free' distinct distinct'
      intro v member w member'
      exact ih v member (bigintFree_object.mp free v member) (bigintFree_object.mp free' w member')
        (inner v member) (inner' w member')
    | _ => exact printed_apart free free' wellFormed wellFormed' (by simp [shape])

end Texts
end AstraPort.Cache
