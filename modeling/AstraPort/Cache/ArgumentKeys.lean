import AstraPort.Foundation.Joining
import AstraPort.Cache.CacheKey
import AstraPort.Cache.Decorated

/- Keys that the Cached decorator derives from arguments, and which argument lists share
   one. -/
namespace AstraPort.Cache
open JsValue

/-- A value as it can be passed: no object has a key twice. -/
abbrev Argument := {value : JsValue // value.WellFormed}

/-- cacheKey of cache.decorators.ts. The join writes nothing for undefined; an empty override
    is none. -/
def argumentsKey (className methodName : String) (args : List JsValue)
    (override : Option String) : String :=
  let key := override.getD ""
  if key = "" then
    cacheKey className methodName (args.map fun arg => (serializeArg arg).getD "")
  else "cache:" ++ key

/-- What a key holds of one argument: nothing of undefined, and of one with a bigint inside
    its type alone. -/
inductive ArgumentView where
  | missing
  | untold (type : String)
  | told (value : JsValue)

def argumentView (arg : JsValue) : ArgumentView :=
  if arg.isUndefined then .missing
  else if arg.everywhere noBigint then .told (visible arg)
  else .untold arg.typeOf

def ArgumentView.Same : ArgumentView → ArgumentView → Prop
  | .missing, .missing => True
  | .untold type, .untold type' => type = type'
  | .told v, .told w => JsValue.Same v w
  | _, _ => False

def Alike (a b : JsValue) : Prop := (argumentView a).Same (argumentView b)

/-- No argument at all reads as one that is undefined. -/
def given : List JsValue → List JsValue
  | [] => [.primitive .undefined]
  | args => args

/-- Argument lists that differ, though only in what their texts do not tell. -/
def Confused (a b : List JsValue) : Prop :=
  List.Forall₂ Alike (given a) (given b) ∧ ¬ List.Forall₂ JsValue.Same a b

section Texts

/-- The tree an argument is written as. -/
def argumentTree (arg : JsValue) : Option Json :=
  if arg.isUndefined then none
  else if arg.everywhere noBigint then some (printed arg)
  else some (taggedJson "unserializable" (.string (JsString.ofString arg.typeOf)))

def treeText (tree : Option Json) : List Char := (tree.map Json.stringify).getD []

/- The catch branch is taken for a bigint somewhere inside, and for nothing else. -/
theorem serializeArg_text (arg : JsValue) :
    ((serializeArg arg).getD "").toList = treeText (argumentTree arg) := by
  by_cases free : BigintFree arg
  · have inside : arg.everywhere noBigint = true := free
    have tree := toJson_printed free
    cases undef : arg.isUndefined <;>
      simp [serializeArg, stringify, tree, argumentTree, undef, treeText, inside]
  · have throws : (normalizeForSerialization arg).toJson = none := by
      rw [← Option.not_isSome_iff_eq_none, serializes_iff]
      exact free
    have inside : arg.everywhere noBigint = false := by simpa [BigintFree] using free
    have undef : arg.isUndefined = false := by
      cases undef : arg.isUndefined with
      | false => rfl
      | true =>
        rw [isUndefined_eq undef] at free
        exact absurd rfl free
    have fallback : (typeTagged "unserializable"
        (.primitive (.string (JsString.ofString arg.typeOf)))).toJson =
          some (some (taggedJson "unserializable" (.string (JsString.ofString arg.typeOf)))) :=
      typeTagged_toJson rfl
    simp [serializeArg, stringify, throws, argumentTree, undef, inside, treeText, fallback]

/- A tree can be told from what follows it, up to a colon or the end. -/
theorem treeText_delimited : Delimited treeText ':' := by
  intro p q rest rest' closes closes' same
  have ends {rest : List Char} (closes : Closes ':' rest) : JsNumber.Ends rest := by
    intro c first
    rw [closes c first]
    decide
  have unread {rest : List Char} (closes : Closes ':' rest) (fuel : Nat) :
      Json.readValue fuel rest = none := by
    cases fuel with
    | zero => rfl
    | succ fuel =>
      cases rest with
      | nil => rfl
      | cons c more =>
        rw [closes c rfl]
        simp [Json.readValue, Json.skipBlanks, Json.isBlank, JsNumber.read]
  have read (tree : Option Json) {rest : List Char} (closes : Closes ':' rest) {fuel : Nat}
      (enough : (treeText tree ++ rest).length ≤ fuel) :
      Json.readValue fuel (treeText tree ++ rest) = tree.map fun json => (json, rest) := by
    cases tree with
    | none => exact unread closes fuel
    | some json =>
      rw [List.length_append] at enough
      exact Json.readValue_stringify json (Nat.le_trans (Nat.le_add_right _ _) enough) (ends closes)
  have left := read p closes (Nat.le_refl _)
  have right := read q closes' (Nat.le_of_eq (congrArg List.length same).symm)
  rw [← same, left] at right
  cases p with
  | none =>
    cases q with
    | none => exact ⟨rfl, same⟩
    | some _ => cases right
  | some _ =>
    cases q with
    | none => cases right
    | some _ =>
      cases right
      exact ⟨rfl, rfl⟩

/- No argument without a bigint is written as one that has one. -/
theorem printed_not_unserializable {value : JsValue} (free : BigintFree value)
    (wellFormed : value.WellFormed) (json : Json) :
    printed value ≠ taggedJson "unserializable" json := by
  intro same
  have primitive : shape value = .primitive := by
    rw [← shapeBehind_printed free wellFormed, same]
    rfl
  cases value with
  | primitive p =>
    rw [printed_primitive] at same
    -- null is no tagged value, and the other tags are the types
    split at same <;>
      first
        | exact absurd (taggedJson_inj.mp same).1 (by decide)
        | cases same
  | _ => cases primitive

/- Two arguments are written alike exactly when their views are the same. -/
theorem argumentTree_iff {a b : JsValue} (wellFormed : a.WellFormed) (wellFormed' : b.WellFormed) :
    argumentTree a = argumentTree b ↔ Alike a b := by
  unfold Alike argumentTree argumentView
  by_cases undef : a.isUndefined = true
  · by_cases undef' : b.isUndefined = true
    · simp [undef, undef', ArgumentView.Same]
    · rw [if_pos undef, if_pos undef, if_neg undef', if_neg undef']
      split <;> simp [ArgumentView.Same]
  · rw [if_neg undef, if_neg undef]
    by_cases undef' : b.isUndefined = true
    · rw [if_pos undef', if_pos undef']
      split <;> simp [ArgumentView.Same]
    · rw [if_neg undef', if_neg undef']
      by_cases free : a.everywhere noBigint = true <;> by_cases free' : b.everywhere noBigint = true
      · rw [if_pos free, if_pos free, if_pos free', if_pos free', Option.some.injEq]
        exact printed_iff free free' wellFormed wellFormed'
      · rw [if_pos free, if_pos free, if_neg free', if_neg free', Option.some.injEq]
        exact iff_of_false (printed_not_unserializable free wellFormed _) id
      · rw [if_neg free, if_neg free, if_pos free', if_pos free', Option.some.injEq]
        exact iff_of_false (fun same => printed_not_unserializable free' wellFormed' _ same.symm) id
      · rw [if_neg free, if_neg free, if_neg free', if_neg free', Option.some.injEq, taggedJson_inj,
          Json.string.injEq, JsString.ofString_inj]
        simp [ArgumentView.Same]

theorem cacheKey_inj {className methodName : String} {args args' : List String} :
    cacheKey className methodName args = cacheKey className methodName args' ↔
      String.intercalate ":" args = String.intercalate ":" args' := by
  unfold cacheKey
  dsimp only
  generalize String.intercalate ":" args = serialized
  generalize String.intercalate ":" args' = serialized'
  rw [String.append_right_inj]
  by_cases none : serialized = "" <;> by_cases none' : serialized' = ""
  · simp [none, none']
  · simp [none, none', Ne.symm none']
  · simp [none, none']
  · simp [none, none']

theorem serialized_text (args : List JsValue) :
    (String.intercalate ":" (args.map fun arg => (serializeArg arg).getD "")).toList =
      joined treeText ':' (args.map argumentTree) := by
  rw [String.toList_intercalate, joined, List.map_map, List.map_map]
  congr 1
  exact List.map_congr_left fun arg _ => serializeArg_text arg

/- Keys are equal exactly when the views of the arguments are. -/
theorem argumentsKey_iff (className methodName : String) {a b : List JsValue}
    (wellFormed : ∀ arg ∈ a, arg.WellFormed) (wellFormed' : ∀ arg ∈ b, arg.WellFormed) :
    argumentsKey className methodName a none = argumentsKey className methodName b none ↔
      List.Forall₂ Alike (given a) (given b) := by
  have filled (args : List JsValue) : joined treeText ':' (args.map argumentTree) =
      joined treeText ':' ((given args).map argumentTree) := by cases args <;> rfl
  have some_given (args : List JsValue) : (given args).map argumentTree ≠ [] := by
    cases args <;> simp [given]
  have kept {args : List JsValue} (all : ∀ arg ∈ args, arg.WellFormed) :
      ∀ arg ∈ given args, arg.WellFormed := by
    cases args with
    | nil => simp [given, WellFormed, everywhere, keysDiffer]
    | cons arg args => exact all
  calc argumentsKey className methodName a none = argumentsKey className methodName b none
      ↔ joined treeText ':' (a.map argumentTree) = joined treeText ':' (b.map argumentTree) := by
        rw [← serialized_text, ← serialized_text, String.toList_inj]
        exact cacheKey_inj
    _ ↔ (given a).map argumentTree = (given b).map argumentTree := by
        rw [filled a, filled b]
        exact joined_inj treeText_delimited (some_given a) (some_given b)
    _ ↔ List.Forall₂ Alike (given a) (given b) := by
        rw [← List.forall₂_eq_eq_eq, List.forall₂_map_left_iff, List.forall₂_map_right_iff]
        exact forall₂_iff fun arg member arg' member' =>
          argumentTree_iff (kept wellFormed arg member) (kept wellFormed' arg' member')

end Texts

/- Calls of one method with different arguments share an entry exactly when the difference is
   one that texts do not tell: one undefined argument or none, NaN and the infinities, undefined
   or null inside an array, members that are undefined, and arguments holding bigints. -/
theorem keys_tell_arguments_iff (className methodName : String) (a b : List Argument) :
    (argumentsKey className methodName (a.map Subtype.val) none =
        argumentsKey className methodName (b.map Subtype.val) none →
      List.Forall₂ JsValue.Same (a.map Subtype.val) (b.map Subtype.val)) ↔
    ¬ Confused (a.map Subtype.val) (b.map Subtype.val) := by
  have wellFormed (args : List Argument) : ∀ arg ∈ args.map Subtype.val, arg.WellFormed := by
    intro arg member
    obtain ⟨source, _, rfl⟩ := List.mem_map.mp member
    exact source.property
  rw [argumentsKey_iff className methodName (wellFormed a) (wellFormed b), Confused, not_and_not_right]

/- NaN and infinity are both written null. -/
theorem nan_shares_with_infinity :
    ¬ ∀ (className methodName : String) (a b : List Argument),
      argumentsKey className methodName (a.map Subtype.val) none =
        argumentsKey className methodName (b.map Subtype.val) none →
      List.Forall₂ JsValue.Same (a.map Subtype.val) (b.map Subtype.val) := by
  intro all
  have same := all "PortfolioService" "getSummary" [⟨.primitive (.number .nan), rfl⟩]
    [⟨.primitive (.number (.infinity false)), rfl⟩] rfl
  simp [JsValue.Same, Primitive.unsigned, JsNumeric.unsigned] at same

end AstraPort.Cache
