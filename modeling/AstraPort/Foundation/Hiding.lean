import AstraPort.Foundation.JsValue

/- The places inside a value, and values that differ in nothing but what stands under hidden
   keys. Which keys are hidden may depend on how deep the object is that has them. -/
namespace AstraPort

/-- One step into a value. -/
inductive Step where
  | index (position : Nat)
  | key (name : JsString)
  deriving DecidableEq

namespace JsValue

def child : JsValue → Step → Option JsValue
  | .array items, .index position => items[position]?
  | .object members, .key name => (members.find? fun m => m.1 = name).map Prod.snd
  | _, _ => none

/-- The value at the end of a path, if the path leads anywhere. -/
def follow : List Step → JsValue → Option JsValue
  | [], value => some value
  | step :: path, value => (value.child step).bind (follow path)

/-- Arrays of one length, objects with the same keys in the same order, or equal leaves. -/
def SameForm : JsValue → JsValue → Prop
  | .array items, .array others => items.length = others.length
  | .object members, .object others => members.map Prod.fst = others.map Prod.fst
  | value, other => value = other

mutual
/-- Values at a depth that are the same outside the members whose keys are hidden. -/
def Alike (hides : Nat → JsString → Bool) (depth : Nat) : JsValue → JsValue → Prop
  | .primitive p, other => other = .primitive p
  | .date d, other => other = .date d
  | .array items, other => ∃ others, other = .array others ∧
      ItemsAlike hides (depth + 1) items others
  | .object members, other => ∃ others, other = .object others ∧
      MembersAlike hides depth members others

def ItemsAlike (hides : Nat → JsString → Bool) (depth : Nat) :
    List JsValue → List JsValue → Prop
  | [], others => others = []
  | item :: items, others => ∃ other rest, others = other :: rest ∧
      Alike hides depth item other ∧ ItemsAlike hides depth items rest

def MembersAlike (hides : Nat → JsString → Bool) (depth : Nat) :
    List (JsString × JsValue) → List (JsString × JsValue) → Prop
  | [], others => others = []
  | (key, value) :: members, others => ∃ other rest, others = (key, other) :: rest ∧
      (hides depth key = true ∨ Alike hides (depth + 1) value other) ∧
      MembersAlike hides depth members rest
end

section Alikeness
variable {hides : Nat → JsString → Bool} {depth : Nat}

/-- Members of one key, with alike values where the key is not hidden. -/
def MemberAlike (hides : Nat → JsString → Bool) (depth : Nat) (m n : JsString × JsValue) : Prop :=
  m.1 = n.1 ∧ (hides depth m.1 = true ∨ Alike hides (depth + 1) m.2 n.2)

theorem itemsAlike_iff {items others : List JsValue} :
    ItemsAlike hides depth items others ↔ List.Forall₂ (Alike hides depth) items others := by
  induction items generalizing others with
  | nil => simp [ItemsAlike]
  | cons item items ih => cases others <;> simp [ItemsAlike, ih]

theorem membersAlike_iff {members others : List (JsString × JsValue)} :
    MembersAlike hides depth members others ↔
      List.Forall₂ (MemberAlike hides depth) members others := by
  induction members generalizing others with
  | nil => simp [MembersAlike]
  | cons m members ih =>
    cases others with
    | nil => simp [MembersAlike]
    | cons n others =>
      simp only [MembersAlike, ih, MemberAlike, List.forall₂_cons]
      constructor
      · rintro ⟨other, rest, same, hidden, more⟩
        cases same
        exact ⟨⟨rfl, hidden⟩, more⟩
      · rintro ⟨⟨same, hidden⟩, more⟩
        exact ⟨n.2, others, by rw [same], hidden, more⟩

theorem alike_array {items others : List JsValue} :
    Alike hides depth (.array items) (.array others) ↔
      List.Forall₂ (Alike hides (depth + 1)) items others := by
  simp [Alike, itemsAlike_iff]

theorem alike_object {members others : List (JsString × JsValue)} :
    Alike hides depth (.object members) (.object others) ↔
      List.Forall₂ (MemberAlike hides depth) members others := by
  simp [Alike, membersAlike_iff]

theorem alike_refl (depth : Nat) (value : JsValue) : Alike hides depth value value := by
  induction value generalizing depth with
  | primitive p => rw [Alike]
  | date d => rw [Alike]
  | array items ih =>
    rw [alike_array, List.forall₂_same]
    exact fun item member => ih item member (depth + 1)
  | object members ih =>
    rw [alike_object, List.forall₂_same]
    exact fun m member => ⟨rfl, Or.inr (ih m member (depth + 1))⟩

/- Where nothing is hidden from a depth on, alike values are the same. -/
theorem alike_eq {value other : JsValue} (shown : ∀ d ≥ depth, ∀ key, hides d key = false)
    (alike : Alike hides depth value other) : value = other := by
  induction value generalizing depth other with
  | primitive p =>
    rw [Alike] at alike
    exact alike.symm
  | date d =>
    rw [Alike] at alike
    exact alike.symm
  | array items ih =>
    rw [Alike] at alike
    obtain ⟨others, rfl, pairs⟩ := alike
    rw [itemsAlike_iff, List.forall₂_iff_zip] at pairs
    have same : List.Forall₂ Eq items others := List.forall₂_iff_zip.mpr ⟨pairs.1, fun {a b} pair =>
      ih a (List.of_mem_zip pair).1 (fun d deeper => shown d (by omega)) (pairs.2 pair)⟩
    rw [List.forall₂_eq_eq_eq] at same
    rw [same]
  | object members ih =>
    rw [Alike] at alike
    obtain ⟨others, rfl, pairs⟩ := alike
    rw [membersAlike_iff, List.forall₂_iff_zip] at pairs
    have same : List.Forall₂ Eq members others := by
      refine List.forall₂_iff_zip.mpr ⟨pairs.1, fun {a b} pair => ?_⟩
      obtain ⟨key, hidden | values⟩ := pairs.2 pair
      · rw [shown depth (Nat.le_refl depth)] at hidden
        cases hidden
      · exact Prod.ext key
          (ih a (List.of_mem_zip pair).1 (fun d deeper => shown d (by omega)) values)
    rw [List.forall₂_eq_eq_eq] at same
    rw [same]

/- What one relation hides from a depth on, another may hide from another depth on. -/
theorem alike_shift {hides' : Nat → JsString → Bool} {depth' : Nat} {value other : JsValue}
    (wider : ∀ n key, hides (depth + n) key = true → hides' (depth' + n) key = true)
    (alike : Alike hides depth value other) : Alike hides' depth' value other := by
  induction value generalizing depth depth' other with
  | primitive p => simpa [Alike] using alike
  | date d => simpa [Alike] using alike
  | array items ih =>
    rw [Alike] at alike
    obtain ⟨others, rfl, pairs⟩ := alike
    rw [itemsAlike_iff, List.forall₂_iff_zip] at pairs
    rw [alike_array, List.forall₂_iff_zip]
    refine ⟨pairs.1, fun {a b} pair => ih a (List.of_mem_zip pair).1 ?_ (pairs.2 pair)⟩
    intro n key hidden
    rw [Nat.add_assoc, Nat.add_comm 1 n] at hidden ⊢
    exact wider (n + 1) key hidden
  | object members ih =>
    rw [Alike] at alike
    obtain ⟨others, rfl, pairs⟩ := alike
    rw [membersAlike_iff, List.forall₂_iff_zip] at pairs
    rw [alike_object, List.forall₂_iff_zip]
    refine ⟨pairs.1, fun {a b} pair => ?_⟩
    obtain ⟨key, hidden | values⟩ := pairs.2 pair
    · exact ⟨key, Or.inl (wider 0 a.1 hidden)⟩
    · refine ⟨key, Or.inr (ih a (List.of_mem_zip pair).1 ?_ values)⟩
      intro n key hidden
      rw [Nat.add_assoc, Nat.add_comm 1 n] at hidden ⊢
      exact wider (n + 1) key hidden

/- A property whose key is not hidden has alike values. -/
theorem child_alike {members others : List (JsString × JsValue)} {name : JsString}
    (shown : hides depth name = false)
    (pairs : List.Forall₂ (MemberAlike hides depth) members others) :
    Option.Rel (Alike hides (depth + 1)) ((object members).child (.key name))
      ((object others).child (.key name)) := by
  unfold child
  induction pairs with
  | nil => exact .none
  | @cons m n members others first more ih =>
    obtain ⟨key, hidden⟩ := first
    by_cases here : m.1 = name
    · rw [here, shown] at hidden
      have there : n.1 = name := key ▸ here
      simpa [here, there] using Option.Rel.some (hidden.resolve_left Bool.false_ne_true)
    · have elsewhere : ¬ n.1 = name := key ▸ here
      simpa [here, elsewhere] using ih

end Alikeness

section Places
variable {test : JsValue → Bool}

theorem follow_concat (path : List Step) (step : Step) (value : JsValue) :
    value.follow (path ++ [step]) = (value.follow path).bind fun inner => inner.child step := by
  induction path generalizing value with
  | nil =>
    show (value.child step).bind (follow []) = value.child step
    exact Option.bind_fun_some _
  | cons first path ih =>
    show (value.child first).bind (follow (path ++ [step])) = _
    rw [follow, Option.bind_assoc]
    congr 1
    funext inner
    exact ih inner

theorem everywhere_here {value : JsValue} (all : value.everywhere test = true) :
    test value = true := by
  cases value with
  | primitive p => exact all
  | date d => exact all
  | array items => exact (everywhere_array.mp all).1
  | object members => exact (everywhere_object.mp all).1

theorem child_everywhere {value inner : JsValue} {step : Step}
    (all : value.everywhere test = true) (found : value.child step = some inner) :
    inner.everywhere test = true := by
  cases value with
  | primitive p => cases step <;> cases found
  | date d => cases step <;> cases found
  | array items =>
    cases step with
    | key name => cases found
    | index position => exact (everywhere_array.mp all).2 inner (List.mem_of_getElem? found)
  | object members =>
    cases step with
    | index position => cases found
    | key name =>
      obtain ⟨m, listed, rfl⟩ := Option.map_eq_some_iff.mp found
      exact (everywhere_object.mp all).2 m (List.mem_of_find?_eq_some listed)

theorem follow_everywhere {path : List Step} {value inner : JsValue}
    (all : value.everywhere test = true) (found : value.follow path = some inner) :
    inner.everywhere test = true := by
  induction path generalizing value with
  | nil =>
    cases found
    exact all
  | cons step path ih =>
    obtain ⟨between, first, more⟩ := Option.bind_eq_some_iff.mp found
    exact ih (child_everywhere all first) more

end Places
end JsValue
end AstraPort
