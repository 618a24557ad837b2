import Mathlib.Data.List.Forall2

/- Computations that may throw, read backwards: where a result came out, every part gave one. -/
namespace AstraPort.Throwing

universe u
variable {Thrown : Type*} {Item : Type*} {Value Result : Type u}

theorem bind_ok {computed : Except Thrown Value} {next : Value → Except Thrown Result}
    {result : Result} (answered : (computed >>= next) = .ok result) :
    ∃ value, computed = .ok value ∧ next value = .ok result := by
  cases computed with
  | error thrown => cases answered
  | ok value => exact ⟨value, rfl, answered⟩

theorem forM_ok {check : Item → Except Thrown PUnit} {items : List Item}
    (passed : items.forM check = .ok ⟨⟩) : ∀ item ∈ items, check item = .ok ⟨⟩ := by
  induction items with
  | nil => exact fun item member => absurd member List.not_mem_nil
  | cons first rest ih =>
    obtain ⟨_, here, later⟩ := bind_ok passed
    exact List.forall_mem_cons.mpr ⟨here, ih later⟩

theorem mapM_ok {make : Item → Except Thrown Value} {items : List Item} {values : List Value}
    (made : items.mapM make = .ok values) :
    List.Forall₂ (fun item value => make item = .ok value) items values := by
  induction items generalizing values with
  | nil =>
    cases made
    exact .nil
  | cons first rest ih =>
    rw [List.mapM_cons] at made
    obtain ⟨value, here, made⟩ := bind_ok made
    obtain ⟨others, later, made⟩ := bind_ok made
    cases made
    exact .cons here (ih later)

theorem mapM_mem {make : Item → Except Thrown Value} {items : List Item} {values : List Value}
    (made : items.mapM make = .ok values) {value : Value} (member : value ∈ values) :
    ∃ item ∈ items, make item = .ok value := by
  have paired := mapM_ok made
  clear made
  induction paired with
  | nil => cases member
  | cons here _ ih =>
    rcases List.mem_cons.mp member with rfl | later
    · exact ⟨_, List.mem_cons_self, here⟩
    · obtain ⟨item, listed, found⟩ := ih later
      exact ⟨item, List.mem_cons_of_mem _ listed, found⟩

end AstraPort.Throwing
