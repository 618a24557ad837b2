import Mathlib.Data.List.Basic

/- Texts joined by a separator. They can be taken apart again when each can be told from the
   others in front of a separator, and at the end. -/
namespace AstraPort
variable {Piece Symbol : Type} {text : Piece → List Symbol} {separator : Symbol}

/-- Nothing follows, or the separator does. -/
def Closes (separator : Symbol) (rest : List Symbol) : Prop := ∀ s ∈ rest.head?, s = separator

def Delimited (text : Piece → List Symbol) (separator : Symbol) : Prop :=
  ∀ p q rest rest', Closes separator rest → Closes separator rest' →
    text p ++ rest = text q ++ rest' → p = q ∧ rest = rest'

def joined (text : Piece → List Symbol) (separator : Symbol) (pieces : List Piece) : List Symbol :=
  [separator].intercalate (pieces.map text)

/-- What follows the first piece. -/
def behind (text : Piece → List Symbol) (separator : Symbol) : List Piece → List Symbol
  | [] => []
  | p :: ps => separator :: joined text separator (p :: ps)

theorem joined_cons (p : Piece) (ps : List Piece) :
    joined text separator (p :: ps) = text p ++ behind text separator ps := by
  cases ps with
  | nil => simp [joined, behind]
  | cons q qs => simp [joined, behind, List.intercalate_cons_cons]

theorem behind_closes (ps : List Piece) : Closes separator (behind text separator ps) := by
  cases ps <;> simp [Closes, behind]

/- Delimited pieces are known from what they are joined to, if there are any. -/
theorem joined_inj (delimited : Delimited text separator) {ps qs : List Piece}
    (given : ps ≠ []) (given' : qs ≠ []) :
    joined text separator ps = joined text separator qs ↔ ps = qs := by
  refine ⟨?_, fun same => by rw [same]⟩
  induction ps generalizing qs with
  | nil => exact absurd rfl given
  | cons p ps ih =>
    cases qs with
    | nil => exact absurd rfl given'
    | cons q qs =>
      intro same
      rw [joined_cons, joined_cons] at same
      obtain ⟨rfl, rests⟩ := delimited p q _ _ (behind_closes ps) (behind_closes qs) same
      cases ps with
      | nil =>
        cases qs with
        | nil => rfl
        | cons r rs => cases rests
      | cons p' ps =>
        cases qs with
        | nil => cases rests
        | cons q' qs =>
          obtain ⟨_, texts⟩ := List.cons.inj rests
          rw [ih (List.cons_ne_nil _ _) (List.cons_ne_nil _ _) texts]

end AstraPort
