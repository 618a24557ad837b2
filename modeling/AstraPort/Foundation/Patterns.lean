import Mathlib.Data.List.Basic
import Mathlib.Logic.Relation

/- Regular expressions as ECMAScript runs them, over units of any kind: where a pattern may stop
   from a place in a text, in the order in which backtracking finds it, and the replacement of
   every match with nothing. -/
namespace AstraPort

/-- A place in a text: the unit in front of it and the units from it on. -/
structure Place (α : Type) where
  last : Option α
  rest : List α

inductive Pattern (α : Type) where
  | nothing
  | unit (accepts : α → Bool)
  | seq (first second : Pattern α)
  | many (body : Pattern α)
  | aheadNot (body : Pattern α)
  | boundary (word : α → Bool)

namespace Pattern
variable {α : Type}

/-- The stops of a greedy repetition, those of the most rounds first. A round that takes no
    unit ends nowhere. -/
def rounds (round : Place α → List (Place α)) : Nat → Place α → List (Place α)
  | 0, p => [p]
  | n + 1, p =>
    ((round p).flatMap fun q => if q.rest.length < p.rest.length then rounds round n q else []) ++
      [p]

def stops : Pattern α → Place α → List (Place α)
  | nothing, p => [p]
  | unit accepts, p =>
    match p.rest with
    | [] => []
    | u :: rest => if accepts u then [⟨some u, rest⟩] else []
  | seq first second, p => (stops first p).flatMap (stops second)
  | many body, p => rounds (stops body) p.rest.length p
  | aheadNot body, p => if (stops body p).isEmpty then [p] else []
  | boundary word, p => if p.last.any word != p.rest.head?.any word then [p] else []

/-- One round or more. -/
def atLeastOnce (body : Pattern α) : Pattern α := seq body (many body)

/-- One pattern after the other. -/
def inOrder (patterns : List (Pattern α)) : Pattern α := patterns.foldr seq nothing

/-- The units from a place on without the matches of a pattern: the first match that the search
    finds is left out, and the search goes on behind it. -/
def removeFrom (pattern : Pattern α) : Nat → Place α → List α
  | 0, p => p.rest
  | n + 1, p =>
    match p.rest with
    | [] => []
    | u :: rest =>
      match (pattern.stops p).head? with
      | none => u :: removeFrom pattern n ⟨some u, rest⟩
      | some q =>
        if q.rest.length < p.rest.length then removeFrom pattern n q
        else u :: removeFrom pattern n ⟨some u, rest⟩

/-- text.replace(pattern, '') under the flag g. -/
def removeAll (pattern : Pattern α) (text : List α) : List α :=
  removeFrom pattern text.length ⟨none, text⟩

section Stops
variable {body first second : Pattern α} {p q : Place α}

theorem stops_unit {accepts : α → Bool} : q ∈ stops (unit accepts) p ↔
    ∃ u, accepts u = true ∧ p.rest = u :: q.rest ∧ q.last = some u := by
  obtain ⟨last, rest⟩ := p
  obtain ⟨last', rest'⟩ := q
  cases rest with
  | nil => simp [stops]
  | cons v units =>
    by_cases accepted : accepts v = true
    · simp only [stops, accepted, if_true, List.mem_singleton, Place.mk.injEq, List.cons.injEq]
      constructor
      · rintro ⟨rfl, rfl⟩
        exact ⟨v, accepted, ⟨rfl, rfl⟩, rfl⟩
      · rintro ⟨u, -, ⟨rfl, rfl⟩, rfl⟩
        exact ⟨rfl, rfl⟩
    · simp only [stops, if_neg accepted, List.not_mem_nil, false_iff]
      rintro ⟨u, accepted', parts, -⟩
      cases parts
      exact accepted accepted'

theorem stops_seq : q ∈ stops (seq first second) p ↔
    ∃ r ∈ stops first p, q ∈ stops second r := List.mem_flatMap

theorem stops_inOrder {patterns : List (Pattern α)} :
    q ∈ stops (inOrder (first :: patterns)) p ↔
      ∃ r ∈ stops first p, q ∈ stops (inOrder patterns) r := stops_seq

theorem stops_inOrder_nil : q ∈ stops (inOrder []) p ↔ q = p := List.mem_singleton

/-- A round that takes a unit at least. -/
def Round (body : Pattern α) (p q : Place α) : Prop :=
  q ∈ stops body p ∧ q.rest.length < p.rest.length

theorem rounds_iff {n : Nat} (enough : p.rest.length ≤ n) :
    q ∈ rounds (stops body) n p ↔ Relation.ReflTransGen (Round body) p q := by
  induction n generalizing p with
  | zero =>
    rw [rounds, List.mem_singleton]
    constructor
    · rintro rfl
      exact .refl
    · intro run
      cases run.cases_head with
      | inl same => exact same.symm
      | inr further =>
        obtain ⟨r, round, -⟩ := further
        have fewer := round.2
        omega
  | succ n ih =>
    rw [rounds, List.mem_append, List.mem_flatMap, List.mem_singleton,
      Relation.ReflTransGen.cases_head_iff, or_comm, eq_comm]
    apply or_congr Iff.rfl
    constructor
    · rintro ⟨r, stop, onward⟩
      by_cases fewer : r.rest.length < p.rest.length
      · rw [if_pos fewer] at onward
        exact ⟨r, ⟨stop, fewer⟩, (ih (by omega)).mp onward⟩
      · rw [if_neg fewer] at onward
        cases onward
    · rintro ⟨r, ⟨stop, fewer⟩, onward⟩
      exact ⟨r, stop, by rw [if_pos fewer]; exact (ih (by omega)).mpr onward⟩

theorem stops_many : q ∈ stops (many body) p ↔ Relation.ReflTransGen (Round body) p q :=
  rounds_iff (Nat.le_refl _)

/- What a repeated unit takes. -/
theorem stops_many_unit {accepts : α → Bool} (stop : q ∈ stops (many (unit accepts)) p) :
    ∃ taken, p.rest = taken ++ q.rest ∧ ∀ u ∈ taken, accepts u = true := by
  rw [stops_many] at stop
  induction stop using Relation.ReflTransGen.head_induction_on with
  | refl => exact ⟨[], rfl, by simp⟩
  | head round _ ih =>
    obtain ⟨u, accepted, parts, -⟩ := stops_unit.mp round.1
    obtain ⟨taken, more, all⟩ := ih
    exact ⟨u :: taken, by rw [parts, more]; rfl, by simpa [accepted] using all⟩

theorem many_unit_stops {accepts : α → Bool} {taken after : List α} (parts : p.rest = taken ++ after)
    (all : ∀ u ∈ taken, accepts u = true) :
    ∃ last, ⟨last, after⟩ ∈ stops (many (unit accepts)) p := by
  induction taken generalizing p with
  | nil =>
    refine ⟨p.last, stops_many.mpr ?_⟩
    rw [← show p.rest = after from parts]
  | cons u taken ih =>
    obtain ⟨accepted, all⟩ := List.forall_mem_cons.mp all
    obtain ⟨last, onward⟩ := ih (p := ⟨some u, taken ++ after⟩) rfl all
    have round : Round (unit accepts) p ⟨some u, taken ++ after⟩ := by
      constructor
      · exact stops_unit.mpr ⟨u, accepted, parts, rfl⟩
      · rw [parts]
        simp
    exact ⟨last, stops_many.mpr (.head round (stops_many.mp onward))⟩

/- A match is a piece of the text. -/
theorem stops_behind (stop : q ∈ stops body p) : ∃ taken, p.rest = taken ++ q.rest := by
  induction body generalizing p q with
  | nothing => exact ⟨[], by rw [List.mem_singleton.mp stop]; rfl⟩
  | unit accepts =>
    obtain ⟨u, -, parts, -⟩ := stops_unit.mp stop
    exact ⟨[u], parts⟩
  | seq first second ih ih' =>
    obtain ⟨r, begun, ended⟩ := stops_seq.mp stop
    obtain ⟨front, parts⟩ := ih begun
    obtain ⟨back, parts'⟩ := ih' ended
    exact ⟨front ++ back, by rw [parts, parts', List.append_assoc]⟩
  | many body ih =>
    have run := stops_many.mp stop
    clear stop
    induction run using Relation.ReflTransGen.head_induction_on with
    | refl => exact ⟨[], rfl⟩
    | head round _ ih' =>
      obtain ⟨front, parts⟩ := ih round.1
      obtain ⟨back, parts'⟩ := ih'
      exact ⟨front ++ back, by rw [parts, parts', List.append_assoc]⟩
  | aheadNot body _ =>
    rw [stops] at stop
    split at stop
    · exact ⟨[], by rw [List.mem_singleton.mp stop]; rfl⟩
    · cases stop
  | boundary word =>
    rw [stops] at stop
    split at stop
    · exact ⟨[], by rw [List.mem_singleton.mp stop]; rfl⟩
    · cases stop

end Stops
section Removal
variable {pattern : Pattern α}

/-- The rule of removal: a unit is kept where the search finds nothing to take, and a match is
    left out. -/
theorem removal {motive : Place α → List α → Prop} (ended : ∀ last, motive ⟨last, []⟩ [])
    (kept : ∀ last u rest out,
      (∀ q, (pattern.stops ⟨last, u :: rest⟩).head? = some q → rest.length < q.rest.length) →
      motive ⟨some u, rest⟩ out → motive ⟨last, u :: rest⟩ (u :: out))
    (cut : ∀ p q out, (pattern.stops p).head? = some q → motive q out → motive p out) (text : List α) :
    motive ⟨none, text⟩ (pattern.removeAll text) := by
  have from_any (n : Nat) (p : Place α) (enough : p.rest.length ≤ n) :
      motive p (pattern.removeFrom n p) := by
    induction n generalizing p with
    | zero =>
      obtain ⟨last, rest⟩ := p
      cases List.length_eq_zero_iff.mp (Nat.le_zero.mp enough)
      exact ended last
    | succ n ih =>
      obtain ⟨last, rest⟩ := p
      cases rest with
      | nil => exact ended last
      | cons u rest =>
        have fewer : rest.length ≤ n := Nat.le_of_succ_le_succ enough
        rw [removeFrom]
        cases found : (pattern.stops ⟨last, u :: rest⟩).head? with
        | none => exact kept last u rest _ (by simp [found]) (ih _ fewer)
        | some q =>
          by_cases taken : q.rest.length < (u :: rest).length
          · rw [List.length_cons] at taken
            simp only [List.length_cons, taken, if_true]
            exact cut _ q _ found (ih q (by omega))
          · rw [List.length_cons] at taken
            simp only [List.length_cons, taken, if_false]
            apply kept last u rest _ _ (ih _ fewer)
            intro q' found'
            cases found.symm.trans found'
            omega
  exact from_any text.length ⟨none, text⟩ (Nat.le_refl _)

theorem removeAll_sublist (text : List α) : (pattern.removeAll text).Sublist text := by
  apply removal (motive := fun p out => out.Sublist p.rest)
  · exact fun _ => .slnil
  · exact fun _ u _ _ _ ih => ih.cons_cons u
  · intro p q out found ih
    obtain ⟨taken, parts⟩ := stops_behind (List.mem_of_mem_head? found)
    rw [parts]
    exact ih.trans (List.sublist_append_right taken q.rest)

/- Removing single units is filtering. -/
theorem removeAll_unit (accepts : α → Bool) (text : List α) :
    (unit accepts).removeAll text = text.filter fun u => !accepts u := by
  apply removal (motive := fun p out => out = p.rest.filter fun u => !accepts u)
  · exact fun _ => rfl
  · intro last u rest out none ih
    have refused : accepts u = false := by
      by_contra accepted
      rw [Bool.not_eq_false] at accepted
      have taken := none ⟨some u, rest⟩ (by simp [stops, accepted])
      exact Nat.lt_irrefl _ taken
    simp [ih, refused]
  · intro p q out found ih
    obtain ⟨u, accepted, parts, -⟩ := stops_unit.mp (List.mem_of_mem_head? found)
    simp [parts, accepted, ih]

end Removal
end Pattern
end AstraPort
