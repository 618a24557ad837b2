import Mathlib.Logic.Relation

/- Deterministic machines driven from outside. An input is offered; the machine
   refuses it or moves and answers. All choices of an environment (clock readings,
   fresh names, failures, which task runs next) are part of the input, so a run is
   one interleaving. Histories list the exchanges newest first. -/
namespace AstraPort

structure Machine (State Input Output : Type) where
  init : State
  step : State → Input → Option (State × Output)

/-- A point of a run: everything exchanged so far and the state it led to. -/
structure Moment (State Input Output : Type) where
  past : List (Input × Output)
  state : State

namespace Machine
variable {State Input Output : Type}

/-- What the environment may offer, given the past and the present state. -/
abbrev Permit (State Input Output : Type) := List (Input × Output) → State → Input → Prop

def anything : Permit State Input Output := fun _ _ _ => True

inductive Step (M : Machine State Input Output) (permit : Permit State Input Output) :
    Moment State Input Output → Moment State Input Output → Prop where
  | move {past : List (Input × Output)} {s s' : State} {i : Input} {o : Output}
      (ok : permit past s i) (moved : M.step s i = some (s', o)) :
      Step M permit ⟨past, s⟩ ⟨(i, o) :: past, s'⟩

def Reaches (M : Machine State Input Output) (permit : Permit State Input Output) :
    Moment State Input Output → Moment State Input Output → Prop :=
  Relation.ReflTransGen (Step M permit)

def Run (M : Machine State Input Output) (permit : Permit State Input Output)
    (past : List (Input × Output)) (s : State) : Prop :=
  Reaches M permit ⟨[], M.init⟩ ⟨past, s⟩

variable {M : Machine State Input Output} {permit : Permit State Input Output}

theorem Reaches.preserves {a b : Moment State Input Output} (run : Reaches M permit a b)
    (good : List (Input × Output) → State → Prop) (start : good a.past a.state)
    (keep : ∀ {past s i s' o}, good past s → permit past s i → M.step s i = some (s', o) →
      good ((i, o) :: past) s') : good b.past b.state := by
  induction run with
  | refl => exact start
  | tail before last ih =>
    cases last with
    | move ok moved => exact keep ih ok moved

/- Invariant rule: true at the start and kept by every permitted move. The run up
   to the move is at hand, so invariants proved before may be used. -/
theorem Run.invariant {past : List (Input × Output)} {s : State} (run : Run M permit past s)
    (good : List (Input × Output) → State → Prop) (start : good [] M.init)
    (keep : ∀ {past s i s' o}, Run M permit past s → good past s → permit past s i →
      M.step s i = some (s', o) → good ((i, o) :: past) s') : good past s := by
  have both : Run M permit past s ∧ good past s := by
    refine Reaches.preserves run (fun past s => Run M permit past s ∧ good past s)
      ⟨Relation.ReflTransGen.refl, start⟩ ?_
    intro past s i s' o known ok moved
    exact ⟨known.1.tail (Step.move ok moved), keep known.1 known.2 ok moved⟩
  exact both.2

theorem Run.start : Run M permit [] M.init := Relation.ReflTransGen.refl

theorem Run.next {past : List (Input × Output)} {s s' : State} {i : Input} {o : Output}
    (run : Run M permit past s) (ok : permit past s i) (moved : M.step s i = some (s', o)) :
    Run M permit ((i, o) :: past) s' := run.tail (Step.move ok moved)

theorem Run.weaken {weaker : Permit State Input Output} {past : List (Input × Output)}
    {s : State} (run : Run M permit past s)
    (imp : ∀ {past s i}, Run M permit past s → permit past s i → weaker past s i) :
    Run M weaker past s :=
  run.invariant (Run M weaker) Run.start
    fun before known ok moved => known.next (imp before ok) moved

/- What an exchange of a run establishes and every later move keeps holds at the end. -/
theorem Run.after {past : List (Input × Output)} {s : State} (run : Run M permit past s)
    {later earlier : List (Input × Output)} {i : Input} {o : Output}
    (split : past = later ++ (i, o) :: earlier) (good : List (Input × Output) → State → Prop)
    (made : ∀ {before after}, Run M permit earlier before → permit earlier before i →
      M.step before i = some (after, o) → good [] after)
    (keep : ∀ {later s j s' p}, Run M permit (later ++ (i, o) :: earlier) s → good later s →
      permit (later ++ (i, o) :: earlier) s j → M.step s j = some (s', p) →
      good ((j, p) :: later) s') : good later s := by
  refine run.invariant (fun past s => ∀ later, past = later ++ (i, o) :: earlier → good later s)
    (by simp) ?_ later split
  intro past s j s' p before known ok moved later split
  cases later with
  | nil =>
    simp only [List.nil_append, List.cons.injEq, Prod.mk.injEq] at split
    obtain ⟨⟨rfl, rfl⟩, rfl⟩ := split
    exact made before ok moved
  | cons e later =>
    simp only [List.cons_append, List.cons.injEq] at split
    obtain ⟨rfl, rfl⟩ := split
    exact keep before (known later rfl) ok moved

/- Every exchange of a run was a permitted move at the end of a shorter run. -/
theorem Run.exchange {past : List (Input × Output)} {s : State} (run : Run M permit past s)
    {later earlier : List (Input × Output)} {i : Input} {o : Output}
    (split : past = later ++ (i, o) :: earlier) :
    ∃ before after, Run M permit earlier before ∧ permit earlier before i ∧
      M.step before i = some (after, o) :=
  run.after split (fun _ _ => ∃ before after, Run M permit earlier before ∧
      permit earlier before i ∧ M.step before i = some (after, o))
    (fun before ok moved => ⟨_, _, before, ok, moved⟩) fun _ known _ _ => known

/- The newest exchange is the move that led to the state. -/
theorem Run.newest {past : List (Input × Output)} {s : State} {i : Input} {o : Output}
    (run : Run M permit ((i, o) :: past) s) :
    ∃ before, Run M permit past before ∧ permit past before i ∧ M.step before i = some (s, o) := by
  cases run with
  | tail before last =>
    cases last with
    | move ok moved => exact ⟨_, before, ok, moved⟩

/-- Every move of a history is good, judged by the states it led from and to. -/
def Each (M : Machine State Input Output) (permit : Permit State Input Output)
    (good : State → Input → Output → State → Prop) (past : List (Input × Output)) : Prop :=
  ∀ later i o earlier before after, past = later ++ (i, o) :: earlier →
    Run M permit earlier before → permit earlier before i → M.step before i = some (after, o) →
    good before i o after

theorem Each.imp {good better : State → Input → Output → State → Prop}
    {past : List (Input × Output)} (each : Each M permit good past)
    (imp : ∀ {past s i s' o}, Run M permit past s → permit past s i → M.step s i = some (s', o) →
      good s i o s' → better s i o s') : Each M permit better past :=
  fun later i o earlier before after split run ok moved =>
    imp run ok moved (each later i o earlier before after split run ok moved)

theorem Each.suffix {good : State → Input → Output → State → Prop}
    {past later earlier : List (Input × Output)} {e : Input × Output}
    (each : Each M permit good past) (split : past = later ++ e :: earlier) :
    Each M permit good earlier := by
  intro more i o rest before after inner run ok moved
  refine each (later ++ e :: more) i o rest before after ?_ run ok moved
  rw [split, inner, List.append_assoc, List.cons_append]

theorem each_congr {good better : State → Input → Output → State → Prop}
    {past : List (Input × Output)}
    (same : ∀ {past s i s' o}, Run M permit past s → permit past s i → M.step s i = some (s', o) →
      (good s i o s' ↔ better s i o s')) : Each M permit good past ↔ Each M permit better past :=
  ⟨fun each => each.imp fun run ok moved => (same run ok moved).mp,
   fun each => each.imp fun run ok moved => (same run ok moved).mpr⟩

/-- Executable runs: the inputs in order, each checked against the permit. -/
def play (M : Machine State Input Output) (permit : Permit State Input Output)
    [∀ past s i, Decidable (permit past s i)] :
    Moment State Input Output → List Input → Option (Moment State Input Output)
  | m, [] => some m
  | m, i :: rest =>
    if permit m.past m.state i then
      match M.step m.state i with
      | some (s', o) => play M permit ⟨(i, o) :: m.past, s'⟩ rest
      | none => none
    else none

theorem play_reaches [∀ past s i, Decidable (permit past s i)] {inputs : List Input}
    {a b : Moment State Input Output} (played : play M permit a inputs = some b) :
    Reaches M permit a b := by
  induction inputs generalizing a with
  | nil =>
    simp only [play, Option.some.injEq] at played
    subst b
    exact Relation.ReflTransGen.refl
  | cons i rest ih =>
    simp only [play] at played
    split at played
    · rename_i ok
      cases moved : M.step a.state i with
      | none => simp [moved] at played
      | some answer =>
        simp only [moved] at played
        exact Relation.ReflTransGen.head (Step.move ok moved) (ih played)
    · simp at played

theorem play_run [∀ past s i, Decidable (permit past s i)] {inputs : List Input}
    {past : List (Input × Output)} {s : State}
    (played : play M permit ⟨[], M.init⟩ inputs = some ⟨past, s⟩) : Run M permit past s :=
  play_reaches played

/- A history is that of a run when its own inputs replay it. -/
theorem replayed (M : Machine State Input Output) (permit : Permit State Input Output)
    [∀ past s i, Decidable (permit past s i)] (past : List (Input × Output))
    (again : (play M permit ⟨[], M.init⟩ (past.reverse.map Prod.fst)).map Moment.past = some past) :
    ∃ s, Run M permit past s := by
  obtain ⟨moment, played, rfl⟩ := Option.map_eq_some_iff.mp again
  exact ⟨moment.state, play_run played⟩

theorem play_append [∀ past s i, Decidable (permit past s i)] (inputs more : List Input)
    (m : Moment State Input Output) : play M permit m (inputs ++ more) =
      (play M permit m inputs).bind fun reached => play M permit reached more := by
  induction inputs generalizing m with
  | nil => rfl
  | cons i rest ih =>
    rw [List.cons_append]
    simp only [play]
    split
    · cases M.step m.state i with
      | none => rfl
      | some answer => exact ih _
    · rfl

instance (past : List (Input × Output)) (s : State) (i : Input) :
    Decidable (anything past s i) := isTrue trivial

/- The inputs of a run, played again, give the same run. -/
theorem Run.replays {past : List (Input × Output)} {s : State} (run : Run M permit past s) :
    play M anything ⟨[], M.init⟩ (past.reverse.map Prod.fst) = some ⟨past, s⟩ := by
  refine run.invariant (fun past s =>
    play M anything ⟨[], M.init⟩ (past.reverse.map Prod.fst) = some ⟨past, s⟩) rfl ?_
  intro past s i s' o _ known _ moved
  rw [List.reverse_cons, List.map_append, play_append, known]
  simp [play, anything, moved]

/- The machine is deterministic: a history leads to one state. -/
theorem Run.state_unique {past : List (Input × Output)} {s t : State} (run : Run M permit past s)
    (again : Run M permit past t) : s = t := by
  have same := run.replays.symm.trans again.replays
  exact (Moment.mk.inj (Option.some.inj same)).2

theorem each_nil {good : State → Input → Output → State → Prop} : Each M permit good [] := by
  intro later i o earlier before after split
  simp at split

theorem Run.each_cons {good : State → Input → Output → State → Prop}
    {past : List (Input × Output)} {s s' : State} {i : Input} {o : Output}
    (run : Run M permit past s) (ok : permit past s i) (moved : M.step s i = some (s', o)) :
    Each M permit good ((i, o) :: past) ↔ good s i o s' ∧ Each M permit good past := by
  constructor
  · intro each
    refine ⟨each [] i o past s s' rfl run ok moved, ?_⟩
    intro later j p earlier before after split
    exact each ((i, o) :: later) j p earlier before after (by rw [split, List.cons_append])
  · rintro ⟨newest, each⟩ later j p earlier before after split reached permitted stepped
    cases later with
    | nil =>
      simp only [List.nil_append, List.cons.injEq, Prod.mk.injEq] at split
      obtain ⟨⟨rfl, rfl⟩, rfl⟩ := split
      obtain rfl := run.state_unique reached
      obtain ⟨rfl, _⟩ := Prod.mk.inj (Option.some.inj (moved.symm.trans stepped))
      exact newest
    | cons e later =>
      simp only [List.cons_append, List.cons.injEq] at split
      exact each later j p earlier before after split.2 reached permitted stepped

/- A run whose environment also keeps to a condition on each move is one of good moves. -/
theorem Run.each_of_permit {good : State → Input → Prop} {past : List (Input × Output)} {s : State}
    (run : Run M (fun past s i => permit past s i ∧ good s i) past s) :
    Run M permit past s ∧ Each M permit (fun s i _ _ => good s i) past := by
  refine run.invariant (fun past s =>
    Run M permit past s ∧ Each M permit (fun s i _ _ => good s i) past) ⟨Run.start, each_nil⟩ ?_
  intro past s i s' o _ known ok moved
  exact ⟨known.1.next ok.1 moved, (known.1.each_cons ok.1 moved).mpr ⟨ok.2, known.2⟩⟩

/-- Something holds at every moment of a history, the present one included. -/
def Always (M : Machine State Input Output) (permit : Permit State Input Output)
    (good : List (Input × Output) → State → Prop) (past : List (Input × Output)) : Prop :=
  ∀ later earlier s, past = later ++ earlier → Run M permit earlier s → good earlier s

theorem Run.at_end {good : List (Input × Output) → State → Prop} {past : List (Input × Output)}
    {s : State} (run : Run M permit past s) (always : Always M permit good past) : good past s :=
  always [] past s rfl run

theorem always_nil {good : List (Input × Output) → State → Prop} :
    Always M permit good [] ↔ good [] M.init := by
  constructor
  · exact fun always => Run.start.at_end always
  · intro start later earlier s split reached
    obtain ⟨rfl, rfl⟩ := List.append_eq_nil_iff.mp split.symm
    exact Run.start.state_unique reached ▸ start

theorem Run.always_cons {good : List (Input × Output) → State → Prop}
    {past : List (Input × Output)} {s s' : State} {i : Input} {o : Output}
    (run : Run M permit past s) (ok : permit past s i) (moved : M.step s i = some (s', o)) :
    Always M permit good ((i, o) :: past) ↔
      good ((i, o) :: past) s' ∧ Always M permit good past := by
  constructor
  · intro always
    refine ⟨(run.next ok moved).at_end always, ?_⟩
    intro later earlier t split reached
    exact always ((i, o) :: later) earlier t (by rw [split, List.cons_append]) reached
  · rintro ⟨present, always⟩ later earlier t split reached
    cases later with
    | nil =>
      obtain rfl : (i, o) :: past = earlier := split
      exact (run.next ok moved).state_unique reached ▸ present
    | cons e later =>
      simp only [List.cons_append, List.cons.injEq] at split
      exact always later earlier t split.2 reached

/- When a move from a good moment leads to a good one exactly if it is fine, every moment
   of a run is good exactly if all its moves are fine. -/
theorem Run.always_iff_each {good : List (Input × Output) → State → Prop}
    {fine : State → Input → Output → State → Prop} {past : List (Input × Output)} {s : State}
    (run : Run M permit past s) (start : good [] M.init)
    (move : ∀ {past s i s' o}, Run M permit past s → good past s → permit past s i →
      M.step s i = some (s', o) → (good ((i, o) :: past) s' ↔ fine s i o s')) :
    Always M permit good past ↔ Each M permit fine past := by
  refine run.invariant (fun past _ => Always M permit good past ↔ Each M permit fine past)
    (iff_of_true (always_nil.mpr start) each_nil) ?_
  intro past s i s' o before same ok moved
  rw [before.always_cons ok moved, before.each_cons ok moved, ← same]
  exact and_congr_left fun always => move before (before.at_end always) ok moved

/- Forward simulation: when related states answer alike, every history of the
   concrete machine, seen through the two views, is a history of the abstract one. -/
theorem Run.simulated {State' Input' Output' : Type} {N : Machine State' Input' Output'}
    (seen : Input → Input') (shown : Output → Output')
    (related : List (Input × Output) → State → State' → Prop)
    {past : List (Input × Output)} {s : State} (run : Run M permit past s)
    (start : related [] M.init N.init)
    (forward : ∀ {past s t i s' o}, Run M permit past s → related past s t → permit past s i →
      M.step s i = some (s', o) →
      ∃ t', N.step t (seen i) = some (t', shown o) ∧ related ((i, o) :: past) s' t') :
    ∃ t, Run N anything (past.map (Prod.map seen shown)) t ∧ related past s t := by
  refine run.invariant
    (fun past s => ∃ t, Run N anything (past.map (Prod.map seen shown)) t ∧
      related past s t) ⟨N.init, Run.start, start⟩ ?_
  intro past s i s' o before known ok moved
  obtain ⟨t, abstractRun, rel⟩ := known
  obtain ⟨t', answered, rel'⟩ := forward before rel ok moved
  exact ⟨t', abstractRun.next trivial answered, rel'⟩

/- Unwinding: when the inputs taken out of a run leave no trace that the others could
   see, those can be played without them and the answers seen are the same. -/
theorem Run.purged (kept seen : Input → Bool)
    (visible : ∀ i, seen i = true → kept i = true)
    (related : List (Input × Output) → State → State → Prop)
    {past : List (Input × Output)} {s : State} (run : Run M permit past s)
    (start : related [] M.init M.init)
    (silent : ∀ {past s t i s' o}, related past s t → permit past s i →
      M.step s i = some (s', o) → kept i = false → related ((i, o) :: past) s' t)
    (forward : ∀ {past s t i s' o}, related past s t → permit past s i →
      M.step s i = some (s', o) → kept i = true →
      ∃ t' o', M.step t i = some (t', o') ∧ (seen i = true → o' = o) ∧
        related ((i, o) :: past) s' t') :
    ∃ past' t, Run M anything past' t ∧ related past s t ∧
      past'.map Prod.fst = (past.map Prod.fst).filter kept ∧
      (past'.filter fun e => seen e.1) = past.filter fun e => seen e.1 := by
  refine run.invariant (fun past s => ∃ past' t, Run M anything past' t ∧ related past s t ∧
    past'.map Prod.fst = (past.map Prod.fst).filter kept ∧
    (past'.filter fun e => seen e.1) = past.filter fun e => seen e.1)
    ⟨[], M.init, Run.start, start, rfl, rfl⟩ ?_
  rintro past s i s' o - ⟨past', t, purged, rel, inputs, answers⟩ ok moved
  cases stays : kept i with
  | false =>
    have hidden : seen i = false := by
      cases shown : seen i with
      | false => rfl
      | true => rw [visible i shown] at stays; cases stays
    refine ⟨past', t, purged, silent rel ok moved stays, ?_, ?_⟩
    · rw [List.map_cons, List.filter_cons_of_neg (by simp [stays]), inputs]
    · rw [answers, List.filter_cons_of_neg (by simp [hidden])]
  | true =>
    obtain ⟨t', o', again, same, rel'⟩ := forward rel ok moved stays
    refine ⟨(i, o') :: past', t', purged.next trivial again, rel', ?_, ?_⟩
    · rw [List.map_cons, List.map_cons, List.filter_cons_of_pos stays, inputs]
    · cases shown : seen i with
      | false => simp [shown, answers]
      | true => simp [shown, same shown, answers]

/-- Clocks that never run backwards: the reading offered is at least every earlier one. -/
def ClockAdvances {Time : Type} [LE Time] (clock : Input → Time) : Permit State Input Output :=
  fun past _ i => ∀ e ∈ past, clock e.1 ≤ clock i

instance {Time : Type} [LE Time] [DecidableLE Time] (clock : Input → Time)
    (past : List (Input × Output)) (s : State) (i : Input) :
    Decidable (ClockAdvances clock past s i) :=
  inferInstanceAs (Decidable (∀ e ∈ past, clock e.1 ≤ clock i))

end Machine
end AstraPort
