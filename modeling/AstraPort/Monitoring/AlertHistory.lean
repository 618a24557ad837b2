import Mathlib.Data.List.Nodup
import AstraPort.Foundation.Recent
import AstraPort.Monitoring.Alerting

/- Rule states against the alert history. A rule fires at every evaluation at which its condition
   holds, whether it is firing already or not, and clearing it resolves one alert only; and an
   open alert can be pushed out of the bounded history by those of other rules. -/
namespace AstraPort.Monitoring
open AlertingService

inductive Verdict where
  | fire
  | resolve
  | rest
  deriving DecidableEq

def verdictOn (rule : AlertRule) (evaluation : Evaluation) : Verdict :=
  if rule.enabled then
    if evaluation.fires rule.threshold then .fire
    else if rule.state = .firing ∧ evaluation.clear rule.threshold then .resolve
    else .rest
  else .rest

/-- What the block of a rule is about to do. -/
def verdict (service : AlertingService) (evaluation : Evaluation) : Verdict :=
  match service.rules.get evaluation.ruleId with
  | none => .rest
  | some rule => verdictOn rule evaluation

def Verdict.next : Verdict → RuleState → RuleState
  | .fire, _ => .firing
  | .resolve, _ => .ok
  | .rest, state => state

def stateOf (service : AlertingService) (ruleId : String) : Option RuleState :=
  (service.rules.get ruleId).map AlertRule.state

/-- Alerts of a rule without a resolution time. -/
def openCount (service : AlertingService) (ruleId : String) : Nat :=
  service.firedAlertsHistory.countP (isOpen ruleId)

/-- A firing rule has one open alert, and any other none. -/
def Matched (service : AlertingService) : Prop :=
  ∀ ruleId state, stateOf service ruleId = some state →
    openCount service ruleId = if state = .firing then 1 else 0

/-- The rules are filed under their ids, and the history is within its bound. -/
structure Filed (service : AlertingService) : Prop where
  named : ∀ ruleId rule, service.rules.get ruleId = some rule → rule.id = ruleId
  bounded : service.firedAlertsHistory.length ≤ maxAlertHistory

theorem unshift_take (alert : FiredAlert) {history : List FiredAlert}
    (bounded : history.length ≤ maxAlertHistory) :
    unshift alert history = (alert :: history).take maxAlertHistory := push_recent alert bounded

/- A view of the alerts that the resolution of one does not change. -/
theorem resolveNewest_map {View : Type} {view : FiredAlert → View} {ruleId : String} {now : Int}
    (blind : ∀ alert, isOpen ruleId alert = true →
      view { alert with resolvedAt := some now } = view alert) (history : List FiredAlert) :
    (resolveNewest ruleId now history).map view = history.map view := by
  induction history with
  | nil => rfl
  | cons alert rest ih =>
    rw [resolveNewest]
    split
    · rename_i mine
      rw [List.map_cons, List.map_cons, blind alert mine]
    · rw [List.map_cons, List.map_cons, ih]

theorem resolveNewest_length (ruleId : String) (now : Int) (history : List FiredAlert) :
    (resolveNewest ruleId now history).length = history.length := by
  have same : (resolveNewest ruleId now history).map (fun _ => ()) = history.map fun _ => () :=
    resolveNewest_map (fun _ _ => rfl) history
  simpa using congrArg List.length same

/-- The places of a rule's open alerts in the history. -/
def marks (ruleId : String) (history : List FiredAlert) : List Bool := history.map (isOpen ruleId)

theorem resolveNewest_marks {ruleId other : String} (apart : other ≠ ruleId) (now : Int)
    (history : List FiredAlert) :
    marks other (resolveNewest ruleId now history) = marks other history := by
  apply resolveNewest_map
  intro alert mine
  simp only [isOpen, decide_eq_true_eq] at mine
  have foreign : ¬ ruleId = other := fun same => apart same.symm
  simp [isOpen, mine.1, foreign]

theorem resolveNewest_count (ruleId : String) (now : Int) (history : List FiredAlert) :
    (resolveNewest ruleId now history).countP (isOpen ruleId) =
      history.countP (isOpen ruleId) - 1 := by
  induction history with
  | nil => rfl
  | cons alert rest ih =>
    rw [resolveNewest]
    split
    · rename_i mine
      have closed : isOpen ruleId { alert with resolvedAt := some now } = false := by simp [isOpen]
      rw [List.countP_cons_of_neg (by simp [closed]), List.countP_cons_of_pos mine]
      rfl
    · rename_i foreign
      rw [List.countP_cons_of_neg foreign, List.countP_cons_of_neg foreign, ih]

section Evaluations
variable {service : AlertingService} {measured : Measurements} {evaluation : Evaluation}

/-- What the block of one rule does. -/
inductive Evaluated (service after : AlertingService) (ruleId : String) : Verdict → Prop where
  | fired (alert : FiredAlert) (opened : isOpen ruleId alert = true)
      (history : after.firedAlertsHistory = unshift alert service.firedAlertsHistory) :
      Evaluated service after ruleId .fire
  | resolved (now : Int)
      (history : after.firedAlertsHistory = resolveNewest ruleId now service.firedAlertsHistory) :
      Evaluated service after ruleId .resolve
  | rested (history : after.firedAlertsHistory = service.firedAlertsHistory) :
      Evaluated service after ruleId .rest

theorem evaluate_others (filed : Filed service) {other : String}
    (apart : other ≠ evaluation.ruleId) :
    (evaluate measured service evaluation).rules.get other = service.rules.get other := by
  unfold evaluate
  split
  · rfl
  · rename_i rule found
    have named := filed.named _ _ found
    have away : other ≠ rule.id := named.symm ▸ apart
    split
    · dsimp only
      split
      · exact InsertionMap.get_set_ne _ _ away
      · split
        · exact InsertionMap.get_set_ne _ _ away
        · exact InsertionMap.get_set_ne _ _ away
    · rfl

/- The block of a rule, its verdict being known. -/
theorem evaluate_spec (filed : Filed service) (measured : Measurements) (evaluation : Evaluation) :
    Evaluated service (evaluate measured service evaluation) evaluation.ruleId
        (verdict service evaluation) ∧
      (∀ rule, (evaluate measured service evaluation).rules.get evaluation.ruleId = some rule →
        rule.id = evaluation.ruleId) ∧
      stateOf (evaluate measured service evaluation) evaluation.ruleId =
        (stateOf service evaluation.ruleId).map (verdict service evaluation).next := by
  unfold evaluate verdict stateOf
  cases found : service.rules.get evaluation.ruleId with
  | none => exact ⟨.rested rfl, by simp [found], by simp [found]⟩
  | some rule =>
    have named := filed.named _ _ found
    dsimp only
    unfold verdictOn
    by_cases enabled : rule.enabled = true
    · rw [if_pos enabled, if_pos enabled]
      by_cases fires : evaluation.fires rule.threshold = true
      · rw [if_pos fires, if_pos fires]
        refine ⟨.fired _ ?_ rfl, ?_, ?_⟩
        · simp [isOpen, named]
        · intro after stored
          simp only [fireAlert, named, InsertionMap.get_set_self, Option.some.injEq] at stored
          rw [← stored]
        · simp [fireAlert, named, Verdict.next]
      · rw [if_neg fires, if_neg fires]
        by_cases clears : rule.state = .firing ∧ evaluation.clear rule.threshold = true
        · rw [if_pos clears, if_pos clears]
          refine ⟨.resolved (measured.actedAt rule.id) ?_, ?_, ?_⟩
          · simp [resolveAlert, named]
          · intro after stored
            simp only [resolveAlert, named, InsertionMap.get_set_self, Option.some.injEq] at stored
            rw [← stored]
          · simp [resolveAlert, named, Verdict.next]
        · rw [if_neg clears, if_neg clears]
          refine ⟨.rested rfl, ?_, ?_⟩
          · intro after stored
            simp only [named, InsertionMap.get_set_self, Option.some.injEq] at stored
            rw [← stored]
          · simp [named, Verdict.next]
    · rw [if_neg enabled, if_neg enabled]
      refine ⟨.rested rfl, fun after stored => ?_, by simp [found, Verdict.next]⟩
      rw [found, Option.some.injEq] at stored
      rw [← stored, named]

theorem Filed.evaluate (filed : Filed service) (measured : Measurements) (evaluation : Evaluation) :
    Filed (AlertingService.evaluate measured service evaluation) := by
  obtain ⟨history, named, _⟩ := evaluate_spec filed measured evaluation
  generalize verdict service evaluation = decided at history
  constructor
  · intro ruleId rule found
    by_cases own : ruleId = evaluation.ruleId
    · exact own ▸ named rule (own ▸ found)
    · exact filed.named ruleId rule (evaluate_others filed own ▸ found)
  · have bounded := filed.bounded
    cases history with
    | fired alert opened history =>
      rw [history, unshift_take alert bounded]
      exact List.length_take_le _ _
    | resolved now history => rwa [history, resolveNewest_length]
    | rested history => rwa [history]

theorem verdict_congr {service other : AlertingService} {evaluation : Evaluation}
    (same : other.rules.get evaluation.ruleId = service.rules.get evaluation.ruleId) :
    verdict other evaluation = verdict service evaluation := by
  rw [verdict, verdict, same]

/-- How many rules fire in one run. -/
def firedBy (service : AlertingService) (evaluations : List Evaluation) : Nat :=
  evaluations.countP fun evaluation => verdict service evaluation = .fire

theorem firedBy_congr {service other : AlertingService} {evaluations : List Evaluation}
    (same : ∀ evaluation ∈ evaluations,
      other.rules.get evaluation.ruleId = service.rules.get evaluation.ruleId) :
    firedBy other evaluations = firedBy service evaluations :=
  List.countP_congr fun evaluation member => by rw [verdict_congr (same evaluation member)]

theorem unshift_marks (ruleId : String) (alert : FiredAlert) {history : List FiredAlert}
    (bounded : history.length ≤ maxAlertHistory) : marks ruleId (unshift alert history) =
      (isOpen ruleId alert :: marks ruleId history).take maxAlertHistory := by
  rw [unshift_take alert bounded, marks, List.map_take]
  rfl

/- The blocks of other rules push a rule's marks back by one for each alert they fire. -/
theorem foldl_others (measured : Measurements) (evaluations : List Evaluation) :
    ∀ {service : AlertingService} {ruleId : String}, Filed service →
      (evaluations.map Evaluation.ruleId).Nodup → ruleId ∉ evaluations.map Evaluation.ruleId →
      Filed (evaluations.foldl (evaluate measured) service) ∧
      (evaluations.foldl (evaluate measured) service).rules.get ruleId =
        service.rules.get ruleId ∧
      marks ruleId (evaluations.foldl (evaluate measured) service).firedAlertsHistory =
        (List.replicate (firedBy service evaluations) false ++
          marks ruleId service.firedAlertsHistory).take maxAlertHistory := by
  induction evaluations with
  | nil =>
    intro service ruleId filed _ _
    refine ⟨filed, rfl, (List.take_of_length_le ?_).symm⟩
    simpa [firedBy, marks] using filed.bounded
  | cons first evaluations ih =>
    intro service ruleId filed distinct apart
    rw [List.map_cons, List.nodup_cons] at distinct
    rw [List.map_cons, List.mem_cons, not_or] at apart
    obtain ⟨filed', rules, marked⟩ := ih (filed.evaluate measured first) distinct.2 apart.2
    have later : firedBy (evaluate measured service first) evaluations =
        firedBy service evaluations := firedBy_congr fun evaluation member =>
      evaluate_others filed fun same =>
        distinct.1 (same ▸ List.mem_map_of_mem (f := Evaluation.ruleId) member)
    refine ⟨filed', rules.trans (evaluate_others filed apart.1), ?_⟩
    rw [List.foldl_cons, marked, later]
    have fires : firedBy service (first :: evaluations) = firedBy service evaluations +
        if verdict service first = .fire then 1 else 0 := by simp [firedBy, List.countP_cons]
    have spec := (evaluate_spec filed measured first).1
    revert fires spec
    generalize verdict service first = decided
    intro fires spec
    cases spec with
    | fired alert opened history =>
      have foreign : isOpen ruleId alert = false := by
        simp only [isOpen, decide_eq_true_eq, decide_eq_false_iff_not] at opened ⊢
        exact fun mine => apart.1 (mine.1.symm.trans opened.1)
      rw [history, unshift_marks _ _ filed.bounded, take_append_take, foreign, fires, if_pos rfl,
        List.replicate_succ', List.append_assoc]
      rfl
    | resolved now history =>
      rw [history, resolveNewest_marks apart.1, fires, if_neg (by decide), Nat.add_zero]
    | rested history => rw [history, fires, if_neg (by decide), Nat.add_zero]

/-- Open alerts of a rule that a run which fires so many new alerts does not push out. -/
def stillListed (service : AlertingService) (ruleId : String) (fired : Nat) : Nat :=
  (service.firedAlertsHistory.take (maxAlertHistory - fired)).countP (isOpen ruleId)

theorem count_marks (ruleId : String) (history : List FiredAlert) :
    (marks ruleId history).count true = history.countP (isOpen ruleId) := by
  rw [marks, List.count, List.countP_map]
  exact List.countP_congr fun alert _ => by simp

/- Marks behind a stretch of known ones, cut at the bound. -/
theorem count_pushed (ruleId : String) (service : AlertingService) {pushed : List Bool}
    (few : pushed.length ≤ maxAlertHistory) :
    ((pushed ++ marks ruleId service.firedAlertsHistory).take maxAlertHistory).count true =
      pushed.count true + stillListed service ruleId pushed.length := by
  rw [List.take_append, List.take_of_length_le few, List.count_append, marks, ← List.map_take,
    ← marks, count_marks, stillListed]

/- Behind alerts of other rules a rule has no more open ones than before. -/
theorem count_behind (ruleId : String) (fired : Nat) (history : List FiredAlert) :
    ((List.replicate fired false ++ marks ruleId history).take maxAlertHistory).count true ≤
      history.countP (isOpen ruleId) := by
  have cut := (List.take_sublist maxAlertHistory
    (List.replicate fired false ++ marks ruleId history)).count_le true
  have none_pushed : (List.replicate fired false).count true = 0 := by
    simp [List.count_replicate]
  rwa [List.count_append, count_marks, none_pushed, Nat.zero_add] at cut

theorem firedBy_around (service : AlertingService) (front back : List Evaluation)
    (evaluation : Evaluation) : firedBy service (front ++ evaluation :: back) =
      firedBy service back + (if verdict service evaluation = .fire then 1 else 0) +
        firedBy service front := by
  simp only [firedBy, List.countP_append, List.countP_cons, decide_eq_true_eq]
  omega

/- A whole run as one rule sees it: the rules before it, its own block, the rules after it. -/
theorem run_around (measured : Measurements) (filed : Filed service) {front back : List Evaluation}
    {evaluation : Evaluation}
    (distinct : ((front ++ evaluation :: back).map Evaluation.ruleId).Nodup)
    {after : AlertingService}
    (ran : (front ++ evaluation :: back).foldl (evaluate measured) service = after) :
    ∃ before turned, Filed before ∧
      Evaluated before turned evaluation.ruleId (verdict service evaluation) ∧
      marks evaluation.ruleId before.firedAlertsHistory =
        (List.replicate (firedBy service front) false ++
          marks evaluation.ruleId service.firedAlertsHistory).take maxAlertHistory ∧
      marks evaluation.ruleId after.firedAlertsHistory =
        (List.replicate (firedBy service back) false ++
          marks evaluation.ruleId turned.firedAlertsHistory).take maxAlertHistory ∧
      stateOf after evaluation.ruleId =
        (stateOf service evaluation.ruleId).map (verdict service evaluation).next := by
  rw [List.map_append, List.map_cons, List.nodup_append, List.nodup_cons] at distinct
  obtain ⟨frontIds, ⟨notBack, backIds⟩, across⟩ := distinct
  have notFront : evaluation.ruleId ∉ front.map Evaluation.ruleId := fun member =>
    across _ member _ List.mem_cons_self rfl
  rw [List.foldl_append, List.foldl_cons] at ran
  obtain ⟨filed₁, rule₁, marks₁⟩ := foldl_others measured front filed frontIds notFront
  have backFired : firedBy (front.foldl (evaluate measured) service) back = firedBy service back := by
    refine firedBy_congr fun other member => ?_
    have foreign : other.ruleId ∉ front.map Evaluation.ruleId := fun early =>
      across _ early _ (List.mem_cons_of_mem _ (List.mem_map_of_mem member)) rfl
    exact (foldl_others measured front filed frontIds foreign).2.1
  generalize front.foldl (evaluate measured) service = before at filed₁ rule₁ marks₁ backFired ran
  obtain ⟨turn, _, state⟩ := evaluate_spec filed₁ measured evaluation
  obtain ⟨_, rule₂, marks₂⟩ := foldl_others measured back (filed₁.evaluate measured evaluation)
    backIds notBack
  have turnFired : firedBy (evaluate measured before evaluation) back = firedBy service back := by
    refine (firedBy_congr fun other member => evaluate_others filed₁ fun same => ?_).trans backFired
    exact notBack (same ▸ List.mem_map_of_mem member)
  rw [ran] at rule₂ marks₂
  rw [turnFired] at marks₂
  rw [verdict_congr rule₁] at turn state
  refine ⟨before, _, filed₁, turn, marks₁, marks₂, ?_⟩
  rw [stateOf, rule₂, ← stateOf, state, stateOf, rule₁, ← stateOf]

/- From the run to the verdict of the rule: it decides the rule's state and whether an open alert
   is added, and the alerts fired by all rules decide whether the old one is still listed. -/
theorem foldl_own (measured : Measurements) {service after : AlertingService}
    (filed : Filed service) {front back : List Evaluation} {evaluation : Evaluation}
    (distinct : ((front ++ evaluation :: back).map Evaluation.ruleId).Nodup)
    (few : (front ++ evaluation :: back).length ≤ maxAlertHistory)
    (ran : (front ++ evaluation :: back).foldl (evaluate measured) service = after) :
    stateOf after evaluation.ruleId =
        (stateOf service evaluation.ruleId).map (verdict service evaluation).next ∧
      match verdict service evaluation with
      | .fire => openCount after evaluation.ruleId = 1 +
          stillListed service evaluation.ruleId (firedBy service (front ++ evaluation :: back))
      | .resolve => openCount after evaluation.ruleId ≤ openCount service evaluation.ruleId - 1
      | .rest => openCount after evaluation.ruleId =
          stillListed service evaluation.ruleId (firedBy service (front ++ evaluation :: back)) := by
  obtain ⟨before, turned, filed₁, turn, marks₁, marks₂, state⟩ :=
    run_around measured filed distinct ran
  refine ⟨state, ?_⟩
  have fires := firedBy_around service front back evaluation
  have within : firedBy service (front ++ evaluation :: back) ≤ maxAlertHistory :=
    List.countP_le_length.trans few
  rw [openCount, ← count_marks, marks₂]
  generalize verdict service evaluation = decided at turn fires
  cases turn with
  | fired alert opened history =>
    have pushed : (List.replicate (firedBy service back) false ++
        true :: List.replicate (firedBy service front) false).length =
          firedBy service (front ++ evaluation :: back) := by
      rw [fires, if_pos rfl]
      simp only [List.length_append, List.length_replicate, List.length_cons]
      omega
    rw [history, unshift_marks _ _ filed₁.bounded, opened, marks₁, take_append_take,
      List.append_cons, take_append_take, ← List.append_assoc, ← List.append_cons,
      count_pushed _ _ (pushed ▸ within), pushed]
    simp [List.count_append, List.count_replicate]
  | resolved now history =>
    have front_open := count_behind evaluation.ruleId (firedBy service front)
      service.firedAlertsHistory
    rw [← marks₁, count_marks] at front_open
    have back_open := count_behind evaluation.ruleId (firedBy service back)
      turned.firedAlertsHistory
    rw [history, resolveNewest_count] at back_open
    rw [history]
    exact back_open.trans (Nat.sub_le_sub_right front_open 1)
  | rested history =>
    have pushed : (List.replicate (firedBy service back) false ++
        List.replicate (firedBy service front) false).length =
          firedBy service (front ++ evaluation :: back) := by
      rw [fires, if_neg (by decide)]
      simp
    rw [history, marks₁, take_append_take, ← List.append_assoc,
      count_pushed _ _ (pushed ▸ within), pushed]
    simp [List.count_replicate]

theorem stillListed_le (service : AlertingService) (ruleId : String) (fired : Nat) :
    stillListed service ruleId fired ≤ openCount service ruleId :=
  (List.take_sublist _ _).countP_le

theorem Matched.none_listed (matched : Matched service) {ruleId : String}
    (ok : stateOf service ruleId = some .ok) (fired : Nat) : stillListed service ruleId fired = 0 := by
  have none_open := matched ruleId .ok ok
  rw [if_neg (by decide)] at none_open
  exact Nat.le_zero.mp (none_open ▸ stillListed_le service ruleId fired)

theorem Matched.one_listed (matched : Matched service) {ruleId : String}
    (firing : stateOf service ruleId = some .firing) (fired : Nat) :
    stillListed service ruleId fired ≤ 1 := by
  have one_open := matched ruleId .firing firing
  rw [if_pos rfl] at one_open
  exact one_open ▸ stillListed_le service ruleId fired

theorem Matched.one_open (matched : Matched service) {ruleId : String} {state : RuleState}
    (before : stateOf service ruleId = some state) : openCount service ruleId ≤ 1 := by
  rw [matched ruleId state before]
  split
  · exact Nat.le_refl 1
  · exact Nat.zero_le 1

/-- A firing rule fires again only when its open alert is just then pushed out of the history,
    and is left firing only when it is not. -/
def LeavesOneOpen : Verdict → Nat → Prop
  | .fire, listed => listed = 0
  | .resolve, _ => True
  | .rest, listed => 0 < listed

instance (decided : Verdict) (listed : Nat) : Decidable (LeavesOneOpen decided listed) :=
  match decided with
  | .fire => inferInstanceAs (Decidable (listed = 0))
  | .resolve => isTrue trivial
  | .rest => inferInstanceAs (Decidable (0 < listed))

/-- The same of every rule that is firing before a run. -/
def KeepsOneOpen (service : AlertingService) : Option Measurements → Prop
  | none => True
  | some measured => ∀ evaluation ∈ measured.evaluations,
      stateOf service evaluation.ruleId = some .firing →
      LeavesOneOpen (verdict service evaluation)
        (stillListed service evaluation.ruleId (firedBy service measured.evaluations))

instance (service : AlertingService) (input : Option Measurements) :
    Decidable (KeepsOneOpen service input) :=
  match input with
  | none => isTrue trivial
  | some measured => inferInstanceAs (Decidable (∀ evaluation ∈ measured.evaluations,
      stateOf service evaluation.ruleId = some .firing → LeavesOneOpen _ _))

theorem evaluations_ids (measured : Measurements) :
    measured.evaluations.map Evaluation.ruleId = defaultRules.map Prod.fst := rfl

theorem evaluations_distinct (measured : Measurements) :
    (measured.evaluations.map Evaluation.ruleId).Nodup := by
  rw [evaluations_ids]
  decide

theorem evaluations_few (measured : Measurements) :
    measured.evaluations.length ≤ maxAlertHistory := by
  have five : measured.evaluations.length = 5 := rfl
  rw [five]
  decide

theorem rule_state (filed : Filed service) (member : evaluation ∈ measured.evaluations) :
    stateOf (service.evaluateRules (some measured)) evaluation.ruleId =
      (stateOf service evaluation.ruleId).map (verdict service evaluation).next := by
  obtain ⟨front, back, split⟩ := List.append_of_mem member
  have distinct := evaluations_distinct measured
  have few := evaluations_few measured
  rw [split] at distinct few
  rw [AlertingService.evaluateRules, split]
  exact (foldl_own measured filed distinct few rfl).1

/- One rule of a run: from a matched state it stays matched exactly when it keeps one alert open. -/
theorem rule_matched_iff (filed : Filed service) (matched : Matched service)
    (member : evaluation ∈ measured.evaluations) {state : RuleState}
    (before : stateOf service evaluation.ruleId = some state) :
    openCount (service.evaluateRules (some measured)) evaluation.ruleId =
        (if (verdict service evaluation).next state = .firing then 1 else 0) ↔
      (state = .firing → LeavesOneOpen (verdict service evaluation)
        (stillListed service evaluation.ruleId (firedBy service measured.evaluations))) := by
  obtain ⟨front, back, split⟩ := List.append_of_mem member
  have distinct := evaluations_distinct measured
  have few := evaluations_few measured
  rw [split] at distinct few
  have counted := (foldl_own measured filed distinct few rfl).2
  rw [AlertingService.evaluateRules, split]
  generalize verdict service evaluation = decided at counted
  cases decided with
  | fire =>
    rw [counted]
    cases state with
    | ok => simp [Verdict.next, matched.none_listed before]
    | firing => simp [Verdict.next, LeavesOneOpen]
  | resolve =>
    have none_left : openCount ((front ++ evaluation :: back).foldl (evaluate measured) service)
        evaluation.ruleId = 0 :=
      Nat.le_zero.mp (counted.trans (Nat.sub_le_sub_right (matched.one_open before) 1))
    rw [none_left, if_neg (by simp [Verdict.next])]
    exact iff_of_true rfl fun _ => trivial
  | rest =>
    rw [counted]
    cases state with
    | ok => simp [Verdict.next, matched.none_listed before]
    | firing =>
      have one := matched.one_listed before (firedBy service (front ++ evaluation :: back))
      simp only [Verdict.next, ↓reduceIte, forall_const, LeavesOneOpen]
      omega

theorem Filed.run_rules (filed : Filed service) (measured : Measurements)
    (evaluations : List Evaluation) :
    Filed (evaluations.foldl (AlertingService.evaluate measured) service) := by
  induction evaluations generalizing service with
  | nil => exact filed
  | cons first evaluations ih => exact ih (filed.evaluate measured first)

/-- The rules a service has are the five it starts with. -/
structure Ruled (service : AlertingService) : Prop extends Filed service where
  known : ∀ ruleId, stateOf service ruleId ≠ none → ruleId ∈ defaultRules.map Prod.fst

theorem Ruled.evaluateRules (ruled : Ruled service) (input : Option Measurements) :
    Ruled (service.evaluateRules input) := by
  cases input with
  | none => exact ruled
  | some measured =>
    refine ⟨ruled.toFiled.run_rules measured _, fun ruleId present => ?_⟩
    by_contra foreign
    have apart : ruleId ∉ measured.evaluations.map Evaluation.ruleId := foreign
    have same := (foldl_others measured measured.evaluations ruled.toFiled
      (evaluations_distinct measured) apart).2.1
    rw [AlertingService.evaluateRules, stateOf, same, ← stateOf] at present
    exact foreign (ruled.known ruleId present)

theorem evaluateRules_matched_iff (ruled : Ruled service) (matched : Matched service)
    (input : Option Measurements) :
    Matched (service.evaluateRules input) ↔ KeepsOneOpen service input := by
  cases input with
  | none => exact iff_of_true matched trivial
  | some measured =>
    constructor
    · intro after evaluation member firing
      have state := rule_state ruled.toFiled member
      rw [firing, Option.map_some] at state
      exact (rule_matched_iff ruled.toFiled matched member firing).mp (after _ _ state) rfl
    · intro keeps ruleId state present
      have ids : ruleId ∈ measured.evaluations.map Evaluation.ruleId :=
        (ruled.evaluateRules (some measured)).known ruleId (by simp [present])
      obtain ⟨evaluation, member, rfl⟩ := List.mem_map.mp ids
      have now := (rule_state ruled.toFiled member).symm.trans present
      obtain ⟨old, before, rfl⟩ := Option.map_eq_some_iff.mp now
      exact (rule_matched_iff ruled.toFiled matched member before).mpr fun firing =>
        keeps evaluation member (firing ▸ before)

theorem ruled_run {permit : Machine.Permit AlertingService (Option Measurements) Unit}
    {past : List (Option Measurements × Unit)} {service : AlertingService}
    (run : alertingMachine.Run permit past service) : Ruled service := by
  refine run.invariant (fun _ service => Ruled service) ?_ ?_
  · have rules : ∀ ruleId rule, AlertingService.initial.rules.get ruleId = some rule →
        (ruleId, rule) ∈ AlertingService.initial.rules.entries := fun ruleId rule found =>
      (InsertionMap.get_iff_mem _).mp found
    have filed : ∀ e ∈ AlertingService.initial.rules.entries,
        e.2.id = e.1 ∧ e.1 ∈ defaultRules.map Prod.fst := by decide +kernel
    refine ⟨⟨fun ruleId rule found => (filed _ (rules _ _ found)).1, Nat.zero_le _⟩, ?_⟩
    intro ruleId present
    obtain ⟨state, some_state⟩ := Option.ne_none_iff_exists'.mp present
    obtain ⟨rule, found, _⟩ := Option.map_eq_some_iff.mp some_state
    exact (filed _ (rules _ _ found)).2
  · intro past service input after answer _ ruled _ moved
    obtain ⟨rfl, rfl⟩ := Prod.mk.inj (Option.some.inj moved)
    exact ruled.evaluateRules input

end Evaluations

/-- After every evaluation of a run each rule's state matches its open alerts exactly when, in
    each evaluation, a rule that is firing fires again only if its open alert is just then pushed
    out of the history, and is left firing only if it is not. -/
theorem alert_history_matches_iff {past : List (Option Measurements × Unit)}
    {service : AlertingService} (run : alertingMachine.Run Machine.anything past service) :
    alertingMachine.Always Machine.anything (fun _ service => Matched service) past ↔
      alertingMachine.Each Machine.anything
        (fun before input _ _ => KeepsOneOpen before input) past := by
  refine run.always_iff_each ?_ ?_
  · intro ruleId state present
    have ok : ∀ e ∈ AlertingService.initial.rules.entries, e.2.state = .ok := by decide +kernel
    obtain ⟨rule, found, rfl⟩ := Option.map_eq_some_iff.mp present
    rw [ok (ruleId, rule) ((InsertionMap.get_iff_mem _).mp found)]
    rfl
  · intro past service input after answer reached matched _ moved
    obtain ⟨rfl, rfl⟩ := Prod.mk.inj (Option.some.inj moved)
    exact evaluateRules_matched_iff (ruled_run reached) matched input

/-- Nothing else to report, at a p95 latency. -/
def latencyOf (p95 : Rat) (now : Int) : Measurements where
  totalRequests := .finite 20
  errorRatePercentage := .finite 0
  latencyP95 := .finite p95
  heapUsed := 40
  heapTotal := 100
  databaseStatus := some "up"
  failedCount := .finite 0
  evaluatedAt := now
  actedAt _ := now

/-- A spike of one evaluation: fired, then resolved; then the health check rejects. -/
theorem alert_history_matches_spike :
    ∃ past service, past.reverse.map Prod.fst =
        [some (latencyOf 2000 0), some (latencyOf 100 10000), none] ∧
      alertingMachine.Run Machine.anything past service ∧
      service.firedAlertsHistory.map FiredAlert.resolvedAt = [some 10000] ∧
      alertingMachine.Always Machine.anything (fun _ service => Matched service) past := by
  have first : alertingMachine.Run Machine.anything _ _ :=
    Machine.Run.start.next (i := some (latencyOf 2000 0)) trivial rfl
  have second := first.next (i := some (latencyOf 100 10000)) trivial rfl
  have third := second.next (i := none) trivial rfl
  refine ⟨_, _, rfl, third, by decide +kernel, (alert_history_matches_iff third).mpr ?_⟩
  refine (second.each_cons trivial rfl).mpr ⟨by decide +kernel, ?_⟩
  refine (first.each_cons trivial rfl).mpr ⟨by decide +kernel, ?_⟩
  exact (Machine.Run.start.each_cons trivial rfl).mpr ⟨by decide +kernel, Machine.each_nil⟩

/-- The latency stays high for two evaluations: two open alerts of one rule. -/
theorem firing_rule_fires_again :
    ¬ ∀ past service, alertingMachine.Run Machine.anything past service → Matched service := by
  intro always
  have first : alertingMachine.Run Machine.anything _ _ :=
    Machine.Run.start.next (i := some (latencyOf 2000 0)) trivial rfl
  have second := first.next (i := some (latencyOf 2000 10000)) trivial rfl
  have firing : stateOf (((alertingMachine.init.evaluateRules (some (latencyOf 2000 0))).evaluateRules
      (some (latencyOf 2000 10000)))) "high-latency-p95" = some .firing := by decide +kernel
  exact absurd (always _ _ second "high-latency-p95" .firing firing) (by decide +kernel)

end AstraPort.Monitoring
