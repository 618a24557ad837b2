import AstraPort.Webhook.Settlement
import AstraPort.Webhook.Orphans

/- Runs in which calls execute one after another: a call begins only when no activity is
   in progress. In such runs the snapshot a retry run works on stays current, so they are
   free of races. -/
namespace AstraPort.Webhook.WebhookService

/-- One call at a time, and retries asked for at the current clock. -/
def OneByOne : Machine.Permit WebhookService TimedCall WebhookAnswer := fun _ service timed =>
  match timed.call with
  | .proceed _ _ => True
  | .answered _ _ _ => True
  | .retryDueDeliveries _ due => service.activities.entries = [] ∧ due = timed.now
  | _ => service.activities.entries = []

def Sequential : Machine.Permit WebhookService TimedCall WebhookAnswer := fun past service timed =>
  Ordinary past service timed ∧ OneByOne past service timed

instance (past : List (TimedCall × WebhookAnswer)) (service : WebhookService) (timed : TimedCall) :
    Decidable (Sequential past service timed) :=
  have : Decidable (OneByOne past service timed) :=
    match timed with
    | ⟨_, .proceed _ _⟩ => isTrue trivial
    | ⟨_, .answered _ _ _⟩ => isTrue trivial
    | ⟨_, .retryDueDeliveries _ _⟩ => inferInstanceAs (Decidable (_ ∧ _))
    | ⟨_, .createSubscription _ _ _⟩ => inferInstanceAs (Decidable (_ = _))
    | ⟨_, .updateSubscription _ _ _⟩ => inferInstanceAs (Decidable (_ = _))
    | ⟨_, .deleteSubscription _ _⟩ => inferInstanceAs (Decidable (_ = _))
    | ⟨_, .acknowledgeEvents _ _ _⟩ => inferInstanceAs (Decidable (_ = _))
    | ⟨_, .simulateDelivery _ _ _ _⟩ => inferInstanceAs (Decidable (_ = _))
    | ⟨_, .publishAndDeliver _ _ _⟩ => inferInstanceAs (Decidable (_ = _))
  inferInstanceAs (Decidable (_ ∧ _))

def snapshotKey (snapshot : DeliveryRecordEntity) : String :=
  recordKey snapshot.subscriptionId snapshot.eventId

/-- At most one activity, and a retry loop whose snapshots still show the live records. -/
structure Current (past : List (TimedCall × WebhookAnswer)) (service : WebhookService) : Prop where
  alone : ∀ task other activity rival, service.activities.get task = some activity →
    service.activities.get other = some rival → task = other
  due_past : ∀ task activity due remaining, service.activities.get task = some activity →
    activity.loop = .retry due remaining → ∃ e ∈ past, due = e.1.now
  snapshots_live : ∀ task activity due remaining, service.activities.get task = some activity →
    activity.loop = .retry due remaining → ∀ snapshot ∈ remaining,
      service.records.get (snapshotKey snapshot) = some snapshot
  snapshots_apart : ∀ task activity due remaining, service.activities.get task = some activity →
    activity.loop = .retry due remaining → (activity.awaited ++ remaining.map snapshotKey).Nodup

section Steps
variable {signPayload : WebhookEvent → String} {service after : WebhookService}
  {timed : TimedCall} {answer : WebhookAnswer} {past : List (TimedCall × WebhookAnswer)}

/- Steps taken while nothing is in progress, and that start nothing. -/
theorem current_idle (past : List (TimedCall × WebhookAnswer))
    (quiet : service.activities.entries = []) : Current past service := by
  constructor
  all_goals
    intro task _ _ _ running
    simp [no_activity quiet] at running

/- The state right after an activity was started or moved on, when it is the only one. -/
theorem current_single {task : Nat} {activity : Activity}
    (alone : ∀ other rival, service.activities.get other = some rival → other = task)
    (due_past : ∀ due remaining, activity.loop = .retry due remaining → ∃ e ∈ past, due = e.1.now)
    (live : ∀ due remaining, activity.loop = .retry due remaining → ∀ snapshot ∈ remaining,
      service.records.get (snapshotKey snapshot) = some snapshot)
    (apart : ∀ due remaining, activity.loop = .retry due remaining →
      (activity.awaited ++ remaining.map snapshotKey).Nodup) :
    Current past (service.withActivity task activity) := by
  have single : ∀ other rival, (service.withActivity task activity).activities.get other =
      some rival → other = task ∧ rival = activity := by
    intro other rival runs
    rcases InsertionMap.get_set_cases runs with found | ⟨_, before⟩
    · exact found
    · obtain rfl := alone other rival before
      rw [activities_withActivity, InsertionMap.get_set_self] at runs
      exact ⟨rfl, (Option.some.inj runs).symm⟩
  refine ⟨?_, ?_, ?_, ?_⟩
  · intro first second mine yours runs_first runs_second
    rw [(single first mine runs_first).1, (single second yours runs_second).1]
  · intro other rival due remaining runs at_loop
    obtain ⟨_, rfl⟩ := single other rival runs
    exact due_past due remaining at_loop
  · intro other rival due remaining runs at_loop
    obtain ⟨_, rfl⟩ := single other rival runs
    exact live due remaining at_loop
  · intro other rival due remaining runs at_loop
    obtain ⟨_, rfl⟩ := single other rival runs
    exact apart due remaining at_loop

theorem current_publishing {task : Nat} {activity : Activity} {event : WebhookEvent}
    {left : List SubscriptionEntity}
    (alone : ∀ other rival, service.activities.get other = some rival → other = task)
    (at_loop : activity.loop = .publish event left) :
    Current past (service.withActivity task activity) := by
  apply current_single alone
  all_goals
    intro due remaining retries
    rw [at_loop] at retries
    cases retries

theorem current_retrying {task due : Nat} {activity : Activity} {left : List DeliveryRecordEntity}
    (alone : ∀ other rival, service.activities.get other = some rival → other = task)
    (at_loop : activity.loop = .retry due left) (due_past : ∃ e ∈ past, due = e.1.now)
    (live : ∀ snapshot ∈ left, service.records.get (snapshotKey snapshot) = some snapshot)
    (apart : (activity.awaited ++ left.map snapshotKey).Nodup) :
    Current past (service.withActivity task activity) := by
  apply current_single alone
  all_goals
    intro due remaining retries
    rw [at_loop] at retries
    obtain ⟨rfl, rfl⟩ := Loop.retry.inj retries
    assumption

theorem Current.withoutActivity (current : Current past service) (task : Nat)
    (e : TimedCall × WebhookAnswer) : Current (e :: past) (service.withoutActivity task) := by
  refine ⟨?_, ?_, ?_, ?_⟩
  · intro first second mine yours runs_first runs_second
    exact current.alone first second mine yours (InsertionMap.get_of_delete runs_first)
      (InsertionMap.get_of_delete runs_second)
  · intro other rival due remaining runs at_loop
    obtain ⟨x, member, same⟩ := current.due_past other rival due remaining
      (InsertionMap.get_of_delete runs) at_loop
    exact ⟨x, List.mem_cons_of_mem _ member, same⟩
  · intro other rival due remaining runs
    exact current.snapshots_live other rival due remaining (InsertionMap.get_of_delete runs)
  · intro other rival due remaining runs
    exact current.snapshots_apart other rival due remaining (InsertionMap.get_of_delete runs)

theorem listed_snapshots (exclusive : service.Exclusive) :
    (∀ snapshot ∈ service.subscriptionService.listDeliveryRecords,
      service.records.get (snapshotKey snapshot) = some snapshot) ∧
    (service.subscriptionService.listDeliveryRecords.map snapshotKey).Nodup := by
  have keyed : ∀ e ∈ service.records.entries, snapshotKey e.2 = e.1 := fun e member =>
    (exclusive.records_keyed e.1 e.2 ((InsertionMap.get_iff_mem _).mpr member)).1.symm
  constructor
  · intro snapshot member
    obtain ⟨e, stored, rfl⟩ := List.mem_map.mp member
    rw [keyed e stored]
    exact (InsertionMap.get_iff_mem _).mpr stored
  · have same : service.subscriptionService.listDeliveryRecords.map snapshotKey =
        service.records.entries.map Prod.fst := by
      rw [SubscriptionService.listDeliveryRecords, InsertionMap.values, List.map_map]
      exact List.map_congr_left keyed
    rw [same]
    exact service.records.distinct

theorem Current.unraced (current : Current past service) (oneByOne : OneByOne past service timed) :
    Unraced past service timed := by
  obtain ⟨now, call⟩ := timed
  cases call with
  | proceed task recordId =>
    intro snapshot taken
    unfold takesUp at taken
    split at taken
    · rename_i due head rest at_loop
      obtain ⟨activity, running, loop⟩ := Option.map_eq_some_iff.mp at_loop
      split at taken
      · rename_i wanted
        obtain rfl := Option.some.inj taken
        have live := current.snapshots_live task activity due _ running loop head List.mem_cons_self
        have apart := current.snapshots_apart task activity due _ running loop
        refine ⟨⟨head, live, rfl, ?_, rfl⟩, ?_⟩
        · by_contra settled
          exact wanted.1 (by simp [dueSchedule, settled])
        · rintro ⟨other, rival, runs, awaited⟩
          obtain rfl := current.alone other task rival activity runs running
          obtain rfl := Option.some.inj (runs.symm.trans running)
          exact (List.nodup_append.mp apart).2.2 _ awaited _ List.mem_cons_self rfl
      · cases taken
    · cases taken
  | acknowledgeEvents userId subscriptionId eventIds =>
    rintro entity found eventId member recorded ⟨task, activity, running, _⟩
    simp [no_activity oneByOne] at running
  | createSubscription userId dto id => trivial
  | updateSubscription userId subscriptionId dto => trivial
  | deleteSubscription userId subscriptionId => trivial
  | simulateDelivery subscriptionId input eventId recordId => trivial
  | publishAndDeliver task input eventId => trivial
  | retryDueDeliveries task due => trivial
  | answered task ok recordId => trivial

/- What is left of a retry loop does not meet the pair just served. -/
theorem served_apart {remaining : List DeliveryRecordEntity} {left : WebhookService}
    {delivery : Delivery} {outcome : DeliveryOutcome} {recordId : String} {now : Nat}
    {record : DeliveryRecordEntity}
    (attempt : service.record delivery outcome recordId now = (left, record))
    (live : ∀ snapshot ∈ remaining, service.records.get (snapshotKey snapshot) = some snapshot)
    (apart : (delivery.key :: remaining.map snapshotKey).Nodup) :
    ∀ snapshot ∈ remaining, left.records.get (snapshotKey snapshot) = some snapshot := by
  intro snapshot member
  have ne : snapshotKey snapshot ≠ delivery.key := fun same =>
    (List.nodup_cons.mp apart).1 (same ▸ List.mem_map_of_mem member)
  have stored := records_record service delivery outcome recordId now (snapshotKey snapshot)
  rw [attempt, if_neg ne] at stored
  exact stored.trans (live snapshot member)

/- The pair a retry turn serves is that of its snapshot. -/
theorem turn_snapshot (exclusive : service.Exclusive) {snapshot : DeliveryRecordEntity}
    {event : WebhookEvent} {subscription : SubscriptionEntity}
    (known : service.findEvent snapshot.eventId = some event)
    (found : service.subscriptions.get snapshot.subscriptionId = some subscription) :
    Delivery.key ⟨subscription, event⟩ = snapshotKey snapshot := by
  obtain ⟨same_subscription, same_event, _⟩ := retry_turn_pair exclusive known found
  rw [Delivery.key, snapshotKey, same_subscription, same_event]

theorem Move.current (move : Move signPayload service timed.now timed.call after answer)
    (exclusive : service.Exclusive) (oneByOne : OneByOne past service timed)
    (current : Current past service) : Current ((timed, answer) :: past) after := by
  have later : ∀ {due}, (∃ e ∈ past, due = e.1.now) → ∃ e ∈ (timed, answer) :: past, due = e.1.now :=
    fun ⟨e, member, same⟩ => ⟨e, List.mem_cons_of_mem _ member, same⟩
  obtain ⟨now, call⟩ := timed
  cases move with
  | refused told thrown =>
    cases call with
    | updateSubscription userId subscriptionId dto => exact current_idle _ oneByOne
    | deleteSubscription userId subscriptionId => exact current_idle _ oneByOne
    | acknowledgeEvents userId subscriptionId eventIds => exact current_idle _ oneByOne
    | _ => exact absurd told (by simp [WebhookCall.ofUser])
  | created userId dto named enabled => exact current_idle _ oneByOne
  | updated dto found => exact current_idle _ oneByOne
  | removed found => exact current_idle _ oneByOne
  | acknowledged found settled => exact current_idle _ oneByOne
  | simulated input eventId recordId found attempt =>
    obtain rfl := (Prod.mk.inj attempt).1
    exact current_idle _ oneByOne
  | unsimulated input eventId recordId thrown => exact current_idle _ oneByOne
  | @published task input eventId free =>
    apply current_publishing
    · intro other rival runs
      rw [activities_publishEvent, no_activity oneByOne] at runs
      cases runs
    · rfl
  | @retried task due free =>
    apply current_retrying
    · intro other rival runs
      rw [no_activity oneByOne.1] at runs
      cases runs
    · rfl
    · exact ⟨_, List.mem_cons_self, oneByOne.2⟩
    · exact (listed_snapshots exclusive).1
    · exact (listed_snapshots exclusive).2
  | finished running idle exhausted => exact current.withoutActivity _ _
  | aborted running idle at_snapshot reached known missing thrown =>
    exact current.withoutActivity _ _
  | @passed task recordId activity rest running idle pass =>
    obtain ⟨loop, awaiting, results⟩ := activity
    have alone := fun other rival runs => current.alone other task rival _ runs running
    cases pass with
    | publish => exact current_publishing alone rfl
    | retry =>
      apply current_retrying alone rfl
      · exact later (current.due_past task _ _ _ running rfl)
      · exact (List.forall_mem_cons.mp (current.snapshots_live task _ _ _ running rfl)).2
      · exact (current.snapshots_apart task _ _ _ running rfl).sublist
          ((List.Sublist.refl _).append (List.sublist_cons_self _ _))
  | @sent task recordId activity rest delivery schedule url running idle turn =>
    obtain ⟨loop, awaiting, results⟩ := activity
    obtain rfl : awaiting = none := idle
    have alone := fun other rival runs => current.alone other task rival _ runs running
    cases turn with
    | publish selected => exact current_publishing alone rfl
    | retry reached known found =>
      have apart := current.snapshots_apart task _ _ _ running rfl
      rw [List.map_cons, ← turn_snapshot exclusive known found] at apart
      apply current_retrying alone rfl
      · exact later (current.due_past task _ _ _ running rfl)
      · exact (List.forall_mem_cons.mp (current.snapshots_live task _ _ _ running rfl)).2
      · exact apart
  | @unsent task recordId activity rest delivery schedule left record running idle turn attempt =>
    obtain ⟨loop, awaiting, results⟩ := activity
    obtain rfl : awaiting = none := idle
    have same : left.activities = service.activities := by rw [← (Prod.mk.inj attempt).1]
    have alone : ∀ other rival, left.activities.get other = some rival → other = task :=
      fun other rival runs => current.alone other task rival _ (same ▸ runs) running
    cases turn with
    | publish selected => exact current_publishing alone rfl
    | retry reached known found =>
      have apart := current.snapshots_apart task _ _ _ running rfl
      rw [List.map_cons, ← turn_snapshot exclusive known found] at apart
      have live := (List.forall_mem_cons.mp (current.snapshots_live task _ _ _ running rfl)).2
      apply current_retrying alone rfl
      · exact later (current.due_past task _ _ _ running rfl)
      · exact served_apart attempt live apart
      · exact (List.nodup_cons.mp apart).2
  | @settled task ok recordId activity delivery left record running awaited attempt =>
    obtain ⟨loop, awaiting, results⟩ := activity
    obtain rfl : awaiting = some delivery := awaited
    have same : left.activities = service.activities := by rw [← (Prod.mk.inj attempt).1]
    have alone : ∀ other rival, left.activities.get other = some rival → other = task :=
      fun other rival runs => current.alone other task rival _ (same ▸ runs) running
    cases loop with
    | publish event remaining => exact current_publishing alone rfl
    | retry due remaining =>
      have apart := current.snapshots_apart task _ _ _ running rfl
      apply current_retrying alone rfl
      · exact later (current.due_past task _ _ _ running rfl)
      · exact served_apart attempt (current.snapshots_live task _ _ _ running rfl) apart
      · exact (List.nodup_cons.mp apart).2

end Steps
section Runs
variable {signPayload : WebhookEvent → String} {past : List (TimedCall × WebhookAnswer)}
  {service : WebhookService}

theorem sequential_invariant (run : (machine signPayload).Run Sequential past service) :
    (service.Exclusive ∧ ∀ id ∈ service.eventIds, id ∈ usedUuids past) ∧ Current past service := by
  refine run.invariant (fun past service =>
    (service.Exclusive ∧ ∀ id ∈ service.eventIds, id ∈ usedUuids past) ∧ Current past service) ?_ ?_
  · exact ⟨⟨exclusive_initial, by simp [machine, initial, eventIds]⟩, current_idle _ rfl⟩
  · rintro past service timed after answer _ ⟨known, current⟩ permitted moved
    exact ⟨exclusive_step moved permitted.1 (current.unraced permitted.2) known,
      (step_moves moved).current known.1 permitted.2 current⟩

/- One call at a time leaves no room for races. -/
theorem sequential_raceFree (run : (machine signPayload).Run Sequential past service) :
    (machine signPayload).Run RaceFree past service :=
  run.weaken fun before permitted =>
    ⟨permitted.1, (sequential_invariant before).2.unraced permitted.2⟩

theorem sequential_deletesClear (run : (machine signPayload).Run Sequential past service) :
    (machine signPayload).Run DeletesClear past service := by
  apply run.weaken
  rintro past service ⟨now, call⟩ _ ⟨_, oneByOne⟩
  cases call with
  | deleteSubscription userId subscriptionId =>
    have quiet : service.activities.entries = [] := oneByOne
    intro entity found activity member
    simp [InsertionMap.values, quiet] at member
  | _ => trivial

end Runs
end AstraPort.Webhook.WebhookService
