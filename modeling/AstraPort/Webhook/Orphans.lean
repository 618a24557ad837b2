import AstraPort.Webhook.Exclusive

/- Referential integrity of delivery records. Deleting a subscription is safe while no
   activity in progress will still deliver to it; otherwise the delivery leaves a record
   without a subscription, and the next retry run stops at it. -/
namespace AstraPort.Webhook

/-- The activity has a delivery to the subscription out or ahead. -/
def Activity.WillDeliver (activity : Activity) (subscriptionId : String) : Prop :=
  (∃ delivery ∈ activity.awaiting, delivery.subscription.id = subscriptionId) ∨
    match activity.loop with
    | .publish event remaining => ∃ subscription ∈ remaining, subscription.id = subscriptionId ∧
        SubscriptionService.matchesFilter subscription.filter event = true
    | .retry due remaining => ∃ snapshot ∈ remaining, snapshot.subscriptionId = subscriptionId ∧
        dueSchedule snapshot due ≠ none

instance (activity : Activity) (subscriptionId : String) :
    Decidable (activity.WillDeliver subscriptionId) :=
  match activity with
  | ⟨.publish _ _, _, _⟩ =>
    inferInstanceAs (Decidable ((∃ _ ∈ _, _) ∨ ∃ _ ∈ _, _ ∧ _))
  | ⟨.retry _ _, _, _⟩ => inferInstanceAs (Decidable ((∃ _ ∈ _, _) ∨ ∃ _ ∈ _, _ ∧ ¬ _))

namespace WebhookService

/-- Deletions that take effect leave no delivery of an activity behind. -/
def DeletesClear : Machine.Permit WebhookService TimedCall WebhookAnswer := fun _ service timed =>
  match timed.call with
  | .deleteSubscription userId subscriptionId =>
    ∀ _entity ∈ (service.subscriptionService.findOrThrow userId subscriptionId).toOption,
      ∀ activity ∈ service.activities.values, ¬ activity.WillDeliver subscriptionId
  | _ => True

instance (past : List (TimedCall × WebhookAnswer)) (service : WebhookService) (timed : TimedCall) :
    Decidable (DeletesClear past service timed) :=
  match timed with
  | ⟨_, .deleteSubscription _ _⟩ =>
    inferInstanceAs (Decidable (∀ _entity ∈ Except.toOption _, ∀ _ ∈ _, ¬ _))
  | ⟨_, .createSubscription _ _ _⟩ => isTrue trivial
  | ⟨_, .updateSubscription _ _ _⟩ => isTrue trivial
  | ⟨_, .acknowledgeEvents _ _ _⟩ => isTrue trivial
  | ⟨_, .simulateDelivery _ _ _ _⟩ => isTrue trivial
  | ⟨_, .publishAndDeliver _ _ _⟩ => isTrue trivial
  | ⟨_, .retryDueDeliveries _ _⟩ => isTrue trivial
  | ⟨_, .proceed _ _⟩ => isTrue trivial
  | ⟨_, .answered _ _ _⟩ => isTrue trivial

/-- Subscriptions stand under their own ids, and whatever is recorded or will be
    delivered refers to one of them. -/
structure Referenced (service : WebhookService) : Prop where
  named : ∀ id entity, service.subscriptions.get id = some entity → entity.id = id
  recorded : ∀ key record, service.records.get key = some record →
    service.subscriptions.get record.subscriptionId ≠ none
  delivering : ∀ task activity, service.activities.get task = some activity →
    ∀ id, activity.WillDeliver id → service.subscriptions.get id ≠ none

section Preserved
variable {service : WebhookService}

theorem Referenced.withActivity (referenced : service.Referenced) (task : Nat) {activity : Activity}
    (delivering : ∀ id, activity.WillDeliver id → service.subscriptions.get id ≠ none) :
    (service.withActivity task activity).Referenced := by
  refine ⟨referenced.named, referenced.recorded, ?_⟩
  exact InsertionMap.get_set_all delivering referenced.delivering

theorem Referenced.withoutActivity (referenced : service.Referenced) (task : Nat) :
    (service.withoutActivity task).Referenced := by
  refine ⟨referenced.named, referenced.recorded, ?_⟩
  exact fun other rival running =>
    referenced.delivering other rival (InsertionMap.get_of_delete running)

theorem Referenced.record (referenced : service.Referenced) {delivery : Delivery}
    (found : service.subscriptions.get delivery.subscription.id ≠ none) (outcome : DeliveryOutcome)
    (recordId : String) (now : Nat) :
    (service.record delivery outcome recordId now).1.Referenced := by
  refine ⟨referenced.named, ?_, referenced.delivering⟩
  intro key record present
  rw [records_record] at present
  split at present
  · obtain rfl := Option.some.inj present
    simp only [WebhookService.record, SubscriptionService.recordDeliveryAttempt,
      SubscriptionService.scheduled_subscriptionId]
    cases held : service.subscriptionService.deliveryRecords.get
        (recordKey delivery.subscription.id delivery.event.id) with
    | none => exact found
    | some old => exact referenced.recorded _ old held
  · exact referenced.recorded key record present

/- More subscriptions, or the same ones rewritten under their ids. -/
theorem Referenced.withSubscription (referenced : service.Referenced) (entity : SubscriptionEntity) :
    ({ service with subscriptionService := { service.subscriptionService with
      subscriptions := service.subscriptions.set entity.id entity } } : WebhookService).Referenced := by
  have kept : ∀ id, service.subscriptions.get id ≠ none →
      (service.subscriptions.set entity.id entity).get id ≠ none := by
    intro id present
    rw [InsertionMap.get_set]
    split
    · simp
    · exact present
  refine ⟨?_, fun key record present => kept _ (referenced.recorded key record present),
    fun task activity running id delivers => kept id
      (referenced.delivering task activity running id delivers)⟩
  exact InsertionMap.get_set_all rfl referenced.named

theorem Referenced.removed (referenced : service.Referenced) {subscriptionId : String}
    (clear : ∀ activity ∈ service.activities.values, ¬ activity.WillDeliver subscriptionId) :
    ({ service with subscriptionService :=
      service.subscriptionService.removeSubscription subscriptionId } : WebhookService).Referenced := by
  have others : ∀ id, id ≠ subscriptionId → service.subscriptions.get id ≠ none →
      (service.subscriptions.delete subscriptionId).get id ≠ none := by
    intro id ne present
    rwa [InsertionMap.get_delete_ne _ ne]
  refine ⟨?_, ?_, ?_⟩
  · exact fun id entity present => referenced.named id entity (InsertionMap.get_of_delete present)
  · intro key record present
    rw [WebhookService.records, SubscriptionService.removeSubscription_get,
      Option.filter_eq_some_iff] at present
    exact others _ (by simpa using present.2) (referenced.recorded key record present.1)
  · intro task activity running id delivers
    refine others id ?_ (referenced.delivering task activity running id delivers)
    rintro rfl
    exact clear activity ((InsertionMap.mem_values _).mpr ⟨task, running⟩) delivers

theorem Referenced.acknowledged (referenced : service.Referenced) {subscriptionId : String}
    {now count : Nat} {eventIds skippedIds : List String}
    {left : InsertionMap String DeliveryRecordEntity}
    (settled : SubscriptionService.acknowledgeEach subscriptionId now service.records eventIds =
      (left, count, skippedIds)) :
    ({ service with subscriptionService :=
      { service.subscriptionService with deliveryRecords := left } } : WebhookService).Referenced := by
  refine ⟨referenced.named, ?_, referenced.delivering⟩
  intro key record present
  have written := SubscriptionService.acknowledgeEach_get subscriptionId now eventIds
    service.records key
  rw [settled] at written
  obtain ⟨old, held, same⟩ := Option.map_eq_some_iff.mp (written.symm.trans present)
  have kept : record.subscriptionId = old.subscriptionId := by
    rw [← same]
    split <;> rfl
  rw [kept]
  exact referenced.recorded key old held

end Preserved

section Steps
variable {signPayload : WebhookEvent → String} {service after : WebhookService} {now : Nat}
  {call : WebhookCall} {answer : WebhookAnswer}

theorem pass_delivers {activity : Activity} {rest : Loop} (pass : Pass service activity.loop rest)
    {id : String} (delivers : ({ activity with loop := rest } : Activity).WillDeliver id) :
    activity.WillDeliver id := by
  obtain ⟨loop, awaiting, results⟩ := activity
  apply delivers.imp_right
  cases pass with
  | publish =>
    rintro ⟨subscription, member, named⟩
    exact ⟨subscription, List.mem_cons_of_mem _ member, named⟩
  | retry =>
    rintro ⟨snapshot, member, named⟩
    exact ⟨snapshot, List.mem_cons_of_mem _ member, named⟩

/- The delivery of a turn goes to a subscription that exists, and so do those left. -/
theorem turn_delivers (referenced : service.Referenced) {task : Nat} {activity : Activity}
    {rest : Loop} {delivery : Delivery} {schedule : Option (String × Nat)}
    (running : service.activities.get task = some activity)
    (turn : Turn service activity.loop rest delivery schedule) :
    service.subscriptions.get delivery.subscription.id ≠ none ∧
      ∀ results id, (Activity.mk rest none results).WillDeliver id → activity.WillDeliver id := by
  obtain ⟨loop, awaiting, earlier⟩ := activity
  cases turn with
  | publish selected =>
    refine ⟨referenced.delivering task _ running _
      (Or.inr ⟨_, List.mem_cons_self, rfl, selected⟩), ?_⟩
    rintro results id (⟨_, awaited, _⟩ | ⟨subscription, member, named⟩)
    · cases awaited
    · exact Or.inr ⟨subscription, List.mem_cons_of_mem _ member, named⟩
  | retry reached known found =>
    refine ⟨by rw [referenced.named _ _ found, found]; simp, ?_⟩
    rintro results id (⟨_, awaited, _⟩ | ⟨snapshot, member, named⟩)
    · cases awaited
    · exact Or.inr ⟨snapshot, List.mem_cons_of_mem _ member, named⟩

theorem Move.referenced (move : Move signPayload service now call after answer)
    (referenced : service.Referenced) (clear : DeletesClear [] service ⟨now, call⟩) :
    after.Referenced := by
  have active : ∀ subscription ∈ service.subscriptionService.listActiveSubscriptions,
      service.subscriptions.get subscription.id ≠ none := by
    intro subscription member
    obtain ⟨id, held⟩ := (InsertionMap.mem_values _).mp (List.mem_of_mem_filter member)
    have held : service.subscriptions.get id = some subscription := held
    rw [referenced.named id subscription held, held]
    simp
  cases move with
  | refused told thrown => exact referenced
  | created userId dto named enabled =>
    subst named
    exact referenced.withSubscription _
  | updated dto found => exact referenced.withSubscription (SubscriptionService.updated _ dto now)
  | removed found => exact referenced.removed (clear _ (by rw [found]; rfl))
  | acknowledged found settled => exact referenced.acknowledged settled
  | simulated input eventId recordId found attempt =>
    obtain rfl := (Prod.mk.inj attempt).1
    have before : (service.publishEvent (newEvent input eventId now)).Referenced :=
      ⟨referenced.named, referenced.recorded, referenced.delivering⟩
    exact before.record (by simp [referenced.named _ _ found, found]) .delivered recordId now
  | unsimulated input eventId recordId thrown =>
    exact ⟨referenced.named, referenced.recorded, referenced.delivering⟩
  | published input eventId free =>
    have before : (service.publishEvent (newEvent input eventId now)).Referenced :=
      ⟨referenced.named, referenced.recorded, referenced.delivering⟩
    apply before.withActivity _
    rintro id (⟨_, awaited, _⟩ | ⟨subscription, member, rfl, _⟩)
    · cases awaited
    · exact active subscription member
  | retried due free =>
    apply referenced.withActivity _
    rintro id (⟨_, awaited, _⟩ | ⟨snapshot, member, rfl, _⟩)
    · cases awaited
    · obtain ⟨key, held⟩ := (InsertionMap.mem_values _).mp member
      exact referenced.recorded key snapshot held
  | finished running idle exhausted => exact referenced.withoutActivity _
  | aborted running idle at_snapshot reached known missing thrown =>
    exact referenced.withoutActivity _
  | passed running idle pass =>
    refine referenced.withActivity _ fun id delivers => ?_
    exact referenced.delivering _ _ running id (pass_delivers pass delivers)
  | sent running idle turn =>
    obtain ⟨exists_now, fewer⟩ := turn_delivers referenced running turn
    apply referenced.withActivity _
    rintro id (⟨delivery, awaited, rfl⟩ | ahead)
    · obtain rfl := Option.some.inj awaited
      exact exists_now
    · exact referenced.delivering _ _ running id (fewer [] id (Or.inr ahead))
  | unsent running idle turn attempt =>
    obtain ⟨exists_now, fewer⟩ := turn_delivers referenced running turn
    obtain rfl := (Prod.mk.inj attempt).1
    refine (referenced.record exists_now _ _ _).withActivity _ fun id delivers => ?_
    exact referenced.delivering _ _ running id (fewer _ id delivers)
  | settled ok running awaited attempt =>
    obtain rfl := (Prod.mk.inj attempt).1
    have exists_now := referenced.delivering _ _ running _ (Or.inl ⟨_, awaited, rfl⟩)
    apply (referenced.record exists_now _ _ _).withActivity _
    rintro id (⟨_, none_awaited, _⟩ | ahead)
    · cases none_awaited
    · exact referenced.delivering _ _ running id (Or.inr ahead)

/- While every delivery ahead has its subscription, no retry run is cut short. -/
theorem Move.unaborted (move : Move signPayload service now call after answer)
    (referenced : service.Referenced) {task : Nat} {recordId : String}
    (proceeds : call = .proceed task recordId) (thrown : Thrown) : answer ≠ .threw thrown := by
  subst proceeds
  cases move with
  | refused told thrown => exact absurd told (by simp [WebhookCall.ofUser])
  | aborted running idle at_snapshot reached known missing thrown =>
    refine absurd missing (referenced.delivering _ _ running _ (Or.inr ?_))
    rw [at_snapshot]
    exact ⟨_, List.mem_cons_self, rfl, by simp [reached]⟩
  | finished running idle exhausted => simp
  | passed running idle pass => simp
  | sent running idle turn => simp
  | unsent running idle turn attempt => simp

end Steps

/-- Every delivery record refers to a subscription that exists. -/
def RecordsReferenced (signPayload : WebhookEvent → String)
    (permit : Machine.Permit WebhookService TimedCall WebhookAnswer) : Prop :=
  ∀ past service, (machine signPayload).Run permit past service →
    ∀ key record, service.records.get key = some record →
      service.subscriptions.get record.subscriptionId ≠ none

/-- No turn of a loop ends in an exception. -/
def RetriesComplete (signPayload : WebhookEvent → String)
    (permit : Machine.Permit WebhookService TimedCall WebhookAnswer) : Prop :=
  ∀ past service, (machine signPayload).Run permit past service →
    ∀ e ∈ past, ∀ task recordId, e.1.call = .proceed task recordId →
      ∀ thrown, e.2 ≠ .threw thrown

theorem referenced_run {signPayload : WebhookEvent → String}
    {past : List (TimedCall × WebhookAnswer)} {service : WebhookService}
    (run : (machine signPayload).Run DeletesClear past service) :
    service.Referenced ∧ ∀ e ∈ past, ∀ task recordId, e.1.call = .proceed task recordId →
      ∀ thrown, e.2 ≠ .threw thrown := by
  refine run.invariant (fun past service => service.Referenced ∧
    ∀ e ∈ past, ∀ task recordId, e.1.call = .proceed task recordId →
      ∀ thrown, e.2 ≠ .threw thrown) ?_ ?_
  · refine ⟨?_, by simp⟩
    constructor <;>
      simp [machine, initial, SubscriptionService.initial, records, WebhookService.subscriptions]
  · intro past service timed after answer _ known permitted moved
    have move := step_moves moved
    have clear : DeletesClear past service timed := permitted
    refine ⟨move.referenced known.1 clear, ?_⟩
    intro e member
    rcases List.mem_cons.mp member with rfl | earlier
    · intro task recordId proceeds thrown
      exact move.unaborted known.1 proceeds thrown
    · exact known.2 e earlier

/-- While deletions leave no delivery behind, no record is orphaned and no retry run is
cut short. -/
theorem clear_deletes_leave_no_orphans (signPayload : WebhookEvent → String) :
    RecordsReferenced signPayload DeletesClear ∧ RetriesComplete signPayload DeletesClear :=
  ⟨fun _ _ run => (referenced_run run).1.recorded, fun _ _ run => (referenced_run run).2⟩

/-- Two subscriptions receive an event; both sends are answered before one is deleted,
    and a retry run serves the other. -/
def deletedBetweenDeliveries : List TimedCall :=
  [⟨0, .createSubscription "alice" ⟨"alerts", ⟨["asset.added"], none, []⟩, none, none,
      some "https://hooks.example/a"⟩ "s1"⟩,
   ⟨0, .createSubscription "bob" ⟨"alerts", ⟨["asset.added"], none, []⟩, none, none,
      some "https://hooks.example/b"⟩ "s2"⟩,
   ⟨0, .publishAndDeliver 1 ⟨"asset.added", none, none, none⟩ "e1"⟩,
   ⟨0, .proceed 1 "u1"⟩, ⟨10, .answered 1 false "r1"⟩,
   ⟨10, .proceed 1 "u2"⟩, ⟨20, .answered 1 false "r2"⟩,
   ⟨30, .deleteSubscription "alice" "s1"⟩,
   ⟨5000, .retryDueDeliveries 2 5000⟩, ⟨5000, .proceed 2 "u3"⟩, ⟨5010, .answered 2 true "u4"⟩]

theorem clear_deletes_leave_no_orphans_between_deliveries :
    let M := machine fun _ => "signature"
    ∃ moment, M.play DeletesClear ⟨[], M.init⟩ deletedBetweenDeliveries = some moment ∧
      (∀ key record, moment.state.records.get key = some record →
        moment.state.subscriptions.get record.subscriptionId ≠ none) ∧
      ∀ e ∈ moment.past, ∀ task recordId, e.1.call = .proceed task recordId →
        ∀ thrown, e.2 ≠ .threw thrown := by
  intro M
  have served : (M.play DeletesClear ⟨[], M.init⟩ deletedBetweenDeliveries).isSome = true := by
    decide +kernel
  obtain ⟨moment, played⟩ := Option.isSome_iff_exists.mp served
  obtain ⟨referenced, complete⟩ := clear_deletes_leave_no_orphans fun _ => "signature"
  have run : M.Run DeletesClear moment.past moment.state := Machine.play_run played
  exact ⟨moment, played, referenced _ _ run, complete _ _ run⟩

/-- A subscription is deleted while a send to it is out; the failed send is recorded all
    the same, and the next retry run stops at it. -/
def deletedDuringSend : List TimedCall :=
  [⟨0, .createSubscription "alice" ⟨"alerts", ⟨["asset.added"], none, []⟩, none, none,
      some "https://hooks.example/a"⟩ "s1"⟩,
   ⟨0, .publishAndDeliver 1 ⟨"asset.added", none, none, none⟩ "e1"⟩,
   ⟨0, .proceed 1 "u1"⟩, ⟨10, .deleteSubscription "alice" "s1"⟩, ⟨20, .answered 1 false "r1"⟩,
   ⟨5000, .retryDueDeliveries 2 5000⟩, ⟨5000, .proceed 2 "u2"⟩]

theorem delete_during_send_orphans :
    ¬ RecordsReferenced (fun _ => "signature") Ordinary ∧
      ¬ RetriesComplete (fun _ => "signature") Ordinary := by
  let M := machine fun _ => "signature"
  have orphaned : (M.play Ordinary ⟨[], M.init⟩ deletedDuringSend).map (fun moment =>
      ((moment.state.records.get "s1:e1").map fun record =>
        (record.subscriptionId, moment.state.subscriptions.get record.subscriptionId),
       moment.past.head?)) =
      some (some ("s1", none), some (⟨5000, .proceed 2 "u2"⟩,
        .threw (.notFound "Subscription s1 not found"))) := by decide +kernel
  obtain ⟨moment, played, seen⟩ := Option.map_eq_some_iff.mp orphaned
  obtain ⟨stored, last⟩ := Prod.mk.inj seen
  have run : M.Run Ordinary moment.past moment.state := Machine.play_run played
  constructor
  · intro referenced
    obtain ⟨record, held, pair⟩ := Option.map_eq_some_iff.mp stored
    have missing := (Prod.mk.inj pair).2
    exact referenced _ _ run _ record held missing
  · intro complete
    exact complete _ _ run _ (List.mem_of_mem_head? last) 2 "u2" rfl _ rfl

end WebhookService
end AstraPort.Webhook
