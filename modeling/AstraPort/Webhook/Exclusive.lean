import AstraPort.Webhook.Delivery

/- Who may write which delivery record. In runs without races each open (subscription,
   event) pair is claimed by at most one activity: as an item still ahead of a publish
   loop, or as a send awaiting its answer. -/
namespace AstraPort.Webhook

def ColonFree (id : String) : Prop := ':' ∉ id.toList

instance (id : String) : Decidable (ColonFree id) := inferInstanceAs (Decidable (_ ∉ _))

theorem split_at_first {c : Char} {left left' right right' : List Char} (free : c ∉ left)
    (free' : c ∉ left') (same : left ++ c :: right = left' ++ c :: right') :
    left = left' ∧ right = right' := by
  induction left generalizing left' with
  | nil =>
    cases left' with
    | nil => simpa using same
    | cons d rest =>
      simp only [List.nil_append, List.cons_append, List.cons.injEq] at same
      simp [same.1] at free'
  | cons d rest ih =>
    cases left' with
    | nil =>
      simp only [List.nil_append, List.cons_append, List.cons.injEq] at same
      simp [same.1] at free
    | cons e rest' =>
      simp only [List.cons_append, List.cons.injEq] at same
      simp only [List.mem_cons, not_or] at free free'
      obtain ⟨tails, rights⟩ := ih free.2 free'.2 same.2
      exact ⟨by rw [same.1, tails], rights⟩

theorem recordKey_inj {sub sub' event event' : String} (free : ColonFree sub)
    (free' : ColonFree sub') (same : recordKey sub event = recordKey sub' event') :
    sub = sub' ∧ event = event' := by
  simp only [recordKey, ← String.toList_inj, String.toList_append] at same
  have colon : ":".toList = [':'] := by decide
  rw [colon, List.append_assoc, List.append_assoc, List.singleton_append,
    List.singleton_append] at same
  simpa [String.toList_inj] using split_at_first free free' same

def WebhookCall.uuids : WebhookCall → List String
  | .createSubscription _ _ id => [id]
  | .simulateDelivery _ _ eventId recordId => [eventId, recordId]
  | .publishAndDeliver _ _ eventId => [eventId]
  | .proceed _ recordId => [recordId]
  | .answered _ _ recordId => [recordId]
  | .updateSubscription .. => []
  | .deleteSubscription .. => []
  | .acknowledgeEvents .. => []
  | .retryDueDeliveries .. => []

def usedUuids (past : List (TimedCall × WebhookAnswer)) : List String :=
  past.flatMap fun e => e.1.call.uuids

/-- The host: a clock that never runs backwards, and uuids without a colon that were
    never given out before. -/
def Ordinary : Machine.Permit WebhookService TimedCall WebhookAnswer := fun past service timed =>
  Machine.ClockAdvances TimedCall.now past service timed ∧ timed.call.uuids.Nodup ∧
    ∀ id ∈ timed.call.uuids, ColonFree id ∧ id ∉ usedUuids past

instance (past : List (TimedCall × WebhookAnswer)) (service : WebhookService) (timed : TimedCall) :
    Decidable (Ordinary past service timed) :=
  inferInstanceAs (Decidable ((∀ e ∈ past, e.1.now ≤ timed.now) ∧ timed.call.uuids.Nodup ∧
    ∀ id ∈ timed.call.uuids, ColonFree id ∧ id ∉ usedUuids past))

namespace Activity

/-- Deliveries a publish loop still has ahead of it; a retry loop claims nothing before
    it sends. -/
def ahead (activity : Activity) : List Delivery :=
  match activity.loop with
  | .publish event remaining => remaining.map fun subscription => ⟨subscription, event⟩
  | .retry _ _ => []

def deliveries (activity : Activity) : List Delivery := activity.awaiting.toList ++ activity.ahead

def awaited (activity : Activity) : List String := activity.awaiting.toList.map Delivery.key

def pending (activity : Activity) : List String := activity.ahead.map Delivery.key

def claims (activity : Activity) : List String := activity.awaited ++ activity.pending

theorem claims_deliveries (activity : Activity) :
    activity.claims = activity.deliveries.map Delivery.key := by
  rw [deliveries, List.map_append]
  rfl

end Activity

namespace WebhookService

def InFlight (service : WebhookService) (key : String) : Prop :=
  ∃ task activity, service.activities.get task = some activity ∧ key ∈ activity.awaited

instance (service : WebhookService) (key : String) : Decidable (service.InFlight key) :=
  decidable_of_iff (∃ activity ∈ service.activities.values, key ∈ activity.awaited) (by
    simp only [InFlight, InsertionMap.mem_values]
    exact ⟨fun ⟨activity, ⟨task, running⟩, awaited⟩ => ⟨task, activity, running, awaited⟩,
      fun ⟨task, activity, running, awaited⟩ => ⟨activity, ⟨task, running⟩, awaited⟩⟩)

/-- The live record is the one a snapshot shows, still open under the same schedule. -/
def StillOpen (service : WebhookService) (snapshot : DeliveryRecordEntity) : Prop :=
  ∃ record ∈ service.records.get (recordKey snapshot.subscriptionId snapshot.eventId),
    record.id = snapshot.id ∧ record.outcome = .retrying ∧
    record.nextRetryAt = snapshot.nextRetryAt

instance (service : WebhookService) (snapshot : DeliveryRecordEntity) :
    Decidable (service.StillOpen snapshot) :=
  inferInstanceAs (Decidable (∃ record ∈ service.records.get _, _))

/-- The snapshot a retry run delivers at its next turn, if it delivers at all. -/
def takesUp (service : WebhookService) (task : Nat) : Option DeliveryRecordEntity :=
  match (service.activities.get task).map Activity.loop with
  | some (.retry due (snapshot :: _)) =>
    if dueSchedule snapshot due ≠ none ∧ service.findEvent snapshot.eventId ≠ none ∧
        service.subscriptions.get snapshot.subscriptionId ≠ none then some snapshot
    else none
  | _ => none

/-- No race on a record: a retry takes a delivery up only while its snapshot is current
    and nothing else sends for the pair, and acknowledgements stay clear of sends. -/
def Unraced : Machine.Permit WebhookService TimedCall WebhookAnswer := fun _ service timed =>
  match timed.call with
  | .proceed task _ => ∀ snapshot ∈ service.takesUp task, service.StillOpen snapshot ∧
      ¬ service.InFlight (recordKey snapshot.subscriptionId snapshot.eventId)
  | .acknowledgeEvents userId subscriptionId eventIds =>
      ∀ _entity ∈ (service.subscriptionService.findOrThrow userId subscriptionId).toOption,
        ∀ eventId ∈ eventIds, service.records.get (recordKey subscriptionId eventId) ≠ none →
          ¬ service.InFlight (recordKey subscriptionId eventId)
  | _ => True

instance (past : List (TimedCall × WebhookAnswer)) (service : WebhookService) (timed : TimedCall) :
    Decidable (Unraced past service timed) :=
  match timed with
  | ⟨_, .proceed _ _⟩ => inferInstanceAs (Decidable (∀ _ ∈ service.takesUp _, _ ∧ ¬ _))
  | ⟨_, .acknowledgeEvents _ _ _⟩ =>
    inferInstanceAs (Decidable (∀ _entity ∈ Except.toOption _, ∀ _ ∈ _, _ → ¬ _))
  | ⟨_, .createSubscription _ _ _⟩ => isTrue trivial
  | ⟨_, .updateSubscription _ _ _⟩ => isTrue trivial
  | ⟨_, .deleteSubscription _ _⟩ => isTrue trivial
  | ⟨_, .simulateDelivery _ _ _ _⟩ => isTrue trivial
  | ⟨_, .publishAndDeliver _ _ _⟩ => isTrue trivial
  | ⟨_, .retryDueDeliveries _ _⟩ => isTrue trivial
  | ⟨_, .answered _ _ _⟩ => isTrue trivial

def eventIds (service : WebhookService) : List String :=
  service.eventHistory.map WebhookEvent.id

/-- Keys of a subscription id and a published event. -/
def Known (service : WebhookService) (key : String) : Prop :=
  ∃ subscriptionId eventId, ColonFree subscriptionId ∧ eventId ∈ service.eventIds ∧
    key = recordKey subscriptionId eventId

def Unclaimed (service : WebhookService) (key : String) : Prop :=
  ∀ task activity, service.activities.get task = some activity → key ∉ activity.claims

structure Exclusive (service : WebhookService) : Prop where
  subscriptions_named : ∀ id entity, service.subscriptions.get id = some entity →
    entity.id = id ∧ ColonFree id
  records_keyed : ∀ key record, service.records.get key = some record →
    key = recordKey record.subscriptionId record.eventId ∧ ColonFree record.subscriptionId ∧
      record.eventId ∈ service.eventIds
  deliveries_known : ∀ task activity, service.activities.get task = some activity →
    ∀ delivery ∈ activity.deliveries, ColonFree delivery.subscription.id ∧
      delivery.event.id ∈ service.eventIds
  claims_distinct : ∀ task activity, service.activities.get task = some activity →
    activity.claims.Nodup
  claims_apart : ∀ task other activity rival key, service.activities.get task = some activity →
    service.activities.get other = some rival → key ∈ activity.claims → key ∈ rival.claims →
    task = other
  pending_unrecorded : ∀ task activity, service.activities.get task = some activity →
    ∀ key ∈ activity.pending, service.records.get key = none
  awaited_open : ∀ task activity, service.activities.get task = some activity →
    ∀ key ∈ activity.awaited, ∀ record, service.records.get key = some record →
      record.outcome = .retrying

theorem exclusive_initial : initial.Exclusive := by
  constructor <;> simp [initial, SubscriptionService.initial, subscriptions, records]

section Preserved
variable {service : WebhookService}

theorem Exclusive.withActivity (exclusive : service.Exclusive) {task : Nat} {activity : Activity}
    (known : ∀ delivery ∈ activity.deliveries, ColonFree delivery.subscription.id ∧
      delivery.event.id ∈ service.eventIds) (distinct : activity.claims.Nodup)
    (apart : ∀ key ∈ activity.claims, ∀ other rival, service.activities.get other = some rival →
      key ∈ rival.claims → other = task)
    (unrecorded : ∀ key ∈ activity.pending, service.records.get key = none)
    (still_open : ∀ key ∈ activity.awaited, ∀ record, service.records.get key = some record →
      record.outcome = .retrying) : (service.withActivity task activity).Exclusive := by
  -- each field for the new activity by hypothesis, for the others as before
  have split : ∀ other rival, (service.withActivity task activity).activities.get other = some rival →
      (other = task ∧ rival = activity) ∨
        (other ≠ task ∧ service.activities.get other = some rival) :=
    fun other rival running => InsertionMap.get_set_cases running
  refine ⟨exclusive.subscriptions_named, exclusive.records_keyed, ?_, ?_, ?_, ?_, ?_⟩
  · intro other rival running
    rcases split other rival running with ⟨_, rfl⟩ | ⟨_, before⟩
    · exact known
    · exact exclusive.deliveries_known other rival before
  · intro other rival running
    rcases split other rival running with ⟨_, rfl⟩ | ⟨_, before⟩
    · exact distinct
    · exact exclusive.claims_distinct other rival before
  · intro first second mine yours key runs_first runs_second claims_first claims_second
    rcases split first mine runs_first with ⟨rfl, rfl⟩ | ⟨_, before⟩
    · rcases split second yours runs_second with ⟨same, _⟩ | ⟨_, before⟩
      · exact same.symm
      · exact (apart key claims_first second yours before claims_second).symm
    · rcases split second yours runs_second with ⟨rfl, rfl⟩ | ⟨_, before'⟩
      · exact apart key claims_second first mine before claims_first
      · exact exclusive.claims_apart first second mine yours key before before' claims_first
          claims_second
  · intro other rival running
    rcases split other rival running with ⟨_, rfl⟩ | ⟨_, before⟩
    · exact unrecorded
    · exact exclusive.pending_unrecorded other rival before
  · intro other rival running
    rcases split other rival running with ⟨_, rfl⟩ | ⟨_, before⟩
    · exact still_open
    · exact exclusive.awaited_open other rival before

/- An activity may give up claims. -/
theorem Exclusive.narrowed (exclusive : service.Exclusive) {task : Nat}
    {activity narrower : Activity} (running : service.activities.get task = some activity)
    (awaits : narrower.awaiting.toList.Sublist activity.awaiting.toList)
    (holds : narrower.ahead.Sublist activity.ahead) :
    (service.withActivity task narrower).Exclusive := by
  have fewer : narrower.claims.Sublist activity.claims := (awaits.map _).append (holds.map _)
  refine exclusive.withActivity ?_ ?_ ?_ ?_ ?_
  · intro delivery member
    exact exclusive.deliveries_known task activity running delivery
      ((awaits.append holds).subset member)
  · exact (exclusive.claims_distinct task activity running).sublist fewer
  · intro key claimed other rival runs claims
    exact exclusive.claims_apart other task rival activity key runs running claims
      (fewer.subset claimed)
  · intro key ahead
    exact exclusive.pending_unrecorded task activity running key ((holds.map _).subset ahead)
  · intro key awaited
    exact exclusive.awaited_open task activity running key ((awaits.map _).subset awaited)

theorem Exclusive.withoutActivity (exclusive : service.Exclusive) (task : Nat) :
    (service.withoutActivity task).Exclusive := by
  have still : ∀ {other rival}, (service.withoutActivity task).activities.get other = some rival →
      service.activities.get other = some rival := by
    intro other rival running
    by_cases same : other = task
    · subst other
      simp at running
    · simpa [same] using running
  exact ⟨exclusive.subscriptions_named, exclusive.records_keyed,
    fun other rival running => exclusive.deliveries_known other rival (still running),
    fun other rival running => exclusive.claims_distinct other rival (still running),
    fun first second mine yours key runs_first runs_second =>
      exclusive.claims_apart first second mine yours key (still runs_first) (still runs_second),
    fun other rival running => exclusive.pending_unrecorded other rival (still running),
    fun other rival running => exclusive.awaited_open other rival (still running)⟩

theorem Exclusive.record (exclusive : service.Exclusive) {delivery : Delivery}
    (unclaimed : service.Unclaimed delivery.key) (free : ColonFree delivery.subscription.id)
    (published : delivery.event.id ∈ service.eventIds) (outcome : DeliveryOutcome)
    (recordId : String) (now : Nat) :
    (service.record delivery outcome recordId now).1.Exclusive := by
  refine ⟨exclusive.subscriptions_named, ?_, exclusive.deliveries_known,
    exclusive.claims_distinct, exclusive.claims_apart, ?_, ?_⟩
  · intro key written present
    rw [records_record] at present
    split at present
    · rename_i same
      obtain rfl := Option.some.inj present
      simp only [WebhookService.record, SubscriptionService.recordDeliveryAttempt,
        SubscriptionService.scheduled_subscriptionId, SubscriptionService.scheduled_eventId]
      cases held : service.subscriptionService.deliveryRecords.get
          (recordKey delivery.subscription.id delivery.event.id) with
      | none => exact ⟨same, free, published⟩
      | some old =>
        have keyed := exclusive.records_keyed _ old held
        exact ⟨same.trans keyed.1, keyed.2⟩
    · exact exclusive.records_keyed key written present
  · intro task activity running key ahead
    have ne : key ≠ delivery.key := by
      rintro rfl
      exact unclaimed task activity running (List.mem_append_right _ ahead)
    rw [records_record, if_neg ne]
    exact exclusive.pending_unrecorded task activity running key ahead
  · intro task activity running key awaited written present
    have ne : key ≠ delivery.key := by
      rintro rfl
      exact unclaimed task activity running (List.mem_append_left _ awaited)
    rw [records_record, if_neg ne] at present
    exact exclusive.awaited_open task activity running key awaited written present

theorem Exclusive.publishEvent (exclusive : service.Exclusive) (event : WebhookEvent) :
    (service.publishEvent event).Exclusive := by
  refine ⟨exclusive.subscriptions_named, ?_, ?_, exclusive.claims_distinct,
    exclusive.claims_apart, exclusive.pending_unrecorded, exclusive.awaited_open⟩
  · intro key record present
    obtain ⟨same, free, member⟩ := exclusive.records_keyed key record present
    exact ⟨same, free, List.mem_cons_of_mem _ member⟩
  · intro task activity running delivery member
    have known := exclusive.deliveries_known task activity running delivery member
    exact ⟨known.1, List.mem_cons_of_mem _ known.2⟩

/- Writes to the subscriptions that keep each under its own id. -/
theorem Exclusive.withSubscription (exclusive : service.Exclusive) (entity : SubscriptionEntity)
    (free : ColonFree entity.id) :
    ({ service with subscriptionService := { service.subscriptionService with
        subscriptions := service.subscriptions.set entity.id entity } } : WebhookService).Exclusive := by
  refine ⟨?_, exclusive.records_keyed, exclusive.deliveries_known, exclusive.claims_distinct,
    exclusive.claims_apart, exclusive.pending_unrecorded, exclusive.awaited_open⟩
  exact InsertionMap.get_set_all ⟨rfl, free⟩ exclusive.subscriptions_named

/- Changes of the records that remove some and settle others no send is out for. -/
theorem Exclusive.withRecords (exclusive : service.Exclusive)
    {subscriptions : InsertionMap String SubscriptionEntity}
    {left : InsertionMap String DeliveryRecordEntity}
    (fewer : ∀ id entity, subscriptions.get id = some entity →
      service.subscriptions.get id = some entity)
    (from_old : ∀ key record, left.get key = some record →
      ∃ old, service.records.get key = some old ∧ record.subscriptionId = old.subscriptionId ∧
        record.eventId = old.eventId ∧ (service.InFlight key → record.outcome = old.outcome)) :
    ({ service with subscriptionService :=
      { subscriptions := subscriptions, deliveryRecords := left } } : WebhookService).Exclusive := by
  refine ⟨?_, ?_, exclusive.deliveries_known, exclusive.claims_distinct, exclusive.claims_apart,
    ?_, ?_⟩
  · intro id entity present
    exact exclusive.subscriptions_named id entity (fewer id entity present)
  · intro key record present
    obtain ⟨old, held, same_subscription, same_event, _⟩ := from_old key record present
    rw [same_subscription, same_event]
    exact exclusive.records_keyed key old held
  · intro task activity running key ahead
    have before := exclusive.pending_unrecorded task activity running key ahead
    cases present : left.get key with
    | none => exact present
    | some record =>
      obtain ⟨old, held, _⟩ := from_old key record present
      rw [held] at before
      cases before
  · intro task activity running key awaited record present
    obtain ⟨old, held, _, _, untouched⟩ := from_old key record present
    rw [untouched ⟨task, activity, running, awaited⟩]
    exact exclusive.awaited_open task activity running key awaited old held

theorem Exclusive.claims_known (exclusive : service.Exclusive) {task : Nat} {activity : Activity}
    (running : service.activities.get task = some activity) {key : String}
    (claimed : key ∈ activity.claims) : service.Known key := by
  rw [activity.claims_deliveries] at claimed
  obtain ⟨delivery, member, rfl⟩ := List.mem_map.mp claimed
  have known := exclusive.deliveries_known task activity running delivery member
  exact ⟨delivery.subscription.id, delivery.event.id, known.1, known.2, rfl⟩

theorem Exclusive.unknown_unclaimed (exclusive : service.Exclusive) {key : String}
    (unknown : ¬ service.Known key) : service.Unclaimed key :=
  fun _ _ running claimed => unknown (exclusive.claims_known running claimed)

theorem Exclusive.recorded_known (exclusive : service.Exclusive) {key : String}
    {record : DeliveryRecordEntity} (present : service.records.get key = some record) :
    service.Known key := by
  obtain ⟨same, free, member⟩ := exclusive.records_keyed key record present
  exact ⟨record.subscriptionId, record.eventId, free, member, same⟩

theorem Exclusive.unknown_unrecorded (exclusive : service.Exclusive) {key : String}
    (unknown : ¬ service.Known key) : service.records.get key = none := by
  cases present : service.records.get key with
  | none => rfl
  | some record => exact absurd (exclusive.recorded_known present) unknown

/- Active subscriptions are distinct, so a new publish loop claims each key once. -/
theorem Exclusive.active_keys (exclusive : service.Exclusive) (eventId : String) :
    (service.subscriptionService.listActiveSubscriptions.map fun subscription =>
      recordKey subscription.id eventId).Nodup ∧
    ∀ subscription ∈ service.subscriptionService.listActiveSubscriptions,
      ColonFree subscription.id ∧
        service.subscriptions.get subscription.id = some subscription := by
  have stored : ∀ e ∈ service.subscriptions.entries, ColonFree e.2.id ∧ e.2.id = e.1 := by
    intro e member
    have named := exclusive.subscriptions_named e.1 e.2 ((InsertionMap.get_iff_mem _).mpr member)
    exact ⟨named.1 ▸ named.2, named.1⟩
  have listed : ∀ subscription ∈ service.subscriptionService.listActiveSubscriptions,
      ∃ e ∈ service.subscriptions.entries, e.2 = subscription := by
    intro subscription member
    exact List.mem_map.mp (List.mem_of_mem_filter member)
  constructor
  · have ids : (service.subscriptionService.listAllSubscriptions.map SubscriptionEntity.id).Nodup := by
      have same : service.subscriptionService.listAllSubscriptions.map SubscriptionEntity.id =
          service.subscriptions.entries.map Prod.fst := by
        rw [SubscriptionService.listAllSubscriptions, InsertionMap.values, List.map_map]
        exact List.map_congr_left fun e member => (stored e member).2
      rw [same]
      exact service.subscriptions.distinct
    have active := ids.sublist (List.filter_sublist.map _ :
      (service.subscriptionService.listActiveSubscriptions.map SubscriptionEntity.id).Sublist _)
    have keys := active.map_on (f := fun id => recordKey id eventId) ?_
    · rwa [List.map_map] at keys
    · intro first one second two same
      obtain ⟨subscription, member, rfl⟩ := List.mem_map.mp one
      obtain ⟨other, member', rfl⟩ := List.mem_map.mp two
      obtain ⟨e, known, rfl⟩ := listed subscription member
      obtain ⟨f, known', rfl⟩ := listed other member'
      exact (recordKey_inj (stored e known).1 (stored f known').1 same).1
  · intro subscription member
    obtain ⟨e, known, rfl⟩ := listed subscription member
    refine ⟨(stored e known).1, ?_⟩
    rw [(stored e known).2]
    exact (InsertionMap.get_iff_mem _).mpr known

/- Once its claim is given up, the activity that held a key may write its record. -/
theorem Exclusive.released (exclusive : service.Exclusive) {task : Nat}
    {activity narrower : Activity} {delivery : Delivery}
    (running : service.activities.get task = some activity)
    (awaits : narrower.awaiting.toList.Sublist activity.awaiting.toList)
    (holds : narrower.ahead.Sublist activity.ahead) (given_up : delivery.key ∉ narrower.claims)
    (alone : ∀ other rival, service.activities.get other = some rival →
      delivery.key ∈ rival.claims → other = task)
    (free : ColonFree delivery.subscription.id)
    (published : delivery.event.id ∈ service.eventIds) {outcome : DeliveryOutcome}
    {recordId : String} {now : Nat} {left : WebhookService} {record : DeliveryRecordEntity}
    (attempt : service.record delivery outcome recordId now = (left, record)) :
    (left.withActivity task narrower).Exclusive := by
  have narrowed := exclusive.narrowed running awaits holds
  have unclaimed : (service.withActivity task narrower).Unclaimed delivery.key := by
    intro other rival runs claimed
    rw [activities_withActivity, InsertionMap.get_set] at runs
    split at runs
    · rw [← Option.some.inj runs] at claimed
      exact given_up claimed
    · rename_i ne
      exact ne (alone other rival runs claimed)
  have written := narrowed.record unclaimed free published outcome recordId now
  obtain rfl := (Prod.mk.inj attempt).1
  exact written

end Preserved

section Steps
variable {signPayload : WebhookEvent → String} {service after : WebhookService} {now : Nat}
  {answer : WebhookAnswer}

theorem findEvent_id {eventId : String} {event : WebhookEvent}
    (known : service.findEvent eventId = some event) :
    event.id = eventId ∧ event.id ∈ service.eventIds := by
  have found := List.find?_some known
  exact ⟨by simpa using found, List.mem_map_of_mem (List.mem_of_find?_eq_some known)⟩

/- A retry turn serves the pair of its snapshot, whose record Unraced keeps in view. -/
theorem retry_turn_pair (exclusive : service.Exclusive) {snapshot : DeliveryRecordEntity}
    {event : WebhookEvent} {subscription : SubscriptionEntity}
    (known : service.findEvent snapshot.eventId = some event)
    (found : service.subscriptions.get snapshot.subscriptionId = some subscription) :
    subscription.id = snapshot.subscriptionId ∧ event.id = snapshot.eventId ∧
      ColonFree subscription.id ∧ event.id ∈ service.eventIds := by
  have named := exclusive.subscriptions_named _ _ found
  have event_known := findEvent_id known
  exact ⟨named.1, event_known.1, named.1 ▸ named.2, event_known.2⟩

/- What taking a retry up without a race means: the live record is the open one of the
   snapshot, and no activity claims its pair. -/
theorem retry_turn_alone (exclusive : service.Exclusive) {task : Nat} {recordId : String}
    {activity : Activity} {due schedule : Nat} {snapshot : DeliveryRecordEntity}
    {remaining : List DeliveryRecordEntity} {event : WebhookEvent}
    {subscription : SubscriptionEntity} (running : service.activities.get task = some activity)
    (at_loop : activity.loop = .retry due (snapshot :: remaining))
    (reached : dueSchedule snapshot due = some schedule)
    (known : service.findEvent snapshot.eventId = some event)
    (found : service.subscriptions.get snapshot.subscriptionId = some subscription)
    (unraced : Unraced [] service ⟨now, .proceed task recordId⟩) :
    (∃ live, service.records.get (Delivery.key ⟨subscription, event⟩) = some live ∧
      live.id = snapshot.id ∧ live.outcome = .retrying ∧
      live.nextRetryAt = snapshot.nextRetryAt) ∧
    service.Unclaimed (Delivery.key ⟨subscription, event⟩) := by
  obtain ⟨same_subscription, same_event, _⟩ := retry_turn_pair exclusive known found
  have fresh := unraced snapshot (by simp [takesUp, running, at_loop, reached, known, found])
  have pair : recordKey snapshot.subscriptionId snapshot.eventId =
      Delivery.key ⟨subscription, event⟩ := by
    rw [Delivery.key, same_subscription, same_event]
  rw [StillOpen, pair] at fresh
  refine ⟨fresh.1, ?_⟩
  intro other rival runs claims
  rcases List.mem_append.mp claims with awaited | pending
  · exact fresh.2 ⟨other, rival, runs, awaited⟩
  · obtain ⟨live, held, _⟩ := fresh.1
    rw [exclusive.pending_unrecorded other rival runs _ pending] at held
    cases held

theorem acknowledged_exclusive (exclusive : service.Exclusive) {userId subscriptionId : String}
    {eventIds skippedIds : List String} {count : Nat} {entity : SubscriptionEntity}
    {left : InsertionMap String DeliveryRecordEntity}
    (found : service.subscriptionService.findOrThrow userId subscriptionId = .ok entity)
    (settled : SubscriptionService.acknowledgeEach subscriptionId now service.records eventIds =
      (left, count, skippedIds))
    (unraced : Unraced [] service ⟨now, .acknowledgeEvents userId subscriptionId eventIds⟩) :
    ({ service with subscriptionService :=
      { service.subscriptionService with deliveryRecords := left } } : WebhookService).Exclusive := by
  refine exclusive.withRecords (fun _ _ present => present) ?_
  intro key record present
  have written := SubscriptionService.acknowledgeEach_get subscriptionId now eventIds
    service.records key
  rw [settled, present] at written
  obtain ⟨old, held, same⟩ := Option.map_eq_some_iff.mp written.symm
  refine ⟨old, held, ?_⟩
  split at same
  · rename_i named
    obtain ⟨⟨eventId, member, rfl⟩, _⟩ := named
    obtain rfl := same
    refine ⟨rfl, rfl, ?_⟩
    intro inFlight
    exact absurd inFlight (unraced entity (by rw [found]; rfl) eventId member (by simp [held]))
  · obtain rfl := same
    exact ⟨rfl, rfl, fun _ => rfl⟩

theorem published_exclusive (exclusive : service.Exclusive) {task : Nat} {event : WebhookEvent}
    (unknown : ∀ subscriptionId, ColonFree subscriptionId →
      ¬ service.Known (recordKey subscriptionId event.id)) :
    ((service.publishEvent event).withActivity task
      ⟨.publish event service.subscriptionService.listActiveSubscriptions, none, []⟩).Exclusive := by
  have active := exclusive.active_keys event.id
  have pending : ∀ key ∈ (Activity.mk (.publish event
      service.subscriptionService.listActiveSubscriptions) none []).pending,
      ¬ service.Known key := by
    intro key member
    simp only [Activity.pending, Activity.ahead, List.map_map, List.mem_map,
      Function.comp_apply] at member
    obtain ⟨subscription, listed, rfl⟩ := member
    exact unknown subscription.id (active.2 subscription listed).1
  refine (exclusive.publishEvent event).withActivity ?_ ?_ ?_ ?_ ?_
  · intro delivery member
    simp only [Activity.deliveries, Activity.ahead, Option.toList_none, List.nil_append,
      List.mem_map] at member
    obtain ⟨subscription, listed, rfl⟩ := member
    exact ⟨(active.2 subscription listed).1, List.mem_cons_self⟩
  · simp only [Activity.claims, Activity.awaited, Activity.pending, Activity.ahead,
      Option.toList_none, List.map_nil, List.nil_append, List.map_map]
    exact active.1
  · intro key claimed other rival running claims
    exact absurd (exclusive.claims_known running claims) (pending key claimed)
  · intro key member
    exact exclusive.unknown_unrecorded (pending key member)
  · intro key member
    simp [Activity.awaited] at member

theorem sent_exclusive (exclusive : service.Exclusive) {task : Nat} {recordId : String}
    {activity : Activity} {rest : Loop} {delivery : Delivery} {schedule : Option (String × Nat)}
    (running : service.activities.get task = some activity) (idle : activity.awaiting = none)
    (turn : Turn service activity.loop rest delivery schedule)
    (unraced : Unraced [] service ⟨now, .proceed task recordId⟩) :
    (service.withActivity task
      { activity with loop := rest, awaiting := some delivery }).Exclusive := by
  obtain ⟨loop, awaiting, results⟩ := activity
  obtain rfl : awaiting = none := idle
  cases turn with
  | publish selected =>
    -- the head of the loop moves from the pending claims to the awaited one
    have ahead := exclusive.pending_unrecorded task _ running
    have known := exclusive.deliveries_known task _ running
    have distinct := exclusive.claims_distinct task _ running
    refine exclusive.withActivity known distinct ?_ ?_ ?_
    · intro key claimed other rival runs claims
      exact exclusive.claims_apart other task rival _ key runs running claims claimed
    · intro key member
      exact ahead key (List.mem_cons_of_mem _ member)
    · intro key member record present
      have unrecorded := ahead key (by
        rw [List.mem_singleton.mp member]
        exact List.mem_cons_self)
      rw [unrecorded] at present
      cases present
  | retry reached known found =>
    rename_i due schedule snapshot remaining event subscription
    obtain ⟨_, _, free, published⟩ := retry_turn_pair exclusive known found
    obtain ⟨⟨live, held, _, still_open, _⟩, unclaimed⟩ :=
      retry_turn_alone exclusive running rfl reached known found unraced
    refine exclusive.withActivity ?_ ?_ ?_ ?_ ?_
    · intro delivery member
      obtain rfl : delivery = ⟨subscription, event⟩ := by
        simpa [Activity.deliveries, Activity.ahead] using member
      exact ⟨free, published⟩
    · simp [Activity.claims, Activity.awaited, Activity.pending, Activity.ahead]
    · intro key claimed other rival runs claims
      obtain rfl : key = Delivery.key ⟨subscription, event⟩ := by
        simpa [Activity.claims, Activity.awaited, Activity.pending, Activity.ahead] using claimed
      exact absurd claims (unclaimed other rival runs)
    · intro key member
      simp [Activity.pending, Activity.ahead] at member
    · intro key awaited record present
      obtain rfl : key = Delivery.key ⟨subscription, event⟩ := by
        simpa [Activity.awaited] using awaited
      rw [held] at present
      rw [← Option.some.inj present, still_open]

theorem unsent_exclusive (exclusive : service.Exclusive) {task : Nat} {recordId : String}
    {activity : Activity} {rest : Loop} {delivery : Delivery} {schedule : Option (String × Nat)}
    {results : List WebhookDeliveryResult} {left : WebhookService} {record : DeliveryRecordEntity}
    (running : service.activities.get task = some activity) (idle : activity.awaiting = none)
    (turn : Turn service activity.loop rest delivery schedule)
    (attempt : service.record delivery .delivered recordId now = (left, record))
    (unraced : Unraced [] service ⟨now, .proceed task recordId⟩) :
    (left.withActivity task ⟨rest, none, results⟩).Exclusive := by
  obtain ⟨loop, awaiting, earlier⟩ := activity
  obtain rfl : awaiting = none := idle
  cases turn with
  | publish selected =>
    rename_i event subscription remaining
    have known := exclusive.deliveries_known task _ running ⟨subscription, event⟩
      List.mem_cons_self
    have distinct := exclusive.claims_distinct task _ running
    refine exclusive.released running ?_ ?_ ?_ ?_ known.1 known.2 attempt
    · exact List.Sublist.refl _
    · exact List.sublist_cons_self _ _
    · exact (List.nodup_cons.mp distinct).1
    · intro other rival runs claims
      exact exclusive.claims_apart other task rival _ _ runs running claims List.mem_cons_self
  | retry reached known found =>
    obtain ⟨_, _, free, published⟩ := retry_turn_pair exclusive known found
    obtain ⟨_, unclaimed⟩ := retry_turn_alone exclusive running rfl reached known found unraced
    refine exclusive.released running ?_ ?_ ?_ ?_ free published attempt
    · exact List.Sublist.refl _
    · exact List.Sublist.refl _
    · simp [Activity.claims, Activity.awaited, Activity.pending, Activity.ahead]
    · intro other rival runs claims
      exact absurd claims (unclaimed other rival runs)

theorem settled_exclusive (exclusive : service.Exclusive) {task : Nat} {recordId : String}
    {activity : Activity} {delivery : Delivery} {outcome : DeliveryOutcome}
    {results : List WebhookDeliveryResult} {left : WebhookService} {record : DeliveryRecordEntity}
    (running : service.activities.get task = some activity)
    (awaited : activity.awaiting = some delivery)
    (attempt : service.record delivery outcome recordId now = (left, record)) :
    (left.withActivity task ⟨activity.loop, none, results⟩).Exclusive := by
  obtain ⟨loop, awaiting, earlier⟩ := activity
  obtain rfl : awaiting = some delivery := awaited
  have known := exclusive.deliveries_known task _ running delivery List.mem_cons_self
  have distinct := exclusive.claims_distinct task _ running
  refine exclusive.released running ?_ ?_ ?_ ?_ known.1 known.2 attempt
  · exact List.nil_sublist _
  · exact List.Sublist.refl _
  · exact (List.nodup_cons.mp distinct).1
  · intro other rival runs claims
    exact exclusive.claims_apart other task rival _ _ runs running claims List.mem_cons_self

theorem pass_narrows {activity : Activity} {rest : Loop} (pass : Pass service activity.loop rest) :
    ({ activity with loop := rest } : Activity).ahead.Sublist activity.ahead := by
  obtain ⟨loop, awaiting, results⟩ := activity
  cases pass with
  | publish => exact List.sublist_cons_self _ _
  | retry => exact List.Sublist.refl _

theorem Move.exclusive {call : WebhookCall} (move : Move signPayload service now call after answer)
    (exclusive : service.Exclusive)
    (fresh : ∀ id ∈ call.uuids, ColonFree id ∧ id ∉ service.eventIds)
    (unraced : Unraced [] service ⟨now, call⟩) : after.Exclusive := by
  have unknown : ∀ eventId ∈ call.uuids, ∀ subscriptionId, ColonFree subscriptionId →
      ¬ service.Known (recordKey subscriptionId eventId) := by
    rintro eventId offered subscriptionId free ⟨other, published, free', member, same⟩
    rw [(recordKey_inj free free' same).2] at offered
    exact (fresh published offered).2 member
  cases move with
  | refused told thrown => exact exclusive
  | created userId dto named enabled =>
    subst named
    exact exclusive.withSubscription _ (fresh _ List.mem_cons_self).1
  | updated dto found =>
    have named := exclusive.subscriptions_named _ _ (SubscriptionService.findOrThrow_ok found)
    exact exclusive.withSubscription (SubscriptionService.updated _ dto now) (named.1 ▸ named.2)
  | removed found =>
    refine exclusive.withRecords ?_ ?_
    · exact fun id entity present => InsertionMap.get_of_delete present
    · intro key record present
      rw [InsertionMap.get_keep, Option.filter_eq_some_iff] at present
      exact ⟨record, present.1, rfl, rfl, fun _ => rfl⟩
  | acknowledged found settled => exact acknowledged_exclusive exclusive found settled unraced
  | simulated input eventId recordId found attempt =>
    have named := exclusive.subscriptions_named _ _ found
    have free := named.1 ▸ named.2
    obtain rfl := (Prod.mk.inj attempt).1
    refine (exclusive.publishEvent _).record ?_ free List.mem_cons_self .delivered recordId now
    exact exclusive.unknown_unclaimed (unknown eventId List.mem_cons_self _ free)
  | unsimulated input eventId recordId thrown => exact exclusive.publishEvent _
  | published input eventId free =>
    exact published_exclusive exclusive (unknown eventId List.mem_cons_self)
  | retried due free =>
    refine exclusive.withActivity ?_ ?_ ?_ ?_ ?_ <;>
      simp [Activity.deliveries, Activity.claims, Activity.awaited, Activity.pending,
        Activity.ahead]
  | finished running idle exhausted => exact exclusive.withoutActivity _
  | aborted running idle at_snapshot reached known missing thrown =>
    exact exclusive.withoutActivity _
  | passed running idle pass =>
    exact exclusive.narrowed running (List.Sublist.refl _) (pass_narrows pass)
  | sent running idle turn => exact sent_exclusive exclusive running idle turn unraced
  | unsent running idle turn attempt =>
    exact unsent_exclusive exclusive running idle turn attempt unraced
  | settled ok running awaited attempt =>
    exact settled_exclusive exclusive running awaited attempt

theorem Move.eventIds {call : WebhookCall} (move : Move signPayload service now call after answer) :
    ∀ id ∈ after.eventIds, id ∈ call.uuids ∨ id ∈ service.eventIds := by
  intro id member
  cases move with
  | simulated input eventId recordId found attempt =>
    obtain rfl := (Prod.mk.inj attempt).1
    exact (List.mem_cons.mp member).imp_left fun same => by rw [same]; exact List.mem_cons_self
  | unsimulated input eventId recordId thrown =>
    exact (List.mem_cons.mp member).imp_left fun same => by rw [same]; exact List.mem_cons_self
  | published input eventId free =>
    exact (List.mem_cons.mp member).imp_left fun same => by rw [same]; exact List.mem_cons_self
  | unsent running idle turn attempt =>
    obtain rfl := (Prod.mk.inj attempt).1
    exact Or.inr member
  | settled ok running awaited attempt =>
    obtain rfl := (Prod.mk.inj attempt).1
    exact Or.inr member
  | _ => exact Or.inr member

end Steps

theorem fresh_names {past : List (TimedCall × WebhookAnswer)} {service : WebhookService}
    {timed : TimedCall} (ordinary : Ordinary past service timed)
    (used : ∀ id ∈ service.eventIds, id ∈ usedUuids past) :
    ∀ id ∈ timed.call.uuids, ColonFree id ∧ id ∉ service.eventIds := fun id offered =>
  ⟨(ordinary.2.2 id offered).1, fun published => (ordinary.2.2 id offered).2 (used id published)⟩

/- A race-free step keeps claims exclusive and the event ids among those given out. -/
theorem exclusive_step {signPayload : WebhookEvent → String}
    {past : List (TimedCall × WebhookAnswer)} {service after : WebhookService} {timed : TimedCall}
    {answer : WebhookAnswer} (moved : step signPayload service timed = some (after, answer))
    (ordinary : Ordinary past service timed) (unraced : Unraced past service timed)
    (known : service.Exclusive ∧ ∀ id ∈ service.eventIds, id ∈ usedUuids past) :
    after.Exclusive ∧ ∀ id ∈ after.eventIds, id ∈ usedUuids ((timed, answer) :: past) := by
  have move := step_moves moved
  refine ⟨move.exclusive known.1 (fresh_names ordinary known.2) unraced, ?_⟩
  intro id member
  rw [usedUuids, List.flatMap_cons]
  exact List.mem_append.mpr ((move.eventIds id member).imp_right (known.2 id))

/- What every race-free run keeps: exclusive claims, and event ids that were given out. -/
theorem exclusive_run {signPayload : WebhookEvent → String}
    {permit : Machine.Permit WebhookService TimedCall WebhookAnswer}
    (ordinary : ∀ {past service timed}, permit past service timed → Ordinary past service timed)
    (unraced : ∀ {past service timed}, (machine signPayload).Run permit past service →
      permit past service timed → Unraced past service timed)
    {past : List (TimedCall × WebhookAnswer)} {service : WebhookService}
    (run : (machine signPayload).Run permit past service) :
    service.Exclusive ∧ ∀ id ∈ service.eventIds, id ∈ usedUuids past := by
  refine run.invariant (fun past service =>
    service.Exclusive ∧ ∀ id ∈ service.eventIds, id ∈ usedUuids past) ?_ ?_
  · exact ⟨exclusive_initial, by simp [machine, initial, eventIds]⟩
  · intro past service timed after answer before known permitted moved
    exact exclusive_step moved (ordinary permitted) (unraced before permitted) known

end WebhookService
end AstraPort.Webhook
