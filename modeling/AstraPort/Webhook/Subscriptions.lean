import AstraPort.Foundation.Host
import AstraPort.Foundation.InsertionMap

/- SubscriptionService: subscriptions, their event filters and the delivery record of
   each (subscription, event) pair. Instants are epoch milliseconds; a DTO carries
   the fields of its entity, so one structure stands for both. -/
namespace AstraPort.Webhook

structure EventFilter where
  eventTypes : List String
  minSeverity : Option String
  customPredicates : List (String × String)
  deriving DecidableEq

inductive DeliveryMode where
  | immediate
  | batch
  deriving DecidableEq

structure SubscriptionEntity where
  id : String
  userId : String
  name : String
  filter : EventFilter
  deliveryMode : DeliveryMode
  batchIntervalSeconds : Nat
  callbackUrl : Option String
  active : Bool
  createdAt : Nat
  updatedAt : Nat
  deriving DecidableEq

structure CreateSubscriptionDto where
  name : String
  filter : EventFilter
  deliveryMode : Option DeliveryMode
  batchIntervalSeconds : Option Nat
  callbackUrl : Option String
  deriving DecidableEq

/-- Absent fields are none; a callback may also be set to null. -/
structure UpdateSubscriptionDto where
  name : Option String
  filter : Option EventFilter
  deliveryMode : Option DeliveryMode
  batchIntervalSeconds : Option Nat
  callbackUrl : Option (Option String)
  active : Option Bool
  deriving DecidableEq

inductive DeliveryOutcome where
  | pending
  | delivered
  | acknowledged
  | failed
  | retrying
  deriving DecidableEq

structure DeliveryRecordEntity where
  id : String
  subscriptionId : String
  eventId : String
  outcome : DeliveryOutcome
  firstAttemptAt : Nat
  lastAttemptAt : Nat
  attemptCount : Nat
  nextRetryAt : Option Nat
  createdAt : Nat
  updatedAt : Nat
  deriving DecidableEq

structure WebhookEvent where
  id : String
  type : String
  severity : String
  data : String
  metadata : List (String × String)
  occurredAt : Nat
  deriving DecidableEq

structure SubscriptionService where
  subscriptions : InsertionMap String SubscriptionEntity
  deliveryRecords : InsertionMap String DeliveryRecordEntity

def baseRetryDelayMs : Nat := 1000

def maxRetryAttempts : Nat := 5

def severityRank (severity : String) : Option Nat :=
  [("low", 0), ("medium", 1), ("high", 2), ("critical", 3)].lookup severity

/-- A comparison with an unknown rank is false, as with NaN. -/
def rankBelow (severity minSeverity : String) : Bool :=
  match severityRank severity, severityRank minSeverity with
  | some eventRank, some minRank => decide (eventRank < minRank)
  | _, _ => false

def recordKey (subscriptionId eventId : String) : String := subscriptionId ++ ":" ++ eventId

namespace SubscriptionService

def initial : SubscriptionService := ⟨InsertionMap.empty, InsertionMap.empty⟩

def notFound (subscriptionId : String) : Thrown :=
  .notFound ("Subscription " ++ subscriptionId ++ " not found")

def createSubscription (service : SubscriptionService) (userId : String)
    (dto : CreateSubscriptionDto) (id : String) (now : Nat) :
    SubscriptionService × SubscriptionEntity :=
  let entity : SubscriptionEntity :=
    { id := id, userId := userId, name := dto.name, filter := dto.filter,
      deliveryMode := dto.deliveryMode.getD .immediate,
      batchIntervalSeconds := dto.batchIntervalSeconds.getD 0, callbackUrl := dto.callbackUrl,
      active := true, createdAt := now, updatedAt := now }
  ({ service with subscriptions := service.subscriptions.set id entity }, entity)

def listAllSubscriptions (service : SubscriptionService) : List SubscriptionEntity :=
  service.subscriptions.values

def listActiveSubscriptions (service : SubscriptionService) : List SubscriptionEntity :=
  service.listAllSubscriptions.filter SubscriptionEntity.active

def getSubscriptionById (service : SubscriptionService) (subscriptionId : String) :
    Except Thrown SubscriptionEntity :=
  match service.subscriptions.get subscriptionId with
  | some entity => .ok entity
  | none => .error (notFound subscriptionId)

def findOrThrow (service : SubscriptionService) (userId subscriptionId : String) :
    Except Thrown SubscriptionEntity :=
  match service.subscriptions.get subscriptionId with
  | some entity => if entity.userId = userId then .ok entity else .error (notFound subscriptionId)
  | none => .error (notFound subscriptionId)

def updated (entity : SubscriptionEntity) (dto : UpdateSubscriptionDto) (now : Nat) :
    SubscriptionEntity :=
  { entity with
    name := dto.name.getD entity.name
    filter := dto.filter.getD entity.filter
    deliveryMode := dto.deliveryMode.getD entity.deliveryMode
    batchIntervalSeconds := dto.batchIntervalSeconds.getD entity.batchIntervalSeconds
    callbackUrl := dto.callbackUrl.getD entity.callbackUrl
    active := dto.active.getD entity.active
    updatedAt := now }

def updateSubscription (service : SubscriptionService) (userId subscriptionId : String)
    (dto : UpdateSubscriptionDto) (now : Nat) :
    SubscriptionService × Except Thrown SubscriptionEntity :=
  match service.findOrThrow userId subscriptionId with
  | .error thrown => (service, .error thrown)
  | .ok entity =>
    let entity := updated entity dto now
    ({ service with subscriptions := service.subscriptions.set entity.id entity }, .ok entity)

def removeSubscription (service : SubscriptionService) (subscriptionId : String) :
    SubscriptionService :=
  { subscriptions := service.subscriptions.delete subscriptionId,
    deliveryRecords :=
      service.deliveryRecords.keep fun _ record => !decide (record.subscriptionId = subscriptionId) }

def deleteSubscription (service : SubscriptionService) (userId subscriptionId : String) :
    SubscriptionService × Except Thrown Unit :=
  match service.findOrThrow userId subscriptionId with
  | .error thrown => (service, .error thrown)
  | .ok _ => (service.removeSubscription subscriptionId, .ok ())

def matchesFilter (filter : EventFilter) (event : WebhookEvent) : Bool :=
  let severe := match filter.minSeverity with
    | none => true
    | some minSeverity =>
      minSeverity = "" || event.severity = "" || !rankBelow event.severity minSeverity
  filter.eventTypes.contains event.type && severe &&
    filter.customPredicates.all fun predicate =>
      event.metadata.lookup predicate.1 = some predicate.2

def listDeliveryRecords (service : SubscriptionService) : List DeliveryRecordEntity :=
  service.deliveryRecords.values

/-- The first attempt opens the record of a pair, later ones count up in it. -/
def attempted (found : Option DeliveryRecordEntity) (subscriptionId eventId : String)
    (outcome : DeliveryOutcome) (recordId : String) (now : Nat) : DeliveryRecordEntity :=
  match found with
  | none =>
    { id := recordId, subscriptionId := subscriptionId, eventId := eventId, outcome := outcome,
      firstAttemptAt := now, lastAttemptAt := now, attemptCount := 1, nextRetryAt := none,
      createdAt := now, updatedAt := now }
  | some record =>
    { record with
      attemptCount := record.attemptCount + 1, lastAttemptAt := now, outcome := outcome,
      updatedAt := now }

def retryDelayMs (attemptCount : Nat) : Nat := baseRetryDelayMs * 2 ^ (attemptCount - 1)

/-- A failed attempt is due again after a delay that doubles, or was the last one. -/
def scheduled (record : DeliveryRecordEntity) (now : Nat) : DeliveryRecordEntity :=
  if record.outcome = .retrying then
    if record.attemptCount ≤ maxRetryAttempts then
      { record with nextRetryAt := some (now + retryDelayMs record.attemptCount) }
    else { record with nextRetryAt := none, outcome := .failed }
  else { record with nextRetryAt := none }

def recordDeliveryAttempt (service : SubscriptionService) (subscriptionId eventId : String)
    (outcome : DeliveryOutcome) (recordId : String) (now : Nat) :
    SubscriptionService × DeliveryRecordEntity :=
  let key := recordKey subscriptionId eventId
  let record := scheduled
    (attempted (service.deliveryRecords.get key) subscriptionId eventId outcome recordId now) now
  ({ service with deliveryRecords := service.deliveryRecords.set key record }, record)

def acknowledged (record : DeliveryRecordEntity) (now : Nat) : DeliveryRecordEntity :=
  { record with outcome := .acknowledged, nextRetryAt := none, updatedAt := now }

/-- The events of one acknowledgement in turn: how many it settled, which it skipped. -/
def acknowledgeEach (subscriptionId : String) (now : Nat) :
    InsertionMap String DeliveryRecordEntity → List String →
      InsertionMap String DeliveryRecordEntity × Nat × List String
  | records, [] => (records, 0, [])
  | records, eventId :: rest =>
    let key := recordKey subscriptionId eventId
    let skip := acknowledgeEach subscriptionId now records rest
    match records.get key with
    | none => (skip.1, skip.2.1, eventId :: skip.2.2)
    | some record =>
      if record.outcome = .acknowledged then (skip.1, skip.2.1, eventId :: skip.2.2)
      else
        let settled := acknowledgeEach subscriptionId now
          (records.set key (acknowledged record now)) rest
        (settled.1, settled.2.1 + 1, settled.2.2)

def acknowledgeEvents (service : SubscriptionService) (userId subscriptionId : String)
    (eventIds : List String) (now : Nat) :
    SubscriptionService × Except Thrown (Nat × List String) :=
  match service.findOrThrow userId subscriptionId with
  | .error thrown => (service, .error thrown)
  | .ok _ =>
    let batch := acknowledgeEach subscriptionId now service.deliveryRecords eventIds
    ({ service with deliveryRecords := batch.1 }, .ok batch.2)

@[simp] theorem scheduled_id (record : DeliveryRecordEntity) (now : Nat) :
    (scheduled record now).id = record.id := by
  unfold scheduled
  split
  · split <;> rfl
  · rfl

@[simp] theorem scheduled_subscriptionId (record : DeliveryRecordEntity) (now : Nat) :
    (scheduled record now).subscriptionId = record.subscriptionId := by
  unfold scheduled
  split
  · split <;> rfl
  · rfl

@[simp] theorem scheduled_eventId (record : DeliveryRecordEntity) (now : Nat) :
    (scheduled record now).eventId = record.eventId := by
  unfold scheduled
  split
  · split <;> rfl
  · rfl

@[simp] theorem scheduled_attemptCount (record : DeliveryRecordEntity) (now : Nat) :
    (scheduled record now).attemptCount = record.attemptCount := by
  unfold scheduled
  split
  · split <;> rfl
  · rfl

@[simp] theorem scheduled_firstAttemptAt (record : DeliveryRecordEntity) (now : Nat) :
    (scheduled record now).firstAttemptAt = record.firstAttemptAt := by
  unfold scheduled
  split
  · split <;> rfl
  · rfl

@[simp] theorem scheduled_lastAttemptAt (record : DeliveryRecordEntity) (now : Nat) :
    (scheduled record now).lastAttemptAt = record.lastAttemptAt := by
  unfold scheduled
  split
  · split <;> rfl
  · rfl

theorem scheduled_outcome {record : DeliveryRecordEntity} (settled : record.outcome ≠ .retrying)
    (now : Nat) : (scheduled record now).outcome = record.outcome := by
  rw [scheduled, if_neg settled]

/-- A record waits for a retry exactly when it is retrying, after its back-off. -/
def OnSchedule (record : DeliveryRecordEntity) : Prop :=
  if record.outcome = .retrying then
    1 ≤ record.attemptCount ∧ record.attemptCount ≤ maxRetryAttempts ∧
      record.nextRetryAt = some (record.lastAttemptAt + retryDelayMs record.attemptCount)
  else record.nextRetryAt = none

theorem scheduled_onSchedule {record : DeliveryRecordEntity} {now : Nat}
    (counted : 1 ≤ record.attemptCount) (current : record.lastAttemptAt = now) :
    OnSchedule (scheduled record now) := by
  unfold OnSchedule scheduled
  by_cases retrying : record.outcome = .retrying
  · by_cases more : record.attemptCount ≤ maxRetryAttempts
    · simp [retrying, more, counted, current]
    · simp [retrying, more]
  · simp [retrying]

theorem acknowledged_onSchedule (record : DeliveryRecordEntity) (now : Nat) :
    OnSchedule (acknowledged record now) := by simp [OnSchedule, acknowledged]

theorem attempted_counts (found : Option DeliveryRecordEntity)
    (subscriptionId eventId : String) (outcome : DeliveryOutcome) (recordId : String) (now : Nat) :
    let record := attempted found subscriptionId eventId outcome recordId now
    1 ≤ record.attemptCount ∧ record.lastAttemptAt = now ∧ record.outcome = outcome := by
  cases found <;> simp [attempted]

theorem retryDelay_grows {count : Nat} (counted : 1 ≤ count) :
    retryDelayMs count < retryDelayMs (count + 1) := by
  obtain ⟨n, rfl⟩ := Nat.exists_eq_add_of_le' counted
  have doubled : 2 ^ n < 2 ^ (n + 1) := Nat.pow_lt_pow_right (by decide) (Nat.lt_succ_self n)
  simpa [retryDelayMs, baseRetryDelayMs] using doubled

theorem findOrThrow_ok {service : SubscriptionService} {userId subscriptionId : String}
    {entity : SubscriptionEntity} (found : service.findOrThrow userId subscriptionId = .ok entity) :
    service.subscriptions.get subscriptionId = some entity := by
  unfold findOrThrow at found
  cases held : service.subscriptions.get subscriptionId with
  | none => simp [held] at found
  | some other =>
    simp only [held] at found
    split at found
    · rw [Except.ok.inj found]
    · simp at found

theorem getSubscriptionById_ok {service : SubscriptionService} {subscriptionId : String}
    {entity : SubscriptionEntity} :
    service.getSubscriptionById subscriptionId = .ok entity ↔
      service.subscriptions.get subscriptionId = some entity := by
  unfold getSubscriptionById
  cases service.subscriptions.get subscriptionId <;> simp

theorem removeSubscription_get (service : SubscriptionService) (subscriptionId key : String) :
    (service.removeSubscription subscriptionId).deliveryRecords.get key =
      (service.deliveryRecords.get key).filter fun record =>
        !decide (record.subscriptionId = subscriptionId) :=
  InsertionMap.get_keep _ _ key

/- What acknowledging leaves: every record keeps its key, and one that changed was
   unsettled, is named by the batch and is acknowledged now. -/
theorem acknowledgeEach_get (subscriptionId : String) (now : Nat) (eventIds : List String)
    (records : InsertionMap String DeliveryRecordEntity) (key : String) :
    (acknowledgeEach subscriptionId now records eventIds).1.get key =
      (records.get key).map fun record =>
        if (∃ eventId ∈ eventIds, key = recordKey subscriptionId eventId) ∧
            record.outcome ≠ .acknowledged then acknowledged record now
        else record := by
  induction eventIds generalizing records with
  | nil => simp [acknowledgeEach]
  | cons eventId rest ih =>
    rw [acknowledgeEach]
    cases held : records.get (recordKey subscriptionId eventId) with
    | none =>
      simp only
      rw [ih]
      by_cases same : key = recordKey subscriptionId eventId
      · simp [same, held]
      · simp [same]
    | some record =>
      simp only
      by_cases settled : record.outcome = .acknowledged
      · rw [if_pos settled, ih]
        by_cases same : key = recordKey subscriptionId eventId
        · simp [same, held, settled]
        · simp [same]
      · rw [if_neg settled, ih, InsertionMap.get_set]
        by_cases same : key = recordKey subscriptionId eventId
        · simp [same, held, settled, acknowledged]
        · simp [same]

/- An event whose pair has no record is skipped every time it is named. -/
theorem acknowledgeEach_skips (subscriptionId : String) (now : Nat) (eventIds : List String)
    {records : InsertionMap String DeliveryRecordEntity} {eventId : String}
    (unrecorded : records.get (recordKey subscriptionId eventId) = none) :
    (acknowledgeEach subscriptionId now records eventIds).2.2.count eventId =
      eventIds.count eventId := by
  induction eventIds generalizing records with
  | nil => rfl
  | cons other rest ih =>
    rw [acknowledgeEach]
    cases held : records.get (recordKey subscriptionId other) with
    | none => simp [List.count_cons, ih unrecorded]
    | some record =>
      by_cases settled : record.outcome = .acknowledged
      · simp [settled, List.count_cons, ih unrecorded]
      · have ne : recordKey subscriptionId eventId ≠ recordKey subscriptionId other := by
          intro same
          rw [same, held] at unrecorded
          cases unrecorded
        have differs : other ≠ eventId := fun same => ne (by rw [same])
        have still : (records.set (recordKey subscriptionId other) (acknowledged record now)).get
            (recordKey subscriptionId eventId) = none :=
          (InsertionMap.get_set_ne _ _ ne).trans unrecorded
        simp [settled, differs, ih still]

/- An event that was not skipped every time it was named has an acknowledged record. -/
theorem acknowledgeEach_settles {subscriptionId : String} {now : Nat} {eventIds : List String}
    {records : InsertionMap String DeliveryRecordEntity} {eventId : String}
    (taken : (acknowledgeEach subscriptionId now records eventIds).2.2.count eventId <
      eventIds.count eventId) :
    ∃ record, (acknowledgeEach subscriptionId now records eventIds).1.get
      (recordKey subscriptionId eventId) = some record ∧ record.outcome = .acknowledged := by
  have named : eventId ∈ eventIds := List.count_pos_iff.mp (Nat.zero_lt_of_lt taken)
  rw [acknowledgeEach_get]
  cases held : records.get (recordKey subscriptionId eventId) with
  | none => exact absurd (acknowledgeEach_skips subscriptionId now eventIds held) taken.ne
  | some record =>
    refine ⟨_, rfl, ?_⟩
    beta_reduce
    split
    · rfl
    · rename_i untouched
      by_contra unsettled
      exact untouched ⟨⟨eventId, named, rfl⟩, unsettled⟩

end SubscriptionService
end AstraPort.Webhook
