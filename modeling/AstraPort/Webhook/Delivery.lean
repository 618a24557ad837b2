import AstraPort.Foundation.Machine
import AstraPort.Webhook.Subscriptions

/- WebhookService as a machine. A publishAndDeliver or retryDueDeliveries call is an
   activity with a loop over a snapshot; every turn of the loop and every answer to
   sendWebhook is a move of its own, so activities interleave at each of them. -/
namespace AstraPort.Webhook

structure PublishEventInput where
  type : String
  severity : Option String
  data : Option String
  metadata : Option (List (String × String))
  deriving DecidableEq

structure WebhookDeliveryResult where
  eventId : String
  subscriptionId : String
  callbackUrl : Option String
  outcome : DeliveryOutcome
  attemptCount : Nat
  nextRetryAt : Option Nat
  signature : String
  deriving DecidableEq

/-- What a sendWebhook call awaits an answer for. -/
structure Delivery where
  subscription : SubscriptionEntity
  event : WebhookEvent
  deriving DecidableEq

def Delivery.key (delivery : Delivery) : String :=
  recordKey delivery.subscription.id delivery.event.id

inductive Loop where
  | publish (event : WebhookEvent) (remaining : List SubscriptionEntity)
  | retry (due : Nat) (remaining : List DeliveryRecordEntity)
  deriving DecidableEq

structure Activity where
  loop : Loop
  awaiting : Option Delivery
  results : List WebhookDeliveryResult
  deriving DecidableEq

structure WebhookService where
  subscriptionService : SubscriptionService
  eventHistory : List WebhookEvent
  activities : InsertionMap Nat Activity

/-- Fresh uuids, the outcome of a send and the choice of the next activity come with
    the call. -/
inductive WebhookCall where
  | createSubscription (userId : String) (dto : CreateSubscriptionDto) (id : String)
  | updateSubscription (userId subscriptionId : String) (dto : UpdateSubscriptionDto)
  | deleteSubscription (userId subscriptionId : String)
  | acknowledgeEvents (userId subscriptionId : String) (eventIds : List String)
  | simulateDelivery (subscriptionId : String) (input : PublishEventInput) (eventId recordId : String)
  | publishAndDeliver (activity : Nat) (input : PublishEventInput) (eventId : String)
  | retryDueDeliveries (activity : Nat) (due : Nat)
  | proceed (activity : Nat) (recordId : String)
  | answered (activity : Nat) (ok : Bool) (recordId : String)
  deriving DecidableEq

structure TimedCall where
  now : Nat
  call : WebhookCall
  deriving DecidableEq

/-- A sendWebhook call; a retry carries the record and the schedule it serves. -/
structure Sending where
  subscriptionId : String
  eventId : String
  url : String
  schedule : Option (String × Nat)
  deriving DecidableEq

inductive WebhookAnswer where
  | subscription (entity : SubscriptionEntity)
  | deleted
  | acknowledged (acknowledgedCount : Nat) (skippedIds : List String)
  | started
  | passed
  | sending (send : Sending)
  | recorded (result : WebhookDeliveryResult)
  | finished (results : List WebhookDeliveryResult)
  | threw (thrown : Thrown)
  deriving DecidableEq

/-- The send schedule a record asks for when retries are due. -/
def dueSchedule (record : DeliveryRecordEntity) (due : Nat) : Option Nat :=
  if record.outcome = .retrying ∧ record.subscriptionId ≠ "" then
    record.nextRetryAt.filter fun at_time => decide (at_time ≤ due)
  else none

def callbackTarget (subscription : SubscriptionEntity) : Option String :=
  subscription.callbackUrl.filter fun url => decide (url ≠ "")

def Loop.finished : Loop → Prop
  | .publish _ remaining => remaining = []
  | .retry _ remaining => remaining = []

def WebhookCall.ofUser : WebhookCall → Prop
  | .updateSubscription .. => True
  | .deleteSubscription .. => True
  | .acknowledgeEvents .. => True
  | _ => False

namespace WebhookService

def initial : WebhookService := ⟨SubscriptionService.initial, [], InsertionMap.empty⟩

def newEvent (input : PublishEventInput) (eventId : String) (now : Nat) : WebhookEvent :=
  { id := eventId, type := input.type, severity := input.severity.getD "low",
    data := input.data.getD "{}", metadata := input.metadata.getD [], occurredAt := now }

def publishEvent (service : WebhookService) (event : WebhookEvent) : WebhookService :=
  { service with eventHistory := event :: service.eventHistory }

def findEvent (service : WebhookService) (eventId : String) : Option WebhookEvent :=
  service.eventHistory.find? fun event => event.id = eventId

def records (service : WebhookService) : InsertionMap String DeliveryRecordEntity :=
  service.subscriptionService.deliveryRecords

def subscriptions (service : WebhookService) : InsertionMap String SubscriptionEntity :=
  service.subscriptionService.subscriptions

def withActivity (service : WebhookService) (task : Nat) (activity : Activity) : WebhookService :=
  { service with activities := service.activities.set task activity }

def withoutActivity (service : WebhookService) (task : Nat) : WebhookService :=
  { service with activities := service.activities.delete task }

def record (service : WebhookService) (delivery : Delivery) (outcome : DeliveryOutcome)
    (recordId : String) (now : Nat) : WebhookService × DeliveryRecordEntity :=
  let attempt := service.subscriptionService.recordDeliveryAttempt delivery.subscription.id
    delivery.event.id outcome recordId now
  ({ service with subscriptionService := attempt.1 }, attempt.2)

section Signed
variable (signPayload : WebhookEvent → String)

def deliveryResult (delivery : Delivery) (record : DeliveryRecordEntity) : WebhookDeliveryResult :=
  { eventId := delivery.event.id, subscriptionId := delivery.subscription.id,
    callbackUrl := delivery.subscription.callbackUrl, outcome := record.outcome,
    attemptCount := record.attemptCount, nextRetryAt := record.nextRetryAt,
    signature := signPayload delivery.event }

/-- The end of deliverToSubscription inside a loop: the attempt is recorded and its
    result joins those of the activity. -/
def conclude (service : WebhookService) (task : Nat) (activity : Activity) (delivery : Delivery)
    (outcome : DeliveryOutcome) (recordId : String) (now : Nat) : WebhookService × WebhookAnswer :=
  let attempt := service.record delivery outcome recordId now
  let result := deliveryResult signPayload delivery attempt.2
  (attempt.1.withActivity task
    { activity with awaiting := none, results := activity.results ++ [result] }, .recorded result)

/-- deliverToSubscription up to its await; without a callback it runs to its end. -/
def deliver (service : WebhookService) (task : Nat) (activity : Activity) (delivery : Delivery)
    (schedule : Option (String × Nat)) (recordId : String) (now : Nat) :
    WebhookService × WebhookAnswer :=
  match callbackTarget delivery.subscription with
  | some url =>
    (service.withActivity task { activity with awaiting := some delivery },
      .sending ⟨delivery.subscription.id, delivery.event.id, url, schedule⟩)
  | none => service.conclude signPayload task activity delivery .delivered recordId now

def publishTurn (service : WebhookService) (task : Nat) (activity : Activity)
    (event : WebhookEvent) (recordId : String) (now : Nat) :
    List SubscriptionEntity → WebhookService × WebhookAnswer
  | [] => (service.withoutActivity task, .finished activity.results)
  | subscription :: rest =>
    let activity := { activity with loop := .publish event rest }
    if SubscriptionService.matchesFilter subscription.filter event then
      service.deliver signPayload task activity ⟨subscription, event⟩ none recordId now
    else (service.withActivity task activity, .passed)

/-- A turn of the retry loop judges the snapshot of a record; the subscription is
    looked up live, and its absence ends the whole run. -/
def retryTurn (service : WebhookService) (task : Nat) (activity : Activity) (due : Nat)
    (recordId : String) (now : Nat) : List DeliveryRecordEntity → WebhookService × WebhookAnswer
  | [] => (service.withoutActivity task, .finished activity.results)
  | snapshot :: rest =>
    let activity := { activity with loop := .retry due rest }
    match dueSchedule snapshot due, service.findEvent snapshot.eventId with
    | some schedule, some event =>
      match service.subscriptionService.getSubscriptionById snapshot.subscriptionId with
      | .ok subscription =>
        service.deliver signPayload task activity ⟨subscription, event⟩
          (some (snapshot.id, schedule)) recordId now
      | .error thrown => (service.withoutActivity task, .threw thrown)
    | _, _ => (service.withActivity task activity, .passed)

def simulateDelivery (service : WebhookService) (subscriptionId : String)
    (input : PublishEventInput) (eventId recordId : String) (now : Nat) :
    WebhookService × WebhookAnswer :=
  let event := newEvent input eventId now
  let service := service.publishEvent event
  match service.subscriptionService.getSubscriptionById subscriptionId with
  | .error thrown => (service, .threw thrown)
  | .ok subscription =>
    let attempt := service.record ⟨subscription, event⟩ .delivered recordId now
    (attempt.1, .recorded (deliveryResult signPayload ⟨subscription, event⟩ attempt.2))

def answering {Value : Type} (answer : Value → WebhookAnswer) : Except Thrown Value → WebhookAnswer
  | .ok value => answer value
  | .error thrown => .threw thrown

def onSubscriptions {Value : Type} (service : WebhookService) (answer : Value → WebhookAnswer)
    (called : SubscriptionService × Except Thrown Value) : WebhookService × WebhookAnswer :=
  ({ service with subscriptionService := called.1 }, answering answer called.2)

def step (service : WebhookService) (timed : TimedCall) : Option (WebhookService × WebhookAnswer) :=
  let now := timed.now
  match timed.call with
  | .createSubscription userId dto id =>
    let created := service.subscriptionService.createSubscription userId dto id now
    some ({ service with subscriptionService := created.1 }, .subscription created.2)
  | .updateSubscription userId subscriptionId dto =>
    some (service.onSubscriptions .subscription
      (service.subscriptionService.updateSubscription userId subscriptionId dto now))
  | .deleteSubscription userId subscriptionId =>
    some (service.onSubscriptions (fun _ => .deleted)
      (service.subscriptionService.deleteSubscription userId subscriptionId))
  | .acknowledgeEvents userId subscriptionId eventIds =>
    some (service.onSubscriptions (fun batch => .acknowledged batch.1 batch.2)
      (service.subscriptionService.acknowledgeEvents userId subscriptionId eventIds now))
  | .simulateDelivery subscriptionId input eventId recordId =>
    some (service.simulateDelivery signPayload subscriptionId input eventId recordId now)
  | .publishAndDeliver task input eventId =>
    if (service.activities.get task).isSome then none
    else
      let event := newEvent input eventId now
      some ((service.publishEvent event).withActivity task
        { loop := .publish event service.subscriptionService.listActiveSubscriptions,
          awaiting := none, results := [] }, .started)
  | .retryDueDeliveries task due =>
    if (service.activities.get task).isSome then none
    else
      some (service.withActivity task
        { loop := .retry due service.subscriptionService.listDeliveryRecords,
          awaiting := none, results := [] }, .started)
  | .proceed task recordId =>
    match service.activities.get task with
    | none => none
    | some activity =>
      if activity.awaiting.isSome then none
      else match activity.loop with
        | .publish event remaining =>
          some (service.publishTurn signPayload task activity event recordId now remaining)
        | .retry due remaining =>
          some (service.retryTurn signPayload task activity due recordId now remaining)
  | .answered task ok recordId =>
    match service.activities.get task with
    | none => none
    | some activity =>
      match activity.awaiting with
      | none => none
      | some delivery =>
        some (service.conclude signPayload task activity delivery
          (if ok then .delivered else .retrying) recordId now)

def machine : Machine WebhookService TimedCall WebhookAnswer := ⟨initial, step signPayload⟩

end Signed
@[simp] theorem records_withActivity (service : WebhookService) (task : Nat)
    (activity : Activity) : (service.withActivity task activity).records = service.records := rfl

@[simp] theorem subscriptions_withActivity (service : WebhookService) (task : Nat)
    (activity : Activity) :
    (service.withActivity task activity).subscriptions = service.subscriptions := rfl

@[simp] theorem history_withActivity (service : WebhookService) (task : Nat)
    (activity : Activity) :
    (service.withActivity task activity).eventHistory = service.eventHistory := rfl

@[simp] theorem activities_withActivity (service : WebhookService) (task : Nat)
    (activity : Activity) :
    (service.withActivity task activity).activities = service.activities.set task activity := rfl

@[simp] theorem records_withoutActivity (service : WebhookService) (task : Nat) :
    (service.withoutActivity task).records = service.records := rfl

@[simp] theorem subscriptions_withoutActivity (service : WebhookService) (task : Nat) :
    (service.withoutActivity task).subscriptions = service.subscriptions := rfl

@[simp] theorem history_withoutActivity (service : WebhookService) (task : Nat) :
    (service.withoutActivity task).eventHistory = service.eventHistory := rfl

@[simp] theorem activities_withoutActivity (service : WebhookService) (task : Nat) :
    (service.withoutActivity task).activities = service.activities.delete task := rfl

@[simp] theorem records_publishEvent (service : WebhookService) (event : WebhookEvent) :
    (service.publishEvent event).records = service.records := rfl

@[simp] theorem subscriptions_publishEvent (service : WebhookService) (event : WebhookEvent) :
    (service.publishEvent event).subscriptions = service.subscriptions := rfl

@[simp] theorem history_publishEvent (service : WebhookService) (event : WebhookEvent) :
    (service.publishEvent event).eventHistory = event :: service.eventHistory := rfl

@[simp] theorem activities_publishEvent (service : WebhookService) (event : WebhookEvent) :
    (service.publishEvent event).activities = service.activities := rfl

section Recording
variable (service : WebhookService) (delivery : Delivery) (outcome : DeliveryOutcome)
  (recordId : String) (now : Nat)

@[simp] theorem subscriptions_record :
    (service.record delivery outcome recordId now).1.subscriptions = service.subscriptions := rfl

@[simp] theorem history_record :
    (service.record delivery outcome recordId now).1.eventHistory = service.eventHistory := rfl

@[simp] theorem activities_record :
    (service.record delivery outcome recordId now).1.activities = service.activities := rfl

theorem records_record (key : String) :
    (service.record delivery outcome recordId now).1.records.get key =
      if key = delivery.key then some (service.record delivery outcome recordId now).2
      else service.records.get key :=
  InsertionMap.get_set service.records delivery.key key _

end Recording

section Activities
variable {service : WebhookService}

theorem no_activity (quiet : service.activities.entries = []) (task : Nat) :
    service.activities.get task = none := by
  simp [InsertionMap.get, quiet]

end Activities

/-- The item at the head of a loop that asks for a delivery, and the loop left. -/
inductive Turn (service : WebhookService) :
    Loop → Loop → Delivery → Option (String × Nat) → Prop where
  | publish {event : WebhookEvent} {subscription : SubscriptionEntity}
      {rest : List SubscriptionEntity}
      (selected : SubscriptionService.matchesFilter subscription.filter event = true) :
      Turn service (.publish event (subscription :: rest)) (.publish event rest)
        ⟨subscription, event⟩ none
  | retry {due schedule : Nat} {snapshot : DeliveryRecordEntity}
      {rest : List DeliveryRecordEntity} {event : WebhookEvent}
      {subscription : SubscriptionEntity}
      (reached : dueSchedule snapshot due = some schedule)
      (known : service.findEvent snapshot.eventId = some event)
      (found : service.subscriptions.get snapshot.subscriptionId = some subscription) :
      Turn service (.retry due (snapshot :: rest)) (.retry due rest) ⟨subscription, event⟩
        (some (snapshot.id, schedule))

/-- The item at the head of a loop that asks for nothing, and the loop left. -/
inductive Pass (service : WebhookService) : Loop → Loop → Prop where
  | publish {event : WebhookEvent} {subscription : SubscriptionEntity}
      {rest : List SubscriptionEntity} :
      Pass service (.publish event (subscription :: rest)) (.publish event rest)
  | retry {due : Nat} {snapshot : DeliveryRecordEntity} {rest : List DeliveryRecordEntity} :
      Pass service (.retry due (snapshot :: rest)) (.retry due rest)

/-- Everything a step can do. -/
inductive Move (signPayload : WebhookEvent → String) (service : WebhookService) (now : Nat) :
    WebhookCall → WebhookService → WebhookAnswer → Prop where
  | refused {call : WebhookCall} (told : call.ofUser) (thrown : Thrown) :
      Move signPayload service now call service (.threw thrown)
  | created (userId : String) (dto : CreateSubscriptionDto) {id : String}
      {entity : SubscriptionEntity} (named : entity.id = id) (enabled : entity.active = true) :
      Move signPayload service now (.createSubscription userId dto id)
        { service with subscriptionService :=
          { service.subscriptionService with subscriptions := service.subscriptions.set id entity } }
        (.subscription entity)
  | updated {userId subscriptionId : String} (dto : UpdateSubscriptionDto)
      {entity : SubscriptionEntity}
      (found : service.subscriptionService.findOrThrow userId subscriptionId = .ok entity) :
      Move signPayload service now (.updateSubscription userId subscriptionId dto)
        { service with subscriptionService :=
          { service.subscriptionService with
            subscriptions := service.subscriptions.set entity.id
              (SubscriptionService.updated entity dto now) } }
        (.subscription (SubscriptionService.updated entity dto now))
  | removed {userId subscriptionId : String} {entity : SubscriptionEntity}
      (found : service.subscriptionService.findOrThrow userId subscriptionId = .ok entity) :
      Move signPayload service now (.deleteSubscription userId subscriptionId)
        { service with subscriptionService :=
          service.subscriptionService.removeSubscription subscriptionId } .deleted
  | acknowledged {userId subscriptionId : String} {eventIds skippedIds : List String}
      {entity : SubscriptionEntity} {left : InsertionMap String DeliveryRecordEntity} {count : Nat}
      (found : service.subscriptionService.findOrThrow userId subscriptionId = .ok entity)
      (settled : SubscriptionService.acknowledgeEach subscriptionId now service.records eventIds =
        (left, count, skippedIds)) :
      Move signPayload service now (.acknowledgeEvents userId subscriptionId eventIds)
        { service with subscriptionService :=
          { service.subscriptionService with deliveryRecords := left } }
        (.acknowledged count skippedIds)
  | simulated {subscriptionId : String} (input : PublishEventInput) (eventId recordId : String)
      {subscription : SubscriptionEntity}
      {left : WebhookService} {record : DeliveryRecordEntity}
      (found : service.subscriptions.get subscriptionId = some subscription)
      (attempt : (service.publishEvent (newEvent input eventId now)).record
        ⟨subscription, newEvent input eventId now⟩ .delivered recordId now = (left, record)) :
      Move signPayload service now (.simulateDelivery subscriptionId input eventId recordId) left
        (.recorded (deliveryResult signPayload ⟨subscription, newEvent input eventId now⟩ record))
  | unsimulated {subscriptionId : String} (input : PublishEventInput) (eventId recordId : String)
      (thrown : Thrown) :
      Move signPayload service now (.simulateDelivery subscriptionId input eventId recordId)
        (service.publishEvent (newEvent input eventId now)) (.threw thrown)
  | published {task : Nat} (input : PublishEventInput) (eventId : String)
      (free : service.activities.get task = none) :
      Move signPayload service now (.publishAndDeliver task input eventId)
        ((service.publishEvent (newEvent input eventId now)).withActivity task
          ⟨.publish (newEvent input eventId now) service.subscriptionService.listActiveSubscriptions,
            none, []⟩) .started
  | retried {task : Nat} (due : Nat) (free : service.activities.get task = none) :
      Move signPayload service now (.retryDueDeliveries task due)
        (service.withActivity task
          ⟨.retry due service.subscriptionService.listDeliveryRecords, none, []⟩) .started
  | finished {task : Nat} {recordId : String} {activity : Activity}
      (running : service.activities.get task = some activity) (idle : activity.awaiting = none)
      (exhausted : activity.loop.finished) :
      Move signPayload service now (.proceed task recordId) (service.withoutActivity task)
        (.finished activity.results)
  | aborted {task : Nat} {recordId : String} {activity : Activity} {due schedule : Nat}
      {snapshot : DeliveryRecordEntity} {rest : List DeliveryRecordEntity} {event : WebhookEvent}
      (running : service.activities.get task = some activity) (idle : activity.awaiting = none)
      (at_snapshot : activity.loop = .retry due (snapshot :: rest))
      (reached : dueSchedule snapshot due = some schedule)
      (known : service.findEvent snapshot.eventId = some event)
      (missing : service.subscriptions.get snapshot.subscriptionId = none) (thrown : Thrown) :
      Move signPayload service now (.proceed task recordId) (service.withoutActivity task)
        (.threw thrown)
  | passed {task : Nat} {recordId : String} {activity : Activity} {rest : Loop}
      (running : service.activities.get task = some activity) (idle : activity.awaiting = none)
      (pass : Pass service activity.loop rest) :
      Move signPayload service now (.proceed task recordId)
        (service.withActivity task { activity with loop := rest }) .passed
  | sent {task : Nat} {recordId : String} {activity : Activity} {rest : Loop}
      {delivery : Delivery} {schedule : Option (String × Nat)} {url : String}
      (running : service.activities.get task = some activity) (idle : activity.awaiting = none)
      (turn : Turn service activity.loop rest delivery schedule) :
      Move signPayload service now (.proceed task recordId)
        (service.withActivity task { activity with loop := rest, awaiting := some delivery })
        (.sending ⟨delivery.subscription.id, delivery.event.id, url, schedule⟩)
  | unsent {task : Nat} {recordId : String} {activity : Activity} {rest : Loop}
      {delivery : Delivery} {schedule : Option (String × Nat)} {left : WebhookService}
      {record : DeliveryRecordEntity}
      (running : service.activities.get task = some activity) (idle : activity.awaiting = none)
      (turn : Turn service activity.loop rest delivery schedule)
      (attempt : service.record delivery .delivered recordId now = (left, record)) :
      Move signPayload service now (.proceed task recordId)
        (left.withActivity task ⟨rest, none,
          activity.results ++ [deliveryResult signPayload delivery record]⟩)
        (.recorded (deliveryResult signPayload delivery record))
  | settled {task : Nat} (ok : Bool) {recordId : String} {activity : Activity}
      {delivery : Delivery} {left : WebhookService} {record : DeliveryRecordEntity}
      (running : service.activities.get task = some activity)
      (awaited : activity.awaiting = some delivery)
      (attempt : service.record delivery (if ok then .delivered else .retrying) recordId now =
        (left, record)) :
      Move signPayload service now (.answered task ok recordId)
        (left.withActivity task ⟨activity.loop, none,
          activity.results ++ [deliveryResult signPayload delivery record]⟩)
        (.recorded (deliveryResult signPayload delivery record))

section Inversion
variable {signPayload : WebhookEvent → String} {service after : WebhookService} {now : Nat}
  {answer : WebhookAnswer}

theorem deliver_moves {task : Nat} {recordId : String} {activity : Activity} {rest : Loop}
    {delivery : Delivery} {schedule : Option (String × Nat)}
    (running : service.activities.get task = some activity) (idle : activity.awaiting = none)
    (turn : Turn service activity.loop rest delivery schedule)
    (delivered : service.deliver signPayload task { activity with loop := rest } delivery schedule
      recordId now = (after, answer)) :
    Move signPayload service now (.proceed task recordId) after answer := by
  simp only [deliver, conclude] at delivered
  split at delivered
  · obtain ⟨rfl, rfl⟩ := Prod.mk.inj delivered
    exact .sent running idle turn
  · obtain ⟨rfl, rfl⟩ := Prod.mk.inj delivered
    exact .unsent running idle turn rfl

theorem publishTurn_moves {task : Nat} {recordId : String} {activity : Activity}
    {event : WebhookEvent} {remaining : List SubscriptionEntity}
    (running : service.activities.get task = some activity) (idle : activity.awaiting = none)
    (at_loop : activity.loop = .publish event remaining)
    (turned : service.publishTurn signPayload task activity event recordId now remaining =
      (after, answer)) : Move signPayload service now (.proceed task recordId) after answer := by
  cases remaining with
  | nil =>
    obtain ⟨rfl, rfl⟩ := Prod.mk.inj turned
    exact .finished running idle (by simp [at_loop, Loop.finished])
  | cons subscription rest =>
    simp only [publishTurn] at turned
    split at turned
    · rename_i selected
      exact deliver_moves running idle (at_loop ▸ Turn.publish selected) turned
    · obtain ⟨rfl, rfl⟩ := Prod.mk.inj turned
      exact .passed running idle (at_loop ▸ Pass.publish)

theorem retryTurn_moves {task : Nat} {recordId : String} {activity : Activity} {due : Nat}
    {remaining : List DeliveryRecordEntity}
    (running : service.activities.get task = some activity) (idle : activity.awaiting = none)
    (at_loop : activity.loop = .retry due remaining)
    (turned : service.retryTurn signPayload task activity due recordId now remaining =
      (after, answer)) : Move signPayload service now (.proceed task recordId) after answer := by
  cases remaining with
  | nil =>
    obtain ⟨rfl, rfl⟩ := Prod.mk.inj turned
    exact .finished running idle (by simp [at_loop, Loop.finished])
  | cons snapshot rest =>
    simp only [retryTurn] at turned
    split at turned
    · rename_i schedule event reached known
      split at turned
      · rename_i subscription found
        have found := SubscriptionService.getSubscriptionById_ok.mp found
        exact deliver_moves running idle (at_loop ▸ Turn.retry reached known found) turned
      · rename_i thrown missing
        obtain ⟨rfl, rfl⟩ := Prod.mk.inj turned
        have missing : service.subscriptions.get snapshot.subscriptionId = none := by
          unfold SubscriptionService.getSubscriptionById at missing
          split at missing
          · simp at missing
          · assumption
        exact .aborted running idle at_loop reached known missing thrown
    · obtain ⟨rfl, rfl⟩ := Prod.mk.inj turned
      exact .passed running idle (at_loop ▸ Pass.retry)

/- Inversion of a step; later proofs split on its moves and unfold nothing. -/
theorem step_moves {timed : TimedCall} (moved : step signPayload service timed = some (after, answer)) :
    Move signPayload service timed.now timed.call after answer := by
  obtain ⟨now, call⟩ := timed
  cases call with
  | createSubscription userId dto id =>
    obtain ⟨rfl, rfl⟩ := Prod.mk.inj (Option.some.inj moved)
    exact .created userId dto rfl rfl
  | updateSubscription userId subscriptionId dto =>
    simp only [step, onSubscriptions, SubscriptionService.updateSubscription] at moved
    split at moved
    · obtain ⟨rfl, rfl⟩ := Prod.mk.inj (Option.some.inj moved)
      exact .refused (by simp [WebhookCall.ofUser]) _
    · rename_i entity found
      obtain ⟨rfl, rfl⟩ := Prod.mk.inj (Option.some.inj moved)
      exact .updated dto found
  | deleteSubscription userId subscriptionId =>
    simp only [step, onSubscriptions, SubscriptionService.deleteSubscription] at moved
    split at moved
    · obtain ⟨rfl, rfl⟩ := Prod.mk.inj (Option.some.inj moved)
      exact .refused (by simp [WebhookCall.ofUser]) _
    · rename_i entity found
      obtain ⟨rfl, rfl⟩ := Prod.mk.inj (Option.some.inj moved)
      exact .removed found
  | acknowledgeEvents userId subscriptionId eventIds =>
    simp only [step, onSubscriptions, SubscriptionService.acknowledgeEvents] at moved
    split at moved
    · obtain ⟨rfl, rfl⟩ := Prod.mk.inj (Option.some.inj moved)
      exact .refused (by simp [WebhookCall.ofUser]) _
    · rename_i entity found
      obtain ⟨rfl, rfl⟩ := Prod.mk.inj (Option.some.inj moved)
      exact .acknowledged found rfl
  | simulateDelivery subscriptionId input eventId recordId =>
    simp only [step, simulateDelivery] at moved
    split at moved
    · obtain ⟨rfl, rfl⟩ := Prod.mk.inj (Option.some.inj moved)
      exact .unsimulated input eventId recordId _
    · rename_i subscription found
      obtain ⟨rfl, rfl⟩ := Prod.mk.inj (Option.some.inj moved)
      exact .simulated input eventId recordId
        (SubscriptionService.getSubscriptionById_ok.mp found) rfl
  | publishAndDeliver task input eventId =>
    simp only [step] at moved
    split at moved
    · simp at moved
    · rename_i free
      obtain ⟨rfl, rfl⟩ := Prod.mk.inj (Option.some.inj moved)
      exact .published input eventId (by simpa using free)
  | retryDueDeliveries task due =>
    simp only [step] at moved
    split at moved
    · simp at moved
    · rename_i free
      obtain ⟨rfl, rfl⟩ := Prod.mk.inj (Option.some.inj moved)
      exact .retried due (by simpa using free)
  | proceed task recordId =>
    simp only [step] at moved
    split at moved
    · simp at moved
    · rename_i activity running
      split at moved
      · simp at moved
      · rename_i busy
        have idle : activity.awaiting = none := by simpa using busy
        split at moved
        · rename_i event remaining at_loop
          exact publishTurn_moves running idle at_loop (Option.some.inj moved)
        · rename_i due remaining at_loop
          exact retryTurn_moves running idle at_loop (Option.some.inj moved)
  | answered task ok recordId =>
    simp only [step] at moved
    split at moved
    · simp at moved
    · rename_i activity running
      split at moved
      · simp at moved
      · rename_i delivery awaited
        obtain ⟨rfl, rfl⟩ := Prod.mk.inj (Option.some.inj moved)
        exact .settled ok running awaited rfl

end Inversion
end WebhookService
end AstraPort.Webhook
