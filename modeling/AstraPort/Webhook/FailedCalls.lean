import AstraPort.Webhook.SubscriptionCalls

/- What a call that throws leaves behind, over the calls of both services. Every call looks its
   subscription up before it changes anything, but for simulateDelivery, which publishes first. -/
namespace AstraPort.Webhook

/-- The calls of WebhookService, and those that only read its subscriptions and records. -/
inductive Request where
  | call (call : WebhookCall)
  | getSubscription (userId subscriptionId : String)
  | getSubscriptionById (subscriptionId : String)
  | getDeliveryStatus (userId subscriptionId : String)

structure TimedRequest where
  now : Nat
  request : Request

inductive Reply where
  | called (answer : WebhookAnswer)
  | subscription (entity : SubscriptionEntity)
  | status (status : SubscriptionService.DeliveryStatus)
  | threw (thrown : Thrown)

def Reply.thrown : Reply → Option Thrown
  | .called (.threw thrown) => some thrown
  | .threw thrown => some thrown
  | _ => none

def Reply.told {Value : Type} (reply : Value → Reply) : Except Thrown Value → Reply
  | .ok value => reply value
  | .error thrown => .threw thrown

namespace WebhookService
variable (signPayload : WebhookEvent → String) (collation : Collation)

def serve (service : WebhookService) (timed : TimedRequest) : Option (WebhookService × Reply) :=
  match timed.request with
  | .call call =>
    (service.step signPayload ⟨timed.now, call⟩).map fun moved => (moved.1, .called moved.2)
  | .getSubscription userId subscriptionId =>
    some (service, .told .subscription
      (service.subscriptionService.getSubscription userId subscriptionId))
  | .getSubscriptionById subscriptionId =>
    some (service, .told .subscription
      (service.subscriptionService.getSubscriptionById subscriptionId))
  | .getDeliveryStatus userId subscriptionId =>
    some (service, .told .status
      (service.subscriptionService.getDeliveryStatus collation userId subscriptionId))

def requests : Machine WebhookService TimedRequest Reply := ⟨initial, serve signPayload collation⟩

/-- A request that ends in a NotFoundException leaves the subscriptions, the delivery records and
    the event history as they were. -/
def Traceless (service : WebhookService) (_ : TimedRequest) (reply : Reply)
    (after : WebhookService) : Prop :=
  ∀ message, reply.thrown = some (.notFound message) →
    after.subscriptions = service.subscriptions ∧ after.records = service.records ∧
      after.eventHistory = service.eventHistory

/-- A simulated delivery to a subscription that does not exist. -/
def SimulatesUnknown (service : WebhookService) (timed : TimedRequest) : Prop :=
  ∃ subscriptionId input eventId recordId,
    timed.request = .call (.simulateDelivery subscriptionId input eventId recordId) ∧
      service.subscriptions.get subscriptionId = none

section Steps
variable {signPayload collation} {service after : WebhookService} {now : Nat} {call : WebhookCall}
  {answer : WebhookAnswer}

/- Apart from simulated deliveries a call that throws has changed nothing but its activity. -/
theorem Move.traceless (move : Move signPayload service now call after answer)
    (not_simulated : ∀ subscriptionId input eventId recordId,
      call ≠ .simulateDelivery subscriptionId input eventId recordId) :
    Traceless service ⟨now, .call call⟩ (.called answer) after := by
  intro message thrown
  cases move with
  | refused told other => exact ⟨rfl, rfl, rfl⟩
  | aborted running idle at_snapshot reached known missing other => exact ⟨rfl, rfl, rfl⟩
  | unsimulated input eventId recordId other => exact absurd rfl (not_simulated _ _ _ _)
  | created | updated | removed | acknowledged | simulated | published | retried | finished
  | passed | sent | unsent | settled => cases thrown

/- An event is published before the subscription is looked up. -/
theorem simulateDelivery_unknown {subscriptionId : String} (input : PublishEventInput)
    (eventId recordId : String) (unknown : service.subscriptions.get subscriptionId = none) :
    service.simulateDelivery signPayload subscriptionId input eventId recordId now =
      (service.publishEvent (newEvent input eventId now),
        .threw (SubscriptionService.notFound subscriptionId)) := by
  have missing : service.subscriptionService.subscriptions.get subscriptionId = none := unknown
  simp only [simulateDelivery, SubscriptionService.getSubscriptionById, publishEvent, missing]

theorem simulateDelivery_known {subscriptionId : String} {subscription : SubscriptionEntity}
    (input : PublishEventInput) (eventId recordId : String)
    (found : service.subscriptions.get subscriptionId = some subscription) :
    ∃ result, (service.simulateDelivery signPayload subscriptionId input eventId recordId now).2 =
      .recorded result := by
  have held : service.subscriptionService.subscriptions.get subscriptionId = some subscription :=
    found
  simp only [simulateDelivery, SubscriptionService.getSubscriptionById, publishEvent, held]
  exact ⟨_, rfl⟩

theorem simulated_traceless_iff {subscriptionId : String} {input : PublishEventInput}
    {eventId recordId : String}
    (moved : service.simulateDelivery signPayload subscriptionId input eventId recordId now =
      (after, answer)) :
    Traceless service ⟨now, .call (.simulateDelivery subscriptionId input eventId recordId)⟩
      (.called answer) after ↔ service.subscriptions.get subscriptionId ≠ none := by
  cases held : service.subscriptions.get subscriptionId with
  | none =>
    rw [simulateDelivery_unknown input eventId recordId held] at moved
    obtain ⟨rfl, rfl⟩ := Prod.mk.inj moved
    constructor
    · intro traceless
      have kept := (traceless _ rfl).2.2
      exact absurd kept (List.cons_ne_self _ _)
    · intro present
      exact absurd rfl present
  | some subscription =>
    have known : ∃ result, (service.simulateDelivery signPayload subscriptionId input eventId
        recordId now).2 = .recorded result := simulateDelivery_known input eventId recordId held
    obtain ⟨result, recorded⟩ := known
    rw [moved] at recorded
    obtain rfl : answer = .recorded result := recorded
    constructor
    · intro _
      exact Option.some_ne_none _
    · intro _ message thrown
      cases thrown

end Steps

/-- In a run of requests every one that ends in a NotFoundException leaves no trace exactly when
none of them simulates a delivery to a subscription that does not exist. -/
theorem failed_calls_traceless_iff (past : List (TimedRequest × Reply)) :
    (requests signPayload collation).Each Machine.anything Traceless past ↔
      (requests signPayload collation).Each Machine.anything
        (fun service timed _ _ => ¬ service.SimulatesUnknown timed) past := by
  apply Machine.each_congr
  intro earlier service timed after reply _ _ served
  obtain ⟨now, request⟩ := timed
  cases request with
  | call call =>
    obtain ⟨⟨moved_to, answer⟩, moved, same⟩ := Option.map_eq_some_iff.mp served
    obtain ⟨rfl, rfl⟩ := Prod.mk.inj same
    cases call with
    | simulateDelivery subscriptionId input eventId recordId =>
      rw [simulated_traceless_iff (Option.some.inj moved)]
      simp [SimulatesUnknown]
    | createSubscription | updateSubscription | deleteSubscription | acknowledgeEvents
    | publishAndDeliver | retryDueDeliveries | proceed | answered =>
      have traceless := (step_moves moved).traceless (by simp)
      exact iff_of_true traceless (by simp [SimulatesUnknown])
  | getSubscription userId subscriptionId | getSubscriptionById subscriptionId
  | getDeliveryStatus userId subscriptionId =>
    obtain ⟨rfl, rfl⟩ := Prod.mk.inj (Option.some.inj served)
    exact iff_of_true (fun message _ => ⟨rfl, rfl, rfl⟩) (by simp [SimulatesUnknown])

/-- A delivery simulated for a subscription that nobody created. -/
def simulateUnknown : TimedRequest :=
  ⟨0, .call (.simulateDelivery "nope" ⟨"portfolio.updated", none, none, none⟩ "e1" "r1")⟩

/- The failed simulation has published its event. -/
theorem failed_simulation_publishes : ¬ ∀ (signPayload : WebhookEvent → String)
    (collation : Collation) past service,
    (requests signPayload collation).Run Machine.anything past service →
    (requests signPayload collation).Each Machine.anything Traceless past := by
  intro traceless
  let collation : Collation := ⟨compare, inferInstance⟩
  have start : (requests (fun _ => "") collation).Run Machine.anything [] initial :=
    Machine.Run.start
  have each := traceless (fun _ => "") collation _ _ (start.next (i := simulateUnknown) trivial rfl)
  have newest := ((start.each_cons (i := simulateUnknown) trivial rfl).mp each).1
  have kept := (newest _ rfl).2.2
  exact absurd kept (List.cons_ne_self _ _)

end WebhookService
end AstraPort.Webhook
