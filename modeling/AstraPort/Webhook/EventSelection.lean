import AstraPort.Foundation.Json
import AstraPort.Webhook.Delivery

/- POST api/webhooks/events: nothing validates the body, so its type and metadata are any
   JSON values. publishAndDeliver runs over a snapshot of the active subscriptions, and
   whatever other calls do to the service happens at its awaits. -/
namespace AstraPort.Webhook

/-- A body as the controller passes it on; a severity of null is an absent one. -/
structure EventBody where
  type : Option Json
  severity : Option String
  data : Option Json
  metadata : Option Json

structure PublishedEvent where
  id : String
  type : Option Json
  severity : String
  data : Json
  metadata : Json
  occurredAt : Nat

structure PublishingService where
  subscriptionService : SubscriptionService
  eventHistory : List PublishedEvent

/-- The turns of the loop end in awaits: what other calls make of the service while
    sendWebhook is awaited and before the next turn, the answer, and the new record's id. -/
structure DeliveryTurn where
  during : PublishingService → PublishingService
  ok : Bool
  recordId : String
  now : Nat
  behind : PublishingService → PublishingService

def isText (text : String) : Option Json → Bool
  | some (.string units) => units = JsString.ofString text
  | _ => false

/-- The place an array index names among that many elements. -/
def placeOf (key : String) (length : Nat) : Option Nat :=
  (List.range length).find? fun place => toString place = key

/-- The own property of a value; what it inherits is never a string. -/
def ownProperty (key : String) : Json → Option Json
  | .object members => members.lookup (JsString.ofString key)
  | .array items => (placeOf key items.length).bind fun place => items[place]?
  | .string units => (placeOf key units.length).bind fun place =>
      units[place]?.map fun unit => .string [unit]
  | _ => none

def predicatesHold (filter : EventFilter) (metadata : Json) : Bool :=
  filter.customPredicates.all fun predicate =>
    isText predicate.2 (ownProperty predicate.1 metadata)

namespace PublishedEvent

/-- matchesFilter on an event of which only the severity is known to be a string. -/
def matchesFilter (filter : EventFilter) (event : PublishedEvent) : Bool :=
  let severe := match filter.minSeverity with
    | none => true
    | some minSeverity =>
      minSeverity = "" || event.severity = "" || !rankBelow event.severity minSeverity
  (filter.eventTypes.any fun type => isText type event.type) && severe &&
    predicatesHold filter event.metadata

end PublishedEvent

/-- value ?? {} -/
def orEmpty : Option Json → Json
  | none | some .null => .object []
  | some value => value

namespace PublishingService

def newEvent (body : EventBody) (eventId : String) (now : Nat) : PublishedEvent :=
  { id := eventId, type := body.type, severity := body.severity.getD "low",
    data := orEmpty body.data, metadata := orEmpty body.metadata, occurredAt := now }

section Signed
variable (signPayload : PublishedEvent → String)

def deliverToSubscription (service : PublishingService) (subscription : SubscriptionEntity)
    (event : PublishedEvent) (turn : DeliveryTurn) : PublishingService × WebhookDeliveryResult :=
  let sent := (callbackTarget subscription).isSome
  let service := if sent then turn.during service else service
  let outcome := if sent ∧ turn.ok = false then DeliveryOutcome.retrying else .delivered
  let attempt := service.subscriptionService.recordDeliveryAttempt subscription.id event.id outcome
    turn.recordId turn.now
  (turn.behind { service with subscriptionService := attempt.1 },
    { eventId := event.id, subscriptionId := subscription.id,
      callbackUrl := subscription.callbackUrl, outcome := attempt.2.outcome,
      attemptCount := attempt.2.attemptCount, nextRetryAt := attempt.2.nextRetryAt,
      signature := signPayload event })

/-- The loop over the snapshot, with the deliveries made so far. -/
def deliverEach (event : PublishedEvent) (turns : Nat → DeliveryTurn) :
    List SubscriptionEntity → PublishingService → List WebhookDeliveryResult →
      PublishingService × List WebhookDeliveryResult
  | [], service, deliveries => (service, deliveries)
  | subscription :: rest, service, deliveries =>
    if event.matchesFilter subscription.filter then
      let delivered := service.deliverToSubscription signPayload subscription event
        (turns deliveries.length)
      deliverEach event turns rest delivered.1 (deliveries ++ [delivered.2])
    else deliverEach event turns rest service deliveries

def publishAndDeliver (service : PublishingService) (body : EventBody) (eventId : String)
    (now : Nat) (turns : Nat → DeliveryTurn) :
    PublishingService × PublishedEvent × List WebhookDeliveryResult :=
  let event := newEvent body eventId now
  let service := { service with eventHistory := event :: service.eventHistory }
  let delivered := deliverEach signPayload event turns
    service.subscriptionService.listActiveSubscriptions service []
  (delivered.1, event, delivered.2)

end Signed
end PublishingService

/-- The place of a body's severity in the order: absent and unknown ones count as low. -/
def standing (severity : Option String) : Nat := (severity.bind severityRank).getD 0

/-- The minimum of a filter, where it sets one, is at most the severity. -/
def reachesMinimum (filter : EventFilter) (severity : Option String) : Bool :=
  match filter.minSeverity with
  | none => true
  | some minSeverity =>
    minSeverity = "" || (severityRank minSeverity).any fun minRank => minRank ≤ standing severity

/-- What a filter asks of a body besides the severity. -/
def concerns (filter : EventFilter) (body : EventBody) : Bool :=
  (filter.eventTypes.any fun type => isText type body.type) &&
    predicatesHold filter (orEmpty body.metadata)

def selects (filter : EventFilter) (body : EventBody) : Bool :=
  concerns filter body && reachesMinimum filter body.severity

/-- A minimum that is set and has no rank, or one above low where the severity has none. -/
def Unranked (filter : EventFilter) (severity : Option String) : Prop :=
  ∃ minSeverity, filter.minSeverity = some minSeverity ∧ minSeverity ≠ "" ∧
    ∀ minRank, severityRank minSeverity = some minRank →
      0 < minRank ∧ ∃ text, severity = some text ∧ severityRank text = none

theorem severityRank_empty : severityRank "" = none := by decide

theorem severityRank_low : severityRank "low" = some 0 := by decide

/- What the comparison of ranks lets through, by the place of both severities. -/
theorem severe_iff (minSeverity : String) (severity : Option String) :
    (severity.getD "low" = "" ∨ rankBelow (severity.getD "low") minSeverity = false) ↔
      (∃ minRank, severityRank minSeverity = some minRank ∧ minRank ≤ standing severity) ∨
      ∀ minRank, severityRank minSeverity = some minRank →
        0 < minRank ∧ ∃ text, severity = some text ∧ severityRank text = none := by
  cases minimum : severityRank minSeverity with
  | none => simp [rankBelow, minimum]
  | some minRank =>
    cases severity with
    | none => simp [rankBelow, minimum, severityRank_low, standing]
    | some text =>
      cases rank : severityRank text with
      | none => simpa [rankBelow, minimum, rank, standing] using Nat.eq_zero_or_pos minRank
      | some eventRank =>
        have present : text ≠ "" := by
          rintro rfl
          simp [severityRank_empty] at rank
        simp [rankBelow, minimum, rank, standing, present]

/- The code lets through what reaches the minimum, and what it cannot rank. -/
theorem matchesFilter_iff (filter : EventFilter) (body : EventBody) (eventId : String) (now : Nat) :
    (PublishingService.newEvent body eventId now).matchesFilter filter = true ↔
      concerns filter body = true ∧
        (reachesMinimum filter body.severity = true ∨ Unranked filter body.severity) := by
  unfold PublishedEvent.matchesFilter concerns reachesMinimum Unranked
  have type : (PublishingService.newEvent body eventId now).type = body.type := rfl
  have metadata : (PublishingService.newEvent body eventId now).metadata = orEmpty body.metadata := rfl
  have severity : (PublishingService.newEvent body eventId now).severity =
    body.severity.getD "low" := rfl
  cases filter.minSeverity with
  | none => simp [type, metadata]
  | some minSeverity =>
    by_cases unset : minSeverity = ""
    · simp [unset, type, metadata]
    · simp only [type, metadata, severity, unset, decide_false, Bool.false_or, Bool.and_eq_true,
        Bool.or_eq_true, decide_eq_true_eq, Bool.not_eq_true', Option.any_eq_true,
        Option.some.injEq, ne_eq, exists_eq_left', not_false_eq_true, true_and]
      rw [← severe_iff minSeverity body.severity, and_right_comm]

/- Nothing that the code cannot rank reaches its minimum. -/
theorem not_reaches_unranked {filter : EventFilter} {severity : Option String}
    (unranked : Unranked filter severity) : reachesMinimum filter severity = false := by
  obtain ⟨minSeverity, minimum, set, above⟩ := unranked
  simp only [reachesMinimum, minimum, set, decide_false, Bool.false_or]
  rw [Option.any_eq_false]
  intro minRank rank
  obtain ⟨positive, text, rfl, unknown⟩ := above minRank rank
  simpa [standing, unknown] using positive.ne'

theorem deliverEach_subscriptions (signPayload : PublishedEvent → String) (event : PublishedEvent)
    (turns : Nat → DeliveryTurn) (subscriptions : List SubscriptionEntity)
    (service : PublishingService) (deliveries : List WebhookDeliveryResult) :
    (service.deliverEach signPayload event turns subscriptions deliveries).2.map
        (fun delivery => (delivery.eventId, delivery.subscriptionId)) =
      deliveries.map (fun delivery => (delivery.eventId, delivery.subscriptionId)) ++
        (subscriptions.filter fun subscription => event.matchesFilter subscription.filter).map
          fun subscription => (event.id, subscription.id) := by
  induction subscriptions generalizing service deliveries with
  | nil => simp [PublishingService.deliverEach]
  | cons subscription rest ih =>
    rw [PublishingService.deliverEach]
    by_cases selected : event.matchesFilter subscription.filter = true
    · rw [if_pos selected, ih]
      simp [PublishingService.deliverToSubscription, selected]
    · rw [if_neg selected, ih]
      simp [selected]

/- Of two tests of which one lets through more, the same names pass only if it never does. -/
theorem filter_map_eq_iff {Element Name : Type} (name : Element → Name) {lax strict : Element → Bool}
    {elements : List Element} (laxer : ∀ e, strict e = true → lax e = true) :
    (elements.filter lax).map name = (elements.filter strict).map name ↔
      ∀ e ∈ elements, lax e = true → strict e = true := by
  constructor
  · intro same e member passes
    have fewer := List.monotone_filter_right elements laxer
    have length := congrArg List.length same
    rw [List.length_map, List.length_map] at length
    have passed : e ∈ elements.filter lax := List.mem_filter.mpr ⟨member, passes⟩
    rw [← fewer.eq_of_length length.symm] at passed
    exact (List.mem_filter.mp passed).2
  · intro stricter
    have same : elements.filter lax = elements.filter strict :=
      List.filter_congr fun e member => Bool.eq_iff_iff.mpr ⟨stricter e member, laxer e⟩
    rw [same]

theorem values_active (service : SubscriptionService) :
    service.listActiveSubscriptions =
      service.subscriptions.values.filter SubscriptionEntity.active := rfl

/-- One publication delivers once to each stored subscription that is active and selects the
    body, in the order they are stored, and to no other, if and only if none of the active ones
    that the event concerns sets a minimum which the code cannot rank against the severity. -/
theorem event_selection_exact_iff (signPayload : PublishedEvent → String)
    (service : PublishingService) (body : EventBody) (eventId : String) (now : Nat)
    (turns : Nat → DeliveryTurn) :
    (service.publishAndDeliver signPayload body eventId now turns).2.2.map
        (fun delivery => (delivery.eventId, delivery.subscriptionId)) =
      (service.subscriptionService.subscriptions.values.filter fun subscription =>
        subscription.active && selects subscription.filter body).map
          (fun subscription => (eventId, subscription.id)) ↔
    ∀ subscription ∈ service.subscriptionService.subscriptions.values, subscription.active = true →
      concerns subscription.filter body = true → ¬ Unranked subscription.filter body.severity := by
  have delivered : (service.publishAndDeliver signPayload body eventId now turns).2.2.map
      (fun delivery => (delivery.eventId, delivery.subscriptionId)) =
      (service.subscriptionService.subscriptions.values.filter fun subscription =>
        subscription.active &&
          (PublishingService.newEvent body eventId now).matchesFilter subscription.filter).map
            fun subscription => (eventId, subscription.id) := by
    simp only [PublishingService.publishAndDeliver, deliverEach_subscriptions, values_active,
      List.filter_filter, List.map_nil, List.nil_append, Bool.and_comm]
    rfl
  have laxer : ∀ subscription : SubscriptionEntity,
      (subscription.active && selects subscription.filter body) = true →
      (subscription.active &&
        (PublishingService.newEvent body eventId now).matchesFilter subscription.filter) = true := by
    intro subscription selected
    simp only [selects, Bool.and_eq_true] at selected ⊢
    exact ⟨selected.1, (matchesFilter_iff _ body eventId now).mpr ⟨selected.2.1, Or.inl selected.2.2⟩⟩
  rw [delivered, filter_map_eq_iff _ laxer]
  refine forall₂_congr fun subscription _ => ?_
  simp only [selects, Bool.and_eq_true, matchesFilter_iff]
  constructor
  · intro strict active concerned unranked
    have reached := (strict ⟨active, concerned, Or.inr unranked⟩).2.2
    rw [not_reaches_unranked unranked] at reached
    cases reached
  · rintro ranked ⟨active, concerned, reached | unranked⟩
    · exact ⟨active, concerned, reached⟩
    · exact absurd unranked (ranked active concerned)

/-- The filter asks for critical events; the body is of a severity that is none of the four. -/
theorem unknown_severity_selected :
    let filter : EventFilter := ⟨["risk.threshold_breached"], some "critical", []⟩
    let created := SubscriptionService.initial.createSubscription "user-a"
      ⟨"Risk alerts", filter, none, none, none⟩ "sub-1" 0
    let body : EventBody :=
      ⟨some (.string (JsString.ofString "risk.threshold_breached")), some "info", none, none⟩
    let turn : DeliveryTurn := ⟨id, true, "record-1", 1, id⟩
    (PublishingService.publishAndDeliver (fun _ => "") ⟨created.1, []⟩ body "event-1" 1
        fun _ => turn).2.2.map (fun delivery => (delivery.eventId, delivery.subscriptionId)) ≠
      (created.1.subscriptions.values.filter fun subscription =>
        subscription.active && selects subscription.filter body).map
          fun subscription => ("event-1", subscription.id) := by
  decide +kernel

section Typed

theorem isText_ofString (text text' : String) :
    isText text (some (.string (JsString.ofString text'))) = decide (text' = text) := by
  simp [isText, JsString.ofString_inj]

theorem lookup_texts (metadata : List (String × String)) (key : String) :
    (metadata.map fun e => (JsString.ofString e.1, Json.string (JsString.ofString e.2))).lookup
        (JsString.ofString key) =
      (metadata.lookup key).map fun text => .string (JsString.ofString text) := by
  induction metadata with
  | nil => rfl
  | cons e rest ih =>
    obtain ⟨name, text⟩ := e
    by_cases same : key = name
    · simp [same]
    · have differs : JsString.ofString key ≠ JsString.ofString name :=
        fun units => same (JsString.ofString_inj.mp units)
      rw [List.map_cons, List.lookup_cons, List.lookup_cons, ih, beq_eq_false_iff_ne.mpr differs,
        beq_eq_false_iff_ne.mpr same]

/- On an event whose type and metadata are as their types promise, the check is the one that
   the delivery loops make. -/
theorem matchesFilter_typed (filter : EventFilter) {event : WebhookEvent}
    {published : PublishedEvent} (severity : published.severity = event.severity)
    (type : published.type = some (.string (JsString.ofString event.type)))
    (metadata : published.metadata = .object (event.metadata.map fun e =>
      (JsString.ofString e.1, .string (JsString.ofString e.2)))) :
    published.matchesFilter filter = SubscriptionService.matchesFilter filter event := by
  have listed : (filter.eventTypes.any fun text => isText text published.type) =
      filter.eventTypes.contains event.type := by
    simp only [type, isText_ofString, List.contains_eq_any_beq, beq_eq_decide]
  have hold : predicatesHold filter published.metadata =
      filter.customPredicates.all fun predicate =>
        event.metadata.lookup predicate.1 = some predicate.2 := by
    unfold predicatesHold
    refine List.all_congr rfl fun predicate => ?_
    rw [metadata, ownProperty, lookup_texts]
    cases event.metadata.lookup predicate.1 with
    | none => rfl
    | some text => simp [isText_ofString]
  cases minimum : filter.minSeverity with
  | none =>
    simp only [PublishedEvent.matchesFilter, SubscriptionService.matchesFilter, minimum, listed, hold]
  | some minSeverity =>
    simp only [PublishedEvent.matchesFilter, SubscriptionService.matchesFilter, minimum, listed,
      hold, severity]

end Typed
end AstraPort.Webhook
