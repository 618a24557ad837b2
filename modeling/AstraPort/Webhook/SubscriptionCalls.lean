import AstraPort.Webhook.Exclusive
import AstraPort.Foundation.IsoDate
import AstraPort.Pagination.Offset

/- SubscriptionService on its own: the calls of its users, and the delivery attempts
   recorded between them, as one machine. No call of it waits for anything. -/
namespace AstraPort.Webhook.SubscriptionService
open Pagination

/-- String of a value every object inherits from Object.prototype. -/
def inheritedText (name : String) : Option String :=
  if name = "__proto__" then some "[object Object]"
  else if name = "constructor" then some "function Object() \x7b [native code] \x7d"
  else if (inheritedMembers.lookup name).isSome then
    some ("function " ++ name ++ "() \x7b [native code] \x7d")
  else none

/-- String(dto[sortBy] ?? ''). -/
def sortText (sortBy : String) (entity : SubscriptionEntity) : String :=
  match sortBy with
  | "id" => entity.id
  | "userId" => entity.userId
  | "name" => entity.name
  | "filter" => "[object Object]"
  | "deliveryMode" => match entity.deliveryMode with
    | .immediate => "immediate"
    | .batch => "batch"
  | "batchIntervalSeconds" => toString entity.batchIntervalSeconds
  | "callbackUrl" => entity.callbackUrl.getD ""
  | "active" => toString entity.active
  | "createdAt" => isoText entity.createdAt
  | "updatedAt" => isoText entity.updatedAt
  | other => (inheritedText other).getD ""

def compareBy (collation : Collation) (sortBy : String) (sortOrder : SortOrder)
    (a b : SubscriptionEntity) : Ordering :=
  let cmp := collation.compare (sortText sortBy a) (sortText sortBy b)
  match sortOrder with
  | .asc => cmp
  | .desc => cmp.swap

def ownedBy (service : SubscriptionService) (userId : String) : List SubscriptionEntity :=
  service.listAllSubscriptions.filter fun sub => sub.userId = userId

def listSubscriptions (collation : Collation) (service : SubscriptionService) (userId : String)
    (pagination : Option PaginationQuery) : OffsetPage SubscriptionEntity :=
  let allResults := service.ownedBy userId
  let total := allResults.length
  match pagination with
  | none => ⟨allResults, ⟨total, 1, total, 1, false, false⟩⟩
  | some query =>
    let page := query.page.getD 1
    let limit := query.limit.getD defaultPageSize
    let sortBy := query.sortBy.getD "createdAt"
    let sortOrder := query.sortOrder.getD .desc
    let sorted := stableSort (compareBy collation sortBy sortOrder) allResults
    let start := (page - 1) * limit
    createOffsetPaginatedResponse (slice start (start + limit) sorted) total page limit

def getSubscription (service : SubscriptionService) (userId subscriptionId : String) :
    Except Thrown SubscriptionEntity := service.findOrThrow userId subscriptionId

structure DeliveryRecordDto where
  id : String
  eventId : String
  subscriptionId : String
  outcome : DeliveryOutcome
  firstAttemptAt : Nat
  lastAttemptAt : Nat
  attemptCount : Nat
  nextRetryAt : Option Nat
  deriving DecidableEq

def toDeliveryRecordDto (record : DeliveryRecordEntity) : DeliveryRecordDto :=
  { id := record.id, eventId := record.eventId, subscriptionId := record.subscriptionId,
    outcome := record.outcome, firstAttemptAt := record.firstAttemptAt,
    lastAttemptAt := record.lastAttemptAt, attemptCount := record.attemptCount,
    nextRetryAt := record.nextRetryAt }

structure DeliverySummary where
  pending : Nat
  delivered : Nat
  acknowledged : Nat
  failed : Nat
  retrying : Nat
  deriving DecidableEq

structure DeliveryStatus where
  subscriptionId : String
  summary : DeliverySummary
  records : List DeliveryRecordDto
  deriving DecidableEq

def summarize (records : List DeliveryRecordEntity) : DeliverySummary :=
  let count (outcome : DeliveryOutcome) : Nat := records.countP fun r => r.outcome = outcome
  { pending := count .pending, delivered := count .delivered,
    acknowledged := count .acknowledged, failed := count .failed, retrying := count .retrying }

/-- Most recent attempt first. -/
def newestFirst (collation : Collation) (a b : DeliveryRecordEntity) : Ordering :=
  collation.compare (isoText b.lastAttemptAt) (isoText a.lastAttemptAt)

def recordsOf (service : SubscriptionService) (subscriptionId : String) :
    List DeliveryRecordEntity :=
  service.listDeliveryRecords.filter fun record => record.subscriptionId = subscriptionId

def getDeliveryStatus (collation : Collation) (service : SubscriptionService)
    (userId subscriptionId : String) : Except Thrown DeliveryStatus :=
  match service.findOrThrow userId subscriptionId with
  | .error thrown => .error thrown
  | .ok _ =>
    let records := stableSort (newestFirst collation) (service.recordsOf subscriptionId)
    .ok ⟨subscriptionId, summarize records, records.map toDeliveryRecordDto⟩

inductive Call where
  | createSubscription (userId : String) (dto : CreateSubscriptionDto) (id : String)
  | listSubscriptions (userId : String) (pagination : Option PaginationQuery)
  | getSubscription (userId subscriptionId : String)
  | updateSubscription (userId subscriptionId : String) (dto : UpdateSubscriptionDto)
  | deleteSubscription (userId subscriptionId : String)
  | getDeliveryStatus (userId subscriptionId : String)
  | acknowledgeEvents (userId subscriptionId : String) (eventIds : List String)
  | recordDeliveryAttempt (subscriptionId eventId : String) (outcome : DeliveryOutcome)
      (recordId : String)

/-- The user a call comes from; attempts are recorded by the delivery system. -/
def Call.user : Call → Option String
  | .createSubscription userId _ _ => some userId
  | .listSubscriptions userId _ => some userId
  | .getSubscription userId _ => some userId
  | .updateSubscription userId _ _ => some userId
  | .deleteSubscription userId _ => some userId
  | .getDeliveryStatus userId _ => some userId
  | .acknowledgeEvents userId _ _ => some userId
  | .recordDeliveryAttempt .. => none

/-- Who creates which subscription. -/
def Call.creation : Call → Option (String × String)
  | .createSubscription userId _ id => some (userId, id)
  | _ => none

structure TimedCall where
  now : Nat
  call : Call

inductive Answer where
  | subscription (entity : SubscriptionEntity)
  | listed (page : OffsetPage SubscriptionEntity)
  | deleted
  | status (status : DeliveryStatus)
  | acknowledged (count : Nat) (skippedIds : List String)
  | recorded (record : DeliveryRecordEntity)
  | threw (thrown : Thrown)
  deriving DecidableEq

def told {Value : Type} (answer : Value → Answer) : Except Thrown Value → Answer
  | .ok value => answer value
  | .error thrown => .threw thrown

def step (collation : Collation) (service : SubscriptionService) (timed : TimedCall) :
    SubscriptionService × Answer :=
  match timed.call with
  | .createSubscription userId dto id =>
    let created := service.createSubscription userId dto id timed.now
    (created.1, .subscription created.2)
  | .listSubscriptions userId pagination =>
    (service, .listed (service.listSubscriptions collation userId pagination))
  | .getSubscription userId subscriptionId =>
    (service, told .subscription (service.getSubscription userId subscriptionId))
  | .updateSubscription userId subscriptionId dto =>
    let result := service.updateSubscription userId subscriptionId dto timed.now
    (result.1, told .subscription result.2)
  | .deleteSubscription userId subscriptionId =>
    let result := service.deleteSubscription userId subscriptionId
    (result.1, told (fun _ => .deleted) result.2)
  | .getDeliveryStatus userId subscriptionId =>
    (service, told .status (service.getDeliveryStatus collation userId subscriptionId))
  | .acknowledgeEvents userId subscriptionId eventIds =>
    let result := service.acknowledgeEvents userId subscriptionId eventIds timed.now
    (result.1, told (fun settled => .acknowledged settled.1 settled.2) result.2)
  | .recordDeliveryAttempt subscriptionId eventId outcome recordId =>
    let result := service.recordDeliveryAttempt subscriptionId eventId outcome recordId timed.now
    (result.1, .recorded result.2)

def machine (collation : Collation) : Machine SubscriptionService TimedCall Answer where
  init := initial
  step := fun service timed => some (step collation service timed)

/-- Everything a call can do to the service. -/
inductive Move (service : SubscriptionService) (now : Nat) : Call → SubscriptionService → Prop where
  | nothing {call : Call} (asked : call.user.isSome = true) : Move service now call service
  | created (userId : String) (dto : CreateSubscriptionDto) (id : String) :
      Move service now (.createSubscription userId dto id)
        (service.createSubscription userId dto id now).1
  | updated {userId subscriptionId : String} (dto : UpdateSubscriptionDto)
      {entity : SubscriptionEntity}
      (found : service.findOrThrow userId subscriptionId = .ok entity) :
      Move service now (.updateSubscription userId subscriptionId dto)
        { service with
          subscriptions := service.subscriptions.set entity.id
            (SubscriptionService.updated entity dto now) }
  | removed {userId subscriptionId : String} {entity : SubscriptionEntity}
      (found : service.findOrThrow userId subscriptionId = .ok entity) :
      Move service now (.deleteSubscription userId subscriptionId)
        (service.removeSubscription subscriptionId)
  | acknowledged {userId subscriptionId : String} (eventIds : List String)
      {entity : SubscriptionEntity}
      (found : service.findOrThrow userId subscriptionId = .ok entity) :
      Move service now (.acknowledgeEvents userId subscriptionId eventIds)
        { service with deliveryRecords :=
          (acknowledgeEach subscriptionId now service.deliveryRecords eventIds).1 }
  | attempted (subscriptionId eventId : String) (outcome : DeliveryOutcome) (recordId : String) :
      Move service now (.recordDeliveryAttempt subscriptionId eventId outcome recordId)
        { service with
          deliveryRecords := service.deliveryRecords.set (recordKey subscriptionId eventId)
            (scheduled (SubscriptionService.attempted
              (service.deliveryRecords.get (recordKey subscriptionId eventId)) subscriptionId
              eventId outcome recordId now) now) }

/- Inversion of a step; later proofs split on its moves and unfold nothing. -/
theorem step_moves {collation : Collation} {service after : SubscriptionService}
    {timed : TimedCall} {answer : Answer}
    (moved : (machine collation).step service timed = some (after, answer)) :
    Move service timed.now timed.call after := by
  obtain ⟨now, call⟩ := timed
  obtain rfl : (step collation service ⟨now, call⟩).1 = after :=
    congrArg Prod.fst (Option.some.inj moved)
  cases call with
  | createSubscription userId dto id => exact .created userId dto id
  | listSubscriptions userId pagination => exact .nothing rfl
  | getSubscription userId subscriptionId => exact .nothing rfl
  | updateSubscription userId subscriptionId dto =>
    simp only [step, SubscriptionService.updateSubscription]
    split
    · exact .nothing rfl
    · rename_i entity found
      exact .updated dto found
  | deleteSubscription userId subscriptionId =>
    simp only [step, SubscriptionService.deleteSubscription]
    split
    · exact .nothing rfl
    · rename_i entity found
      exact .removed found
  | getDeliveryStatus userId subscriptionId => exact .nothing rfl
  | acknowledgeEvents userId subscriptionId eventIds =>
    simp only [step, SubscriptionService.acknowledgeEvents]
    split
    · exact .nothing rfl
    · rename_i entity found
      exact .acknowledged eventIds found
  | recordDeliveryAttempt subscriptionId eventId outcome recordId =>
    exact .attempted subscriptionId eventId outcome recordId

end AstraPort.Webhook.SubscriptionService
