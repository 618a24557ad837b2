import AstraPort.Webhook.Sequential

/- Bounded retries with back-off, in runs in which calls execute one after another. The
   history of a pair is read off the exchanges: when sendWebhook was called for it, when an
   attempt was recorded, and what ended its retries. -/
namespace AstraPort.Webhook.WebhookService

def sentAt (subscriptionId eventId : String) : TimedCall × WebhookAnswer → Option Nat
  | (timed, .sending send) =>
    if send.subscriptionId = subscriptionId ∧ send.eventId = eventId then some timed.now else none
  | _ => none

def attemptedAt (subscriptionId eventId : String) : TimedCall × WebhookAnswer → Option Nat
  | (timed, .recorded result) =>
    if result.subscriptionId = subscriptionId ∧ result.eventId = eventId then some timed.now else none
  | _ => none

/-- Times of the sends and of the recorded attempts of a pair, newest first. -/
def sendTimes (subscriptionId eventId : String) (past : List (TimedCall × WebhookAnswer)) :
    List Nat := past.filterMap (sentAt subscriptionId eventId)

def attemptTimes (subscriptionId eventId : String) (past : List (TimedCall × WebhookAnswer)) :
    List Nat := past.filterMap (attemptedAt subscriptionId eventId)

/-- A successful send, an attempt that leaves the record delivered or failed, or an
    acknowledgement that does not skip the event each time it names it. -/
def Settles (subscriptionId eventId : String) (e : TimedCall × WebhookAnswer) : Prop :=
  (∃ result, e.2 = .recorded result ∧ result.subscriptionId = subscriptionId ∧
    result.eventId = eventId ∧
    (result.outcome ≠ .retrying ∨ ∃ task recordId, e.1.call = .answered task true recordId)) ∨
  ∃ userId eventIds count skippedIds,
    e.1.call = .acknowledgeEvents userId subscriptionId eventIds ∧
    e.2 = .acknowledged count skippedIds ∧ skippedIds.count eventId < eventIds.count eventId

def Deletes (subscriptionId : String) (e : TimedCall × WebhookAnswer) : Prop :=
  ∃ userId, e.1.call = .deleteSubscription userId subscriptionId ∧ e.2 = .deleted

/-- The answer asks for a send on the pair of the key. -/
def Sends (answer : WebhookAnswer) (key : String) : Prop :=
  ∃ send, answer = .sending send ∧ recordKey send.subscriptionId send.eventId = key

/-- What a step does to the send that is out for a key. -/
inductive Flight (service after : WebhookService) (answer : WebhookAnswer) (key : String) :
    Prop where
  | kept (same : after.InFlight key ↔ service.InFlight key) (unsent : ¬ Sends answer key)
      (final : ∀ result, answer = .recorded result →
        recordKey result.subscriptionId result.eventId = key → result.outcome ≠ .retrying)
  | taken (alone : ¬ service.InFlight key) (out : after.InFlight key) (sent : Sends answer key)
  | landed (out : service.InFlight key) (settled : ¬ after.InFlight key)
      (reported : Reports answer key)

section Flights
variable {signPayload : WebhookEvent → String} {service after : WebhookService} {now : Nat}
  {call : WebhookCall} {answer : WebhookAnswer}

theorem inFlight_withActivity {task : Nat} {activity : Activity} {key : String}
    (same : key ∈ activity.awaited ↔
      ∃ rival, service.activities.get task = some rival ∧ key ∈ rival.awaited) :
    (service.withActivity task activity).InFlight key ↔ service.InFlight key := by
  constructor
  · rintro ⟨other, rival, runs, awaited⟩
    rcases InsertionMap.get_set_cases runs with ⟨rfl, rfl⟩ | ⟨_, before⟩
    · obtain ⟨earlier, running, waited⟩ := same.mp awaited
      exact ⟨other, earlier, running, waited⟩
    · exact ⟨other, rival, before, awaited⟩
  · rintro ⟨other, rival, runs, awaited⟩
    by_cases this : other = task
    · subst other
      exact ⟨task, activity, InsertionMap.get_set_self _ _ _, same.mpr ⟨rival, runs, awaited⟩⟩
    · exact ⟨other, rival, (InsertionMap.get_set_ne _ _ this).trans runs, awaited⟩

theorem inFlight_withoutActivity {task : Nat} {activity : Activity}
    (running : service.activities.get task = some activity) (idle : activity.awaiting = none)
    (key : String) : (service.withoutActivity task).InFlight key ↔ service.InFlight key := by
  constructor
  · rintro ⟨other, rival, runs, awaited⟩
    exact ⟨other, rival, InsertionMap.get_of_delete runs, awaited⟩
  · rintro ⟨other, rival, runs, awaited⟩
    have ne : other ≠ task := by
      rintro rfl
      obtain rfl := Option.some.inj (runs.symm.trans running)
      simp [Activity.awaited, idle] at awaited
    exact ⟨other, rival, (InsertionMap.get_delete_ne _ ne).trans runs, awaited⟩

/- Replacing an idle activity by an idle one. -/
theorem inFlight_idle {task : Nat} {activity idler : Activity}
    (running : service.activities.get task = some activity) (idle : activity.awaiting = none)
    (idle' : idler.awaiting = none) (key : String) :
    (service.withActivity task idler).InFlight key ↔ service.InFlight key := by
  apply inFlight_withActivity
  simp [Activity.awaited, running, idle, idle']

theorem inFlight_started {task : Nat} {activity : Activity}
    (free : service.activities.get task = none) (idle : activity.awaiting = none) (key : String) :
    (service.withActivity task activity).InFlight key ↔ service.InFlight key := by
  apply inFlight_withActivity
  simp [Activity.awaited, free, idle]

theorem turn_alone (exclusive : service.Exclusive) {task : Nat} {recordId : String}
    {activity : Activity} {rest : Loop} {delivery : Delivery} {schedule : Option (String × Nat)}
    (running : service.activities.get task = some activity) (idle : activity.awaiting = none)
    (turn : Turn service activity.loop rest delivery schedule)
    (unraced : Unraced [] service ⟨now, .proceed task recordId⟩) :
    ¬ service.InFlight delivery.key := by
  rintro ⟨other, rival, runs, awaited⟩
  have claims : delivery.key ∈ rival.claims := List.mem_append_left _ awaited
  obtain ⟨loop, awaiting, results⟩ := activity
  cases turn with
  | publish selected =>
    obtain rfl : other = task := exclusive.claims_apart other task rival _ _ runs running claims
      (List.mem_append_right _ List.mem_cons_self)
    obtain rfl := Option.some.inj (runs.symm.trans running)
    obtain rfl : awaiting = none := idle
    simp [Activity.awaited] at awaited
  | retry reached known found =>
    obtain ⟨_, unclaimed⟩ :=
      retry_turn_alone exclusive running rfl reached known found unraced
    exact unclaimed other rival runs claims

theorem record_outcome (service : WebhookService) (delivery : Delivery)
    {outcome : DeliveryOutcome} (settled : outcome ≠ .retrying) (recordId : String) (now : Nat) :
    (service.record delivery outcome recordId now).2.outcome ≠ .retrying := by
  have counts := SubscriptionService.attempted_counts
    (service.records.get delivery.key) delivery.subscription.id delivery.event.id outcome recordId now
  have kept := SubscriptionService.scheduled_outcome (counts.2.2.trans_ne settled) now
  exact (kept.trans counts.2.2).trans_ne settled

theorem Move.flight (move : Move signPayload service now call after answer)
    (exclusive : service.Exclusive) (unraced : Unraced [] service ⟨now, call⟩) (key : String) :
    Flight service after answer key := by
  cases move with
  | published input eventId free =>
    exact .kept (inFlight_started free rfl key) (by simp [Sends]) (by simp)
  | retried due free =>
    exact .kept (inFlight_started free rfl key) (by simp [Sends]) (by simp)
  | finished running idle exhausted =>
    exact .kept (inFlight_withoutActivity running idle key) (by simp [Sends]) (by simp)
  | aborted running idle at_snapshot reached known missing thrown =>
    exact .kept (inFlight_withoutActivity running idle key) (by simp [Sends]) (by simp)
  | passed running idle pass =>
    refine .kept (inFlight_idle running idle ?_ key) (by simp [Sends]) (by simp)
    exact idle
  | @sent task recordId activity rest delivery schedule url running idle turn =>
    by_cases same : key = delivery.key
    · subst same
      refine .taken (turn_alone exclusive running idle turn unraced) ?_ ⟨_, rfl, rfl⟩
      exact ⟨task, _, InsertionMap.get_set_self _ _ _, List.mem_singleton.mpr rfl⟩
    · refine .kept (inFlight_withActivity ?_) ?_ (by simp)
      · simp [Activity.awaited, running, idle, same]
      · rintro ⟨send, told, named⟩
        obtain rfl := WebhookAnswer.sending.inj told
        exact same named.symm
  | unsent running idle turn attempt =>
    obtain ⟨rfl, rfl⟩ := Prod.mk.inj attempt
    refine .kept (inFlight_idle running idle rfl key) (by simp [Sends]) ?_
    rintro result told _
    obtain rfl := WebhookAnswer.recorded.inj told
    exact record_outcome _ _ (by decide) _ _
  | @settled task ok recordId activity delivery left record running awaited attempt =>
    obtain rfl := (Prod.mk.inj attempt).1
    by_cases same : key = delivery.key
    · subst same
      have mine : delivery.key ∈ activity.awaited := by simp [Activity.awaited, awaited]
      refine .landed ⟨task, activity, running, mine⟩ ?_ ⟨_, rfl, rfl⟩
      rintro ⟨other, rival, runs, waits⟩
      rw [activities_withActivity, InsertionMap.get_set] at runs
      split at runs
      · obtain rfl := Option.some.inj runs
        simp [Activity.awaited] at waits
      · rename_i ne
        exact ne (exclusive.claims_apart other task rival activity _ runs running
          (List.mem_append_left _ waits) (List.mem_append_left _ mine))
    · refine .kept (inFlight_withActivity ?_) (by simp [Sends]) ?_
      · simp [Activity.awaited, running, awaited, Ne.symm same]
      · rintro result told named
        obtain rfl := WebhookAnswer.recorded.inj told
        exact absurd named.symm same
  | simulated input eventId recordId found attempt =>
    obtain ⟨rfl, rfl⟩ := Prod.mk.inj attempt
    refine .kept Iff.rfl (by simp [Sends]) ?_
    rintro result told _
    obtain rfl := WebhookAnswer.recorded.inj told
    exact record_outcome _ _ (by decide) _ _
  | _ => exact .kept Iff.rfl (by simp [Sends]) (by simp)

/- What answers say about a pair is said under ids that make up one key only. -/
theorem Move.named (move : Move signPayload service now call after answer)
    (exclusive : service.Exclusive) :
    (∀ send, answer = .sending send → ColonFree send.subscriptionId) ∧
      ∀ result, answer = .recorded result → ColonFree result.subscriptionId := by
  have turned : ∀ {task : Nat} {activity : Activity} {rest : Loop} {delivery : Delivery}
      {schedule : Option (String × Nat)}, service.activities.get task = some activity →
      Turn service activity.loop rest delivery schedule → ColonFree delivery.subscription.id := by
    intro task activity rest delivery schedule running turn
    obtain ⟨loop, awaiting, results⟩ := activity
    cases turn with
    | publish selected =>
      exact (exclusive.deliveries_known task _ running _
        (List.mem_append_right _ List.mem_cons_self)).1
    | retry reached known found => exact (retry_turn_pair exclusive known found).2.2.1
  cases move with
  | simulated input eventId recordId found attempt =>
    obtain ⟨named, free⟩ := exclusive.subscriptions_named _ _ found
    refine ⟨by simp, ?_⟩
    rintro result told
    obtain rfl := WebhookAnswer.recorded.inj told
    rw [← named] at free
    exact free
  | sent running idle turn =>
    refine ⟨?_, by simp⟩
    rintro send told
    obtain rfl := WebhookAnswer.sending.inj told
    exact turned running turn
  | unsent running idle turn attempt =>
    refine ⟨by simp, ?_⟩
    rintro result told
    obtain rfl := WebhookAnswer.recorded.inj told
    exact turned running turn
  | settled ok running awaited attempt =>
    refine ⟨by simp, ?_⟩
    rintro result told
    obtain rfl := WebhookAnswer.recorded.inj told
    exact (exclusive.deliveries_known _ _ running _ (by simp [Activity.deliveries, awaited])).1
  | _ => simp

/- An attempt's result shows the record it left behind. -/
theorem Move.recorded (move : Move signPayload service now call after answer)
    {result : WebhookDeliveryResult} (told : answer = .recorded result) :
    ∃ record, after.records.get (recordKey result.subscriptionId result.eventId) = some record ∧
      record.outcome = result.outcome ∧
      ∀ task recordId, call = .answered task true recordId → record.outcome ≠ .retrying := by
  cases move with
  | simulated input eventId recordId found attempt =>
    obtain rfl := WebhookAnswer.recorded.inj told
    obtain ⟨rfl, rfl⟩ := Prod.mk.inj attempt
    exact ⟨_, (records_record _ _ _ _ _ _).trans (if_pos rfl), rfl, by simp⟩
  | unsent running idle turn attempt =>
    obtain rfl := WebhookAnswer.recorded.inj told
    obtain ⟨rfl, rfl⟩ := Prod.mk.inj attempt
    exact ⟨_, (records_record _ _ _ _ _ _).trans (if_pos rfl), rfl, by simp⟩
  | settled ok running awaited attempt =>
    obtain rfl := WebhookAnswer.recorded.inj told
    obtain ⟨rfl, rfl⟩ := Prod.mk.inj attempt
    refine ⟨_, (records_record _ _ _ _ _ _).trans (if_pos rfl), rfl, ?_⟩
    rintro task recordId same
    obtain ⟨_, rfl, _⟩ := WebhookCall.answered.inj same
    exact record_outcome _ _ (by decide) _ _
  | _ => cases told

/- What ends the retries of a pair leaves a record that does not retry. -/
theorem Move.settles {timed : TimedCall}
    (move : Move signPayload service timed.now timed.call after answer)
    {subscriptionId eventId : String} (settles : Settles subscriptionId eventId (timed, answer)) :
    ∃ record, after.records.get (recordKey subscriptionId eventId) = some record ∧
      record.outcome ≠ .retrying := by
  obtain ⟨now, call⟩ := timed
  rcases settles with ⟨result, told, rfl, rfl, ends⟩ |
    ⟨userId, eventIds, count, skippedIds, asked, told, taken⟩
  · obtain ⟨record, stored, same, answered⟩ := move.recorded told
    refine ⟨record, stored, ?_⟩
    rcases ends with settled | ⟨task, recordId, successful⟩
    · rwa [same]
    · exact answered task recordId successful
  · obtain rfl : call = _ := asked
    obtain rfl : answer = _ := told
    cases move with
    | acknowledged found settled =>
      have taken := SubscriptionService.acknowledgeEach_settles (by rw [settled]; exact taken)
      rw [settled] at taken
      obtain ⟨record, stored, acknowledged⟩ := taken
      exact ⟨record, stored, by simp [acknowledged]⟩

/- Subscriptions appear under fresh ids only. -/
theorem Move.subscription (move : Move signPayload service now call after answer)
    (exclusive : service.Exclusive) {id : String} (absent : service.subscriptions.get id = none) :
    after.subscriptions.get id = none ∨ id ∈ call.uuids := by
  cases move with
  | @created userId dto new entity named enabled =>
    by_cases same : id = new
    · exact Or.inr (by simp [WebhookCall.uuids, same])
    · exact Or.inl ((InsertionMap.get_set_ne _ _ same).trans absent)
  | @updated userId subscriptionId dto entity found =>
    have held := SubscriptionService.findOrThrow_ok found
    have ne : id ≠ entity.id := by
      rintro rfl
      rw [(exclusive.subscriptions_named _ _ held).1] at absent
      exact absurd (held.symm.trans absent) (by simp)
    exact Or.inl ((InsertionMap.get_set_ne _ _ ne).trans absent)
  | @removed userId subscriptionId entity found =>
    refine Or.inl ?_
    by_cases same : id = subscriptionId
    · subst same
      exact InsertionMap.get_delete_self _ _
    · exact (InsertionMap.get_delete_ne _ same).trans absent
  | simulated input eventId recordId found attempt =>
    obtain rfl := (Prod.mk.inj attempt).1
    exact Or.inl absent
  | unsent running idle turn attempt =>
    obtain rfl := (Prod.mk.inj attempt).1
    exact Or.inl absent
  | settled ok running awaited attempt =>
    obtain rfl := (Prod.mk.inj attempt).1
    exact Or.inl absent
  | _ => exact Or.inl absent

theorem Move.deleted {timed : TimedCall}
    (move : Move signPayload service timed.now timed.call after answer) {subscriptionId : String}
    (deletes : Deletes subscriptionId (timed, answer)) :
    service.subscriptions.get subscriptionId ≠ none ∧
      after.subscriptions.get subscriptionId = none := by
  obtain ⟨now, call⟩ := timed
  obtain ⟨userId, asked, told⟩ := deletes
  obtain rfl : call = _ := asked
  obtain rfl : answer = _ := told
  cases move with
  | removed found =>
    refine ⟨?_, InsertionMap.get_delete_self _ _⟩
    have held := SubscriptionService.findOrThrow_ok found
    simp [WebhookService.subscriptions, held]

end Flights

/-- The history of a pair against the state: how often it was sent and recorded, and that
    it is closed once its retries have ended. -/
structure Paced (subscriptionId eventId : String) (past : List (TimedCall × WebhookAnswer))
    (service : WebhookService) : Prop where
  settled : ∀ e ∈ past, Settles subscriptionId eventId e →
    ¬ service.OpenPair (recordKey subscriptionId eventId)
  deleted : ∀ e ∈ past, Deletes subscriptionId e →
    subscriptionId ∈ usedUuids past ∧ service.subscriptions.get subscriptionId = none
  unrecorded : (∀ e ∈ past, ¬ Deletes subscriptionId e) →
    service.records.get (recordKey subscriptionId eventId) = none →
    attemptTimes subscriptionId eventId past = []
  recorded : (∀ e ∈ past, ¬ Deletes subscriptionId e) → ∀ record,
    service.records.get (recordKey subscriptionId eventId) = some record →
    record.attemptCount = (attemptTimes subscriptionId eventId past).length ∧
      (attemptTimes subscriptionId eventId past).head? = some record.lastAttemptAt
  in_step : (∀ e ∈ past, ¬ Settles subscriptionId eventId e) →
    (sendTimes subscriptionId eventId past).length =
      (attemptTimes subscriptionId eventId past).length +
        if service.InFlight (recordKey subscriptionId eventId) then 1 else 0
  bounded : (sendTimes subscriptionId eventId past).length ≤ maxRetryAttempts + 1

/-- The send of a pair comes in time: nothing has ended its retries, every earlier send was
    recorded, and the back-off after the last attempt is over. -/
structure InTime (subscriptionId eventId : String) (now : Nat)
    (earlier : List (TimedCall × WebhookAnswer)) : Prop where
  unsettled : ∀ e ∈ earlier, ¬ Settles subscriptionId eventId e
  undeleted : ∀ e ∈ earlier, ¬ Deletes subscriptionId e
  answered : (sendTimes subscriptionId eventId earlier).length =
    (attemptTimes subscriptionId eventId earlier).length
  spaced : ∀ last before, attemptTimes subscriptionId eventId earlier = last :: before →
    last + 1000 * 2 ^ before.length ≤ now

section Pacing
variable {signPayload : WebhookEvent → String} {service after : WebhookService}
  {timed : TimedCall} {answer : WebhookAnswer} {past : List (TimedCall × WebhookAnswer)}
  {subscriptionId eventId : String}

theorem sendTimes_cons (past : List (TimedCall × WebhookAnswer)) (timed : TimedCall)
    (eventId : String) (free : ColonFree subscriptionId)
    (named : ∀ send, answer = .sending send → ColonFree send.subscriptionId) :
    (Sends answer (recordKey subscriptionId eventId) →
      sendTimes subscriptionId eventId ((timed, answer) :: past) =
        timed.now :: sendTimes subscriptionId eventId past) ∧
    (¬ Sends answer (recordKey subscriptionId eventId) →
      sendTimes subscriptionId eventId ((timed, answer) :: past) =
        sendTimes subscriptionId eventId past) := by
  constructor
  · rintro ⟨send, rfl, same⟩
    obtain ⟨rfl, rfl⟩ := recordKey_inj (named send rfl) free same
    simp [sendTimes, sentAt]
  · intro unsent
    refine List.filterMap_cons_none ?_
    cases answer with
    | sending send =>
      refine if_neg ?_
      rintro ⟨rfl, rfl⟩
      exact unsent ⟨send, rfl, rfl⟩
    | _ => rfl

theorem attemptTimes_cons (past : List (TimedCall × WebhookAnswer)) (timed : TimedCall)
    (eventId : String) (free : ColonFree subscriptionId)
    (named : ∀ result, answer = .recorded result → ColonFree result.subscriptionId) :
    (Reports answer (recordKey subscriptionId eventId) →
      attemptTimes subscriptionId eventId ((timed, answer) :: past) =
        timed.now :: attemptTimes subscriptionId eventId past) ∧
    (¬ Reports answer (recordKey subscriptionId eventId) →
      attemptTimes subscriptionId eventId ((timed, answer) :: past) =
        attemptTimes subscriptionId eventId past) := by
  constructor
  · rintro ⟨result, rfl, same⟩
    obtain ⟨rfl, rfl⟩ := recordKey_inj (named result rfl) free same
    simp [attemptTimes, attemptedAt]
  · intro unreported
    refine List.filterMap_cons_none ?_
    cases answer with
    | recorded result =>
      refine if_neg ?_
      rintro ⟨rfl, rfl⟩
      exact unreported ⟨result, rfl, rfl⟩
    | _ => rfl

theorem Paced.inTime (paced : Paced subscriptionId eventId past service)
    (exclusive : service.Exclusive) (referenced : service.Referenced)
    (current : Current past service) (scheduled : Scheduled past service)
    (clock : ∀ e ∈ past, e.1.now ≤ timed.now) (unraced : Unraced [] service timed)
    (move : Move signPayload service timed.now timed.call after answer) {send : Sending}
    (told : answer = .sending send) (same_subscription : send.subscriptionId = subscriptionId)
    (same_event : send.eventId = eventId) :
    InTime subscriptionId eventId timed.now past ∧
      (attemptTimes subscriptionId eventId past).length ≤ maxRetryAttempts := by
  obtain ⟨now, call⟩ := timed
  cases move with
  | @sent task recordId activity rest delivery schedule url running idle turn =>
    obtain rfl := WebhookAnswer.sending.inj told
    obtain rfl : delivery.subscription.id = subscriptionId := same_subscription
    obtain rfl : delivery.event.id = eventId := same_event
    have unsettled : ∀ e ∈ past, ¬ Settles delivery.subscription.id delivery.event.id e :=
      fun e member settles => paced.settled e member settles
        (turn_open exclusive running turn unraced)
    have undeleted : ∀ e ∈ past, ¬ Deletes delivery.subscription.id e :=
      fun e member deletes => (turn_delivers referenced running turn).1
        (paced.deleted e member deletes).2
    have alone : ¬ service.InFlight (recordKey delivery.subscription.id delivery.event.id) :=
      turn_alone exclusive running idle turn unraced
    have answered := paced.in_step unsettled
    rw [if_neg alone, Nat.add_zero] at answered
    obtain ⟨loop, awaiting, results⟩ := activity
    cases turn with
    | publish selected =>
      have never := paced.unrecorded undeleted (exclusive.pending_unrecorded task _ running _
        List.mem_cons_self)
      refine ⟨⟨unsettled, undeleted, answered, ?_⟩, by simp [never]⟩
      intro last before attempts
      rw [never] at attempts
      cases attempts
    | @retry due schedule snapshot rest event subscription reached known found =>
      -- the live record is the snapshot, due by now
      have key := turn_snapshot exclusive known found
      have live := current.snapshots_live task _ _ _ running rfl snapshot List.mem_cons_self
      rw [← key] at live
      obtain ⟨counted, newest⟩ := paced.recorded undeleted snapshot live
      have on_schedule := scheduled.on_schedule _ snapshot live
      unfold dueSchedule at reached
      split at reached
      · rename_i due_retry
        obtain ⟨next, arrived⟩ := Option.filter_eq_some_iff.mp reached
        rw [SubscriptionService.OnSchedule, if_pos due_retry.1, next] at on_schedule
        obtain ⟨_, few, waits⟩ := on_schedule
        obtain ⟨e, member, asked⟩ := current.due_past task _ _ _ running rfl
        have reading := clock e member
        refine ⟨⟨unsettled, undeleted, answered, ?_⟩, counted ▸ few⟩
        intro last before attempts
        rw [attempts] at counted newest
        obtain rfl := Option.some.inj newest
        have delay : SubscriptionService.retryDelayMs snapshot.attemptCount =
            1000 * 2 ^ before.length := by
          rw [counted, SubscriptionService.retryDelayMs, baseRetryDelayMs]
          rfl
        rw [delay] at waits
        have arrived : schedule ≤ due := by simpa using arrived
        have value := Option.some.inj waits
        omega
      · cases reached
  | _ => cases told

/- One step keeps the attempt count and the last attempt of a record with its history. -/
theorem Paced.counted (paced : Paced subscriptionId eventId past service)
    (exclusive : service.Exclusive) (free : ColonFree subscriptionId)
    (named : ∀ result, answer = .recorded result → ColonFree result.subscriptionId)
    (written : Written service timed.now timed.call after answer (recordKey subscriptionId eventId))
    (undeleted : ∀ e ∈ (timed, answer) :: past, ¬ Deletes subscriptionId e) :
    (after.records.get (recordKey subscriptionId eventId) = none →
      attemptTimes subscriptionId eventId ((timed, answer) :: past) = []) ∧
    ∀ record, after.records.get (recordKey subscriptionId eventId) = some record →
      record.attemptCount =
        (attemptTimes subscriptionId eventId ((timed, answer) :: past)).length ∧
      (attemptTimes subscriptionId eventId ((timed, answer) :: past)).head? =
        some record.lastAttemptAt := by
  have before : ∀ e ∈ past, ¬ Deletes subscriptionId e := fun e member =>
    undeleted e (List.mem_cons_of_mem _ member)
  obtain ⟨grown, same_times⟩ := attemptTimes_cons past timed eventId free named
  cases written with
  | kept same unreported =>
    rw [same, same_times unreported]
    exact ⟨paced.unrecorded before, paced.recorded before⟩
  | @dropped userId owner old told confirmed held owned gone =>
    obtain ⟨keyed, free', _⟩ := exclusive.records_keyed _ old held
    have mine : subscriptionId = owner := (recordKey_inj free free' keyed).1.trans owned
    exact absurd ⟨userId, mine ▸ told, confirmed⟩ (undeleted _ List.mem_cons_self)
  | @acknowledged old held stored unreported =>
    rw [stored, same_times unreported]
    refine ⟨by simp, ?_⟩
    rintro record present
    obtain rfl := Option.some.inj present
    exact paced.recorded before old held
  | attempted attempt reported =>
    obtain ⟨delivery, outcome, recordId, same, _, stored, _⟩ := attempt
    rw [stored, grown reported]
    refine ⟨by simp, ?_⟩
    rintro record present
    obtain rfl := Option.some.inj present
    have last := (record_onSchedule service delivery outcome recordId timed.now).2
    refine ⟨?_, by rw [last]; rfl⟩
    cases held : service.records.get delivery.key with
    | none =>
      rw [(record_first held outcome recordId timed.now).2, paced.unrecorded before (same ▸ held)]
      rfl
    | some old =>
      rw [(record_again held outcome recordId timed.now).2,
        (paced.recorded before old (same ▸ held)).1]
      rfl

/- One step keeps the sends one ahead of the attempts while one is out. -/
theorem Paced.stays_in_step (paced : Paced subscriptionId eventId past service)
    (free : ColonFree subscriptionId)
    (named : (∀ send, answer = .sending send → ColonFree send.subscriptionId) ∧
      ∀ result, answer = .recorded result → ColonFree result.subscriptionId)
    (flight : Flight service after answer (recordKey subscriptionId eventId))
    (unsettled : ∀ e ∈ (timed, answer) :: past, ¬ Settles subscriptionId eventId e) :
    (sendTimes subscriptionId eventId ((timed, answer) :: past)).length =
      (attemptTimes subscriptionId eventId ((timed, answer) :: past)).length +
        if after.InFlight (recordKey subscriptionId eventId) then 1 else 0 := by
  have before := paced.in_step fun e member => unsettled e (List.mem_cons_of_mem _ member)
  obtain ⟨sent_more, sent_same⟩ := sendTimes_cons past timed eventId free named.1
  obtain ⟨tried_more, tried_same⟩ := attemptTimes_cons past timed eventId free named.2
  cases flight with
  | kept same unsent final =>
    have unreported : ¬ Reports answer (recordKey subscriptionId eventId) := by
      rintro ⟨result, told, key⟩
      obtain ⟨rfl, rfl⟩ := recordKey_inj (named.2 result told) free key
      exact unsettled _ List.mem_cons_self
        (Or.inl ⟨result, told, rfl, rfl, Or.inl (final result told key)⟩)
    rw [sent_same unsent, tried_same unreported, before]
    simp [same]
  | taken alone out sent =>
    have unreported : ¬ Reports answer (recordKey subscriptionId eventId) := by
      obtain ⟨send, rfl, _⟩ := sent
      simp [Reports]
    rw [if_neg alone] at before
    rw [sent_more sent, tried_same unreported, if_pos out, List.length_cons, before]
  | landed out settled reported =>
    have unsent : ¬ Sends answer (recordKey subscriptionId eventId) := by
      obtain ⟨result, rfl, _⟩ := reported
      simp [Sends]
    rw [if_pos out] at before
    rw [sent_same unsent, tried_more reported, if_neg settled, List.length_cons, before]

theorem Move.paced (move : Move signPayload service timed.now timed.call after answer)
    (exclusive : service.Exclusive) (kept : after.Exclusive) (referenced : service.Referenced)
    (current : Current past service) (scheduled : Scheduled past service)
    (fresh : ∀ id ∈ timed.call.uuids, ColonFree id ∧ id ∉ service.eventIds)
    (unused : ∀ id ∈ timed.call.uuids, id ∉ usedUuids past)
    (clock : ∀ e ∈ past, e.1.now ≤ timed.now) (unraced : Unraced [] service timed)
    (known : ∀ id, service.subscriptions.get id ≠ none → id ∈ usedUuids past)
    (free : ColonFree subscriptionId) (paced : Paced subscriptionId eventId past service) :
    Paced subscriptionId eventId ((timed, answer) :: past) after := by
  have named := move.named exclusive
  have written := move.written exclusive fresh unraced (recordKey subscriptionId eventId)
  refine ⟨?_, ?_, ?_, ?_, ?_, ?_⟩
  · intro e member settles
    rcases List.mem_cons.mp member with rfl | earlier
    · obtain ⟨record, stored, final⟩ := move.settles settles
      exact fun still_open => final (attempted_retrying kept still_open stored)
    · exact (move.closed exclusive fresh unraced (paced.settled e earlier settles)).1
  · intro e member deletes
    rcases List.mem_cons.mp member with rfl | earlier
    · obtain ⟨existed, gone⟩ := move.deleted deletes
      exact ⟨used_later (known _ existed), gone⟩
    · obtain ⟨used, gone⟩ := paced.deleted e earlier deletes
      exact ⟨used_later used, (move.subscription exclusive gone).resolve_right
        fun offered => unused _ offered used⟩
  · exact fun undeleted => (paced.counted exclusive free named.2 written undeleted).1
  · exact fun undeleted => (paced.counted exclusive free named.2 written undeleted).2
  · exact paced.stays_in_step free named (move.flight exclusive unraced _)
  · obtain ⟨grown, same⟩ := sendTimes_cons past timed eventId free named.1
    by_cases sends : Sends answer (recordKey subscriptionId eventId)
    · rw [grown sends]
      obtain ⟨send, told, key⟩ := sends
      obtain ⟨same_subscription, same_event⟩ := recordKey_inj (named.1 send told) free key
      obtain ⟨in_time, few⟩ := paced.inTime exclusive referenced current scheduled clock unraced
        move told same_subscription same_event
      rw [List.length_cons, in_time.answered]
      exact Nat.succ_le_succ few
    · rw [same sends]
      exact paced.bounded

end Pacing
section Runs
variable {signPayload : WebhookEvent → String} {past : List (TimedCall × WebhookAnswer)}
  {service : WebhookService}

theorem subscriptions_used (run : (machine signPayload).Run Sequential past service) :
    ∀ id, service.subscriptions.get id ≠ none → id ∈ usedUuids past := by
  refine run.invariant (fun past service =>
    ∀ id, service.subscriptions.get id ≠ none → id ∈ usedUuids past) ?_ ?_
  · simp [machine, initial, SubscriptionService.initial, WebhookService.subscriptions]
  · intro past service timed after answer before known permitted moved id present
    by_cases held : service.subscriptions.get id = none
    · have exclusive := (sequential_invariant before).1.1
      exact used_now (((step_moves moved).subscription exclusive held).resolve_left present)
    · exact used_later (known id held)

theorem paced_run (run : (machine signPayload).Run Sequential past service)
    {subscriptionId : String} (free : ColonFree subscriptionId) (eventId : String) :
    Paced subscriptionId eventId past service := by
  refine run.invariant (Paced subscriptionId eventId) ?_ ?_
  · constructor <;> simp [machine, initial, SubscriptionService.initial, records, sendTimes,
      attemptTimes, InFlight]
  · intro past service timed after answer before paced permitted moved
    obtain ⟨⟨exclusive, used⟩, current⟩ := sequential_invariant before
    have kept := (sequential_invariant (before.next permitted moved)).1.1
    have unraced : Unraced past service timed := current.unraced permitted.2
    exact (step_moves moved).paced exclusive kept (referenced_run (sequential_deletesClear before)).1
      current (scheduled_run (sequential_raceFree before)) (fresh_names permitted.1 used)
      (fun id offered => (permitted.1.2.2 id offered).2) permitted.1.1 unraced
      (subscriptions_used before) free paced

theorem send_inTime (run : (machine signPayload).Run Sequential past service)
    {later earlier : List (TimedCall × WebhookAnswer)} {timed : TimedCall} {send : Sending}
    (split : past = later ++ (timed, .sending send) :: earlier) :
    ColonFree send.subscriptionId ∧
      InTime send.subscriptionId send.eventId timed.now earlier := by
  obtain ⟨before, after, run', permitted, moved⟩ := run.exchange split
  have move := step_moves moved
  obtain ⟨⟨exclusive, used⟩, current⟩ := sequential_invariant run'
  have free := (move.named exclusive).1 send rfl
  have unraced : Unraced earlier before timed := current.unraced permitted.2
  exact ⟨free, ((paced_run run' free send.eventId).inTime exclusive
    (referenced_run (sequential_deletesClear run')).1 current
    (scheduled_run (sequential_raceFree run')) permitted.1.1 unraced move rfl rfl rfl).1⟩

/-- While calls execute one after another, sendWebhook is called at most six times for a
pair, each time after the back-off and never once the retries of the pair have ended. -/
theorem retries_bounded_and_spaced (run : (machine signPayload).Run Sequential past service)
    (subscriptionId eventId : String) :
    (sendTimes subscriptionId eventId past).length ≤ 6 ∧
      ∀ later earlier timed send, past = later ++ (timed, .sending send) :: earlier →
        send.subscriptionId = subscriptionId → send.eventId = eventId →
        InTime subscriptionId eventId timed.now earlier := by
  constructor
  · by_cases free : ColonFree subscriptionId
    · exact (paced_run run free eventId).bounded
    · have never : sendTimes subscriptionId eventId past = [] := by
        refine List.filterMap_eq_nil_iff.mpr ?_
        rintro ⟨timed, answer⟩ member
        obtain ⟨later, earlier, split⟩ := List.append_of_mem member
        cases answer with
        | sending send =>
          refine if_neg ?_
          rintro ⟨rfl, _⟩
          exact free (send_inTime run split).1
        | _ => rfl
      simp [never]
  · rintro later earlier timed send split rfl rfl
    exact (send_inTime run split).2

end Runs

/-- Two failed sends, a third that succeeds, and a last run with nothing left to do. -/
def retriedTwice : List TimedCall :=
  failedFirst ++ [⟨10, .proceed 1 "u2"⟩, ⟨1010, .retryDueDeliveries 2 1010⟩, ⟨1010, .proceed 2 "u3"⟩,
    ⟨1020, .answered 2 false "u4"⟩, ⟨1020, .proceed 2 "u5"⟩, ⟨3020, .retryDueDeliveries 3 3020⟩,
    ⟨3020, .proceed 3 "u6"⟩, ⟨3030, .answered 3 true "u7"⟩, ⟨3030, .proceed 3 "u8"⟩,
    ⟨9000, .retryDueDeliveries 4 9000⟩, ⟨9000, .proceed 4 "u9"⟩, ⟨9000, .proceed 4 "u10"⟩]

theorem retries_bounded_and_spaced_after_success :
    let M := machine fun _ => "signature"
    ∃ moment, M.play Sequential ⟨[], M.init⟩ retriedTwice = some moment ∧
      sendTimes "s1" "e1" moment.past = [3020, 1010, 0] ∧
      (sendTimes "s1" "e1" moment.past).length ≤ 6 ∧
      ∀ later earlier timed send, moment.past = later ++ (timed, .sending send) :: earlier →
        send.subscriptionId = "s1" → send.eventId = "e1" → InTime "s1" "e1" timed.now earlier := by
  intro M
  have sent : (M.play Sequential ⟨[], M.init⟩ retriedTwice).map
      (fun moment => sendTimes "s1" "e1" moment.past) = some [3020, 1010, 0] := by decide +kernel
  obtain ⟨moment, played, times⟩ := Option.map_eq_some_iff.mp sent
  have run : M.Run Sequential moment.past moment.state := Machine.play_run played
  obtain ⟨bounded, spaced⟩ := retries_bounded_and_spaced run "s1" "e1"
  exact ⟨moment, played, times, bounded, spaced⟩

end AstraPort.Webhook.WebhookService
