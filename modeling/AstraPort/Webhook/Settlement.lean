import AstraPort.Webhook.Exclusive

/- Settled deliveries stay settled and every scheduled retry is sent once, in runs
   without races on a record; two overlapping retry runs break both. -/
namespace AstraPort.Webhook.WebhookService

/-- A pair whose record may still be written: claimed, not published yet, or waiting
    for a retry. -/
def OpenPair (service : WebhookService) (key : String) : Prop :=
  ¬ service.Unclaimed key ∨ ¬ service.Known key ∨
    ∃ record, service.records.get key = some record ∧ record.outcome = .retrying

/-- The step records an attempt under a key that was open. -/
def Attempted (service : WebhookService) (now : Nat) (call : WebhookCall)
    (after : WebhookService) (key : String) : Prop :=
  ∃ delivery outcome recordId, key = Delivery.key delivery ∧ recordId ∈ call.uuids ∧
    after.records.get key = some (service.record delivery outcome recordId now).2 ∧
    service.OpenPair key

/-- The answer reports an attempt on the pair of the key. -/
def Reports (answer : WebhookAnswer) (key : String) : Prop :=
  ∃ result, answer = .recorded result ∧ recordKey result.subscriptionId result.eventId = key

/-- What one step can do to the record stored under a key. -/
inductive Written (service : WebhookService) (now : Nat) (call : WebhookCall)
    (after : WebhookService) (answer : WebhookAnswer) (key : String) : Prop where
  | kept (same : after.records.get key = service.records.get key)
      (unreported : ¬ Reports answer key)
  | dropped {userId subscriptionId : String} {old : DeliveryRecordEntity}
      (told : call = .deleteSubscription userId subscriptionId) (confirmed : answer = .deleted)
      (held : service.records.get key = some old) (owned : old.subscriptionId = subscriptionId)
      (gone : after.records.get key = none)
  | acknowledged {old : DeliveryRecordEntity} (held : service.records.get key = some old)
      (written : after.records.get key = some (SubscriptionService.acknowledged old now))
      (unreported : ¬ Reports answer key)
  | attempted (attempt : Attempted service now call after key) (reported : Reports answer key)

section Steps
variable {signPayload : WebhookEvent → String} {service after : WebhookService} {now : Nat}
  {call : WebhookCall} {answer : WebhookAnswer}

theorem written_by_attempt {delivery : Delivery} {outcome : DeliveryOutcome} {recordId : String}
    {left : WebhookService} {record : DeliveryRecordEntity}
    (attempt : service.record delivery outcome recordId now = (left, record))
    (same_records : after.records = left.records) (offered : recordId ∈ call.uuids)
    (told : answer = .recorded (deliveryResult signPayload delivery record))
    (still_open : service.OpenPair delivery.key) (key : String) :
    Written service now call after answer key := by
  have stored := records_record service delivery outcome recordId now key
  rw [attempt, ← same_records] at stored
  by_cases same : key = delivery.key
  · rw [if_pos same] at stored
    have written : after.records.get key =
        some (service.record delivery outcome recordId now).2 := by rw [stored, attempt]
    exact .attempted ⟨delivery, outcome, recordId, same, offered, written, same ▸ still_open⟩
      ⟨_, told, same.symm⟩
  · rw [if_neg same] at stored
    refine .kept stored ?_
    rintro ⟨result, reported, named⟩
    obtain rfl := WebhookAnswer.recorded.inj (told.symm.trans reported)
    exact same named.symm

theorem claimed_open {task : Nat} {activity : Activity} {key : String}
    (running : service.activities.get task = some activity) (claimed : key ∈ activity.claims) :
    service.OpenPair key := Or.inl fun unclaimed => unclaimed task activity running claimed

theorem turn_open (exclusive : service.Exclusive) {task : Nat} {recordId : String}
    {activity : Activity} {rest : Loop} {delivery : Delivery} {schedule : Option (String × Nat)}
    (running : service.activities.get task = some activity)
    (turn : Turn service activity.loop rest delivery schedule)
    (unraced : Unraced [] service ⟨now, .proceed task recordId⟩) :
    service.OpenPair delivery.key := by
  obtain ⟨loop, awaiting, results⟩ := activity
  cases turn with
  | publish selected =>
    exact claimed_open running (List.mem_append_right _ List.mem_cons_self)
  | retry reached known found =>
    obtain ⟨⟨live, held, _, still_open, _⟩, _⟩ :=
      retry_turn_alone exclusive running rfl reached known found unraced
    exact Or.inr (Or.inr ⟨live, held, still_open⟩)

theorem Move.written (move : Move signPayload service now call after answer)
    (exclusive : service.Exclusive)
    (fresh : ∀ id ∈ call.uuids, ColonFree id ∧ id ∉ service.eventIds)
    (unraced : Unraced [] service ⟨now, call⟩) (key : String) :
    Written service now call after answer key := by
  cases move with
  | @removed userId subscriptionId entity found =>
    have kept : _ = (service.records.get key).filter _ :=
      SubscriptionService.removeSubscription_get service.subscriptionService subscriptionId key
    cases held : service.records.get key with
    | none =>
      rw [held] at kept
      exact .kept (kept.trans held.symm) (by simp [Reports])
    | some record =>
      rw [held, Option.filter_some] at kept
      split at kept
      · exact .kept (kept.trans held.symm) (by simp [Reports])
      · rename_i owned
        exact .dropped rfl rfl held (by simpa using owned) kept
  | @acknowledged userId subscriptionId eventIds skippedIds entity left count found settled =>
    have written := SubscriptionService.acknowledgeEach_get subscriptionId now eventIds
      service.records key
    rw [settled] at written
    cases held : service.records.get key with
    | none =>
      rw [held] at written
      exact .kept (Eq.trans written held.symm) (by simp [Reports])
    | some record =>
      rw [held, Option.map_some] at written
      split at written
      · exact .acknowledged held written (by simp [Reports])
      · exact .kept (written.trans held.symm) (by simp [Reports])
  | @simulated subscriptionId input eventId recordId subscription left record found attempt =>
    have named := exclusive.subscriptions_named _ _ found
    have unpublished := (fresh eventId List.mem_cons_self).2
    have attempt' : service.record ⟨subscription, newEvent input eventId now⟩ .delivered recordId
        now = ((service.record ⟨subscription, newEvent input eventId now⟩ .delivered recordId
          now).1, record) := by
      rw [← (Prod.mk.inj attempt).2]
      rfl
    refine written_by_attempt attempt' (by rw [← (Prod.mk.inj attempt).1]; rfl)
      (List.mem_cons_of_mem _ List.mem_cons_self) rfl ?_ key
    refine Or.inr (Or.inl ?_)
    rintro ⟨other, published, free', member, same⟩
    have same_event : eventId = published := (recordKey_inj (named.1 ▸ named.2) free' same).2
    exact unpublished (same_event ▸ member)
  | unsent running idle turn attempt =>
    refine written_by_attempt attempt ?_ ?_ rfl (turn_open exclusive running turn unraced) key
    · rfl
    · exact List.mem_cons_self
  | settled ok running awaited attempt =>
    refine written_by_attempt attempt ?_ ?_ rfl (claimed_open running ?_) key
    · rfl
    · exact List.mem_cons_self
    · simp [Activity.claims, Activity.awaited, awaited]
  | _ => exact .kept rfl (by simp [Reports])

theorem turn_narrows {activity : Activity} {rest : Loop} {delivery : Delivery}
    {schedule : Option (String × Nat)} (turn : Turn service activity.loop rest delivery schedule) :
    ({ activity with loop := rest } : Activity).pending.Sublist activity.pending := by
  obtain ⟨loop, awaiting, results⟩ := activity
  cases turn with
  | publish selected => exact List.sublist_cons_self _ _
  | retry reached known found => exact List.Sublist.refl _

/- A key that is claimed after a step was open before it. -/
theorem Move.claimed (move : Move signPayload service now call after answer)
    (exclusive : service.Exclusive)
    (fresh : ∀ id ∈ call.uuids, ColonFree id ∧ id ∉ service.eventIds)
    (unraced : Unraced [] service ⟨now, call⟩) {key : String} (claimed : ¬ after.Unclaimed key) :
    service.OpenPair key := by
  simp only [Unclaimed, not_forall, not_not] at claimed
  obtain ⟨other, rival, runs, claims⟩ := claimed
  cases move with
  | published input eventId free =>
    rcases InsertionMap.get_set_cases runs with ⟨_, rfl⟩ | ⟨_, before⟩
    · have active := exclusive.active_keys eventId
      simp only [Activity.claims, Activity.awaited, Activity.pending, Activity.ahead,
        Option.toList_none, List.map_nil, List.nil_append, List.map_map, List.mem_map,
        Function.comp_apply] at claims
      obtain ⟨subscription, listed, rfl⟩ := claims
      refine Or.inr (Or.inl ?_)
      rintro ⟨name, published, free', member, same⟩
      have same_event : eventId = published :=
        (recordKey_inj (active.2 subscription listed).1 free' same).2
      exact (fresh eventId List.mem_cons_self).2 (same_event ▸ member)
    · exact claimed_open before claims
  | retried due free =>
    rcases InsertionMap.get_set_cases runs with ⟨_, rfl⟩ | ⟨_, before⟩
    · simp [Activity.claims, Activity.awaited, Activity.pending, Activity.ahead] at claims
    · exact claimed_open before claims
  | finished running idle exhausted => exact claimed_open (InsertionMap.get_of_delete runs) claims
  | aborted running idle at_snapshot reached known missing thrown =>
    exact claimed_open (InsertionMap.get_of_delete runs) claims
  | passed running idle pass =>
    rcases InsertionMap.get_set_cases runs with ⟨_, rfl⟩ | ⟨_, before⟩
    · have fewer := (pass_narrows pass).map Delivery.key
      exact claimed_open running ((List.Sublist.append (List.Sublist.refl _) fewer).subset claims)
    · exact claimed_open before claims
  | sent running idle turn =>
    rcases InsertionMap.get_set_cases runs with ⟨_, rfl⟩ | ⟨_, before⟩
    · rcases List.mem_append.mp claims with awaited | pending
      · obtain rfl : key = Delivery.key _ := List.mem_singleton.mp awaited
        exact turn_open exclusive running turn unraced
      · exact claimed_open running
          (List.mem_append_right _ ((turn_narrows turn).subset pending))
    · exact claimed_open before claims
  | unsent running idle turn attempt =>
    obtain rfl := (Prod.mk.inj attempt).1
    rcases InsertionMap.get_set_cases runs with ⟨_, rfl⟩ | ⟨_, before⟩
    · exact claimed_open running
        (List.mem_append_right _ ((turn_narrows turn).subset claims))
    · exact claimed_open before claims
  | settled ok running awaited attempt =>
    obtain rfl := (Prod.mk.inj attempt).1
    rcases InsertionMap.get_set_cases runs with ⟨_, rfl⟩ | ⟨_, before⟩
    · exact claimed_open running (List.mem_append_right _ claims)
    · exact claimed_open before claims
  | simulated input eventId recordId found attempt =>
    obtain rfl := (Prod.mk.inj attempt).1
    exact claimed_open runs claims
  | _ => exact claimed_open runs claims

theorem Move.known (move : Move signPayload service now call after answer) {key : String}
    (known : service.Known key) : after.Known key := by
  obtain ⟨subscriptionId, eventId, free, member, same⟩ := known
  refine ⟨subscriptionId, eventId, free, ?_, same⟩
  cases move with
  | simulated input eventId recordId found attempt =>
    obtain rfl := (Prod.mk.inj attempt).1
    exact List.mem_cons_of_mem _ member
  | unsimulated input eventId recordId thrown => exact List.mem_cons_of_mem _ member
  | published input eventId free => exact List.mem_cons_of_mem _ member
  | unsent running idle turn attempt =>
    obtain rfl := (Prod.mk.inj attempt).1
    exact member
  | settled ok running awaited attempt =>
    obtain rfl := (Prod.mk.inj attempt).1
    exact member
  | _ => exact member

/- A closed pair stays closed; its record can only be acknowledged or deleted. -/
theorem Move.closed (move : Move signPayload service now call after answer)
    (exclusive : service.Exclusive)
    (fresh : ∀ id ∈ call.uuids, ColonFree id ∧ id ∉ service.eventIds)
    (unraced : Unraced [] service ⟨now, call⟩) {key : String} (closed : ¬ service.OpenPair key) :
    ¬ after.OpenPair key ∧ ∀ record, after.records.get key = some record →
      service.records.get key = some record ∨ record.outcome = .acknowledged := by
  have stored : ∀ record, after.records.get key = some record →
      service.records.get key = some record ∨ record.outcome = .acknowledged := by
    intro record present
    cases move.written exclusive fresh unraced key with
    | kept same unreported => exact Or.inl (same ▸ present)
    | dropped told confirmed held owned gone => simp [gone] at present
    | acknowledged held written unreported =>
      rw [written] at present
      exact Or.inr (Option.some.inj present ▸ rfl)
    | attempted attempt reported =>
      obtain ⟨_, _, _, _, _, _, still_open⟩ := attempt
      exact absurd still_open closed
  refine ⟨?_, stored⟩
  rintro (claimed | unknown | ⟨record, present, retrying⟩)
  · exact closed (move.claimed exclusive fresh unraced claimed)
  · exact closed (Or.inr (Or.inl fun known => unknown (move.known known)))
  · rcases stored record present with before | acknowledged
    · exact closed (Or.inr (Or.inr ⟨record, before, retrying⟩))
    · rw [acknowledged] at retrying
      cases retrying

/- A send stays out until its answer, which is recorded, arrives. -/
theorem Move.inFlight (move : Move signPayload service now call after answer) {key : String}
    (inFlight : service.InFlight key) :
    after.InFlight key ∨ (Attempted service now call after key ∧ Reports answer key) := by
  obtain ⟨other, rival, runs, awaited⟩ := inFlight
  have busy : ∀ {task activity}, service.activities.get task = some activity →
      activity.awaiting = none → other ≠ task := by
    rintro task activity running idle rfl
    obtain rfl := Option.some.inj (runs.symm.trans running)
    simp [Activity.awaited, idle] at awaited
  cases move with
  | published input eventId free =>
    have ne : other ≠ _ := fun same => by rw [same, free] at runs; cases runs
    exact Or.inl ⟨other, rival, (InsertionMap.get_set_ne _ _ ne).trans runs, awaited⟩
  | retried due free =>
    have ne : other ≠ _ := fun same => by rw [same, free] at runs; cases runs
    exact Or.inl ⟨other, rival, (InsertionMap.get_set_ne _ _ ne).trans runs, awaited⟩
  | finished running idle exhausted =>
    exact Or.inl ⟨other, rival, (InsertionMap.get_delete_ne _ (busy running idle)).trans runs,
      awaited⟩
  | aborted running idle at_snapshot reached known missing thrown =>
    exact Or.inl ⟨other, rival, (InsertionMap.get_delete_ne _ (busy running idle)).trans runs,
      awaited⟩
  | passed running idle pass =>
    exact Or.inl ⟨other, rival, (InsertionMap.get_set_ne _ _ (busy running idle)).trans runs,
      awaited⟩
  | sent running idle turn =>
    exact Or.inl ⟨other, rival, (InsertionMap.get_set_ne _ _ (busy running idle)).trans runs,
      awaited⟩
  | unsent running idle turn attempt =>
    obtain rfl := (Prod.mk.inj attempt).1
    exact Or.inl ⟨other, rival, (InsertionMap.get_set_ne _ _ (busy running idle)).trans runs,
      awaited⟩
  | @settled task ok recordId activity delivery left record running waiting attempt =>
    by_cases same : other = task
    · subst other
      obtain rfl := Option.some.inj (runs.symm.trans running)
      obtain rfl : key = delivery.key := by simpa [Activity.awaited, waiting] using awaited
      refine Or.inr ⟨⟨delivery, if ok then .delivered else .retrying, recordId, rfl,
        List.mem_cons_self, ?_, claimed_open running ?_⟩, _, rfl, rfl⟩
      · obtain rfl := (Prod.mk.inj attempt).1
        exact (records_record service delivery _ recordId now delivery.key).trans (if_pos rfl)
      · exact List.mem_append_left _ awaited
    · obtain rfl := (Prod.mk.inj attempt).1
      exact Or.inl ⟨other, rival, (InsertionMap.get_set_ne _ _ same).trans runs, awaited⟩
  | simulated input eventId recordId found attempt =>
    obtain rfl := (Prod.mk.inj attempt).1
    exact Or.inl ⟨other, rival, runs, awaited⟩
  | _ => exact Or.inl ⟨other, rival, runs, awaited⟩

/- An attempt on a stored record finds it waiting for a retry. -/
theorem attempted_retrying (exclusive : service.Exclusive) {key : String}
    (still_open : service.OpenPair key) {record : DeliveryRecordEntity}
    (held : service.records.get key = some record) : record.outcome = .retrying := by
  rcases still_open with claimed | unknown | ⟨live, present, retrying⟩
  · simp only [Unclaimed, not_forall, not_not] at claimed
    obtain ⟨task, activity, running, claims⟩ := claimed
    rcases List.mem_append.mp claims with awaited | pending
    · exact exclusive.awaited_open task activity running key awaited record held
    · rw [exclusive.pending_unrecorded task activity running key pending] at held
      cases held
  · exact absurd (exclusive.recorded_known held) unknown
  · rw [held] at present
    rw [Option.some.inj present, retrying]

end Steps

/-- The pair, the record and the schedule a retry serves when it sends. -/
def servedSchedule : TimedCall × WebhookAnswer → Option (String × String × String × Nat)
  | (_, .sending send) =>
    send.schedule.map fun schedule => (send.subscriptionId, send.eventId, schedule.1, schedule.2)
  | _ => none

def servedSchedules (past : List (TimedCall × WebhookAnswer)) :
    List (String × String × String × Nat) := past.filterMap servedSchedule

theorem record_onSchedule (service : WebhookService) (delivery : Delivery)
    (outcome : DeliveryOutcome) (recordId : String) (now : Nat) :
    SubscriptionService.OnSchedule (service.record delivery outcome recordId now).2 ∧
      (service.record delivery outcome recordId now).2.lastAttemptAt = now := by
  have counts := SubscriptionService.attempted_counts
    (service.records.get delivery.key) delivery.subscription.id delivery.event.id outcome recordId now
  refine ⟨SubscriptionService.scheduled_onSchedule counts.1 counts.2.1, ?_⟩
  exact (SubscriptionService.scheduled_lastAttemptAt _ now).trans counts.2.1

theorem record_first {service : WebhookService} {delivery : Delivery}
    (unrecorded : service.records.get delivery.key = none) (outcome : DeliveryOutcome)
    (recordId : String) (now : Nat) :
    (service.record delivery outcome recordId now).2.id = recordId ∧
      (service.record delivery outcome recordId now).2.attemptCount = 1 := by
  have value : (service.record delivery outcome recordId now).2 =
      SubscriptionService.scheduled (SubscriptionService.attempted (service.records.get delivery.key)
        delivery.subscription.id delivery.event.id outcome recordId now) now := rfl
  rw [value, unrecorded]
  simp [SubscriptionService.attempted]

theorem record_again {service : WebhookService} {delivery : Delivery} {old : DeliveryRecordEntity}
    (held : service.records.get delivery.key = some old) (outcome : DeliveryOutcome)
    (recordId : String) (now : Nat) :
    (service.record delivery outcome recordId now).2.id = old.id ∧
      (service.record delivery outcome recordId now).2.attemptCount = old.attemptCount + 1 := by
  have value : (service.record delivery outcome recordId now).2 =
      SubscriptionService.scheduled (SubscriptionService.attempted (service.records.get delivery.key)
        delivery.subscription.id delivery.event.id outcome recordId now) now := rfl
  rw [value, held]
  simp [SubscriptionService.attempted]

/-- What a run has shown about the records: their ids were given out, their attempts lie
    in the past, and a schedule already served is over or still in flight. -/
structure Scheduled (past : List (TimedCall × WebhookAnswer)) (service : WebhookService) :
    Prop where
  ids_used : ∀ key record, service.records.get key = some record → record.id ∈ usedUuids past
  attempts_past : ∀ key record, service.records.get key = some record →
    ∃ e ∈ past, record.lastAttemptAt = e.1.now
  on_schedule : ∀ key record, service.records.get key = some record →
    SubscriptionService.OnSchedule record
  served_used : ∀ served ∈ servedSchedules past, served.2.2.1 ∈ usedUuids past
  served_over : ∀ served ∈ servedSchedules past, ∀ record,
    service.records.get (recordKey served.1 served.2.1) = some record →
    record.id = served.2.2.1 → ∀ schedule, record.nextRetryAt = some schedule →
      served.2.2.2 < schedule ∨
        (served.2.2.2 = schedule ∧ service.InFlight (recordKey served.1 served.2.1))
  served_once : (servedSchedules past).Nodup

section Once
variable {signPayload : WebhookEvent → String} {service after : WebhookService}
  {timed : TimedCall} {answer : WebhookAnswer} {past : List (TimedCall × WebhookAnswer)}

/- A retry that sends finds its record waiting, unclaimed, under the schedule it serves. -/
theorem Move.serves (move : Move signPayload service timed.now timed.call after answer)
    (exclusive : service.Exclusive) (unraced : Unraced [] service timed)
    {served : String × String × String × Nat}
    (serves : servedSchedule (timed, answer) = some served) :
    (∃ live, service.records.get (recordKey served.1 served.2.1) = some live ∧
      live.id = served.2.2.1 ∧ live.nextRetryAt = some served.2.2.2) ∧
    service.Unclaimed (recordKey served.1 served.2.1) ∧
    after.InFlight (recordKey served.1 served.2.1) ∧ after.records = service.records := by
  obtain ⟨now, call⟩ := timed
  cases move with
  | @sent task recordId activity rest delivery schedule url running idle turn =>
    obtain ⟨loop, awaiting, results⟩ := activity
    cases turn with
    | publish selected => simp [servedSchedule] at serves
    | retry reached known found =>
      rename_i due at_time snapshot remaining event subscription
      obtain rfl := Option.some.inj serves
      obtain ⟨⟨live, held, same_id, _, same_schedule⟩, unclaimed⟩ :=
        retry_turn_alone exclusive running rfl reached known found unraced
      have next : snapshot.nextRetryAt = some at_time := by
        unfold dueSchedule at reached
        split at reached
        · exact (Option.filter_eq_some_iff.mp reached).1
        · cases reached
      refine ⟨⟨live, held, same_id, same_schedule.trans next⟩, unclaimed, ?_, rfl⟩
      exact ⟨task, _, InsertionMap.get_set_self _ _ _, List.mem_singleton.mpr rfl⟩
  | _ => simp [servedSchedule] at serves

theorem used_later {id : String} (used : id ∈ usedUuids past) :
    id ∈ usedUuids ((timed, answer) :: past) := by
  rw [usedUuids, List.flatMap_cons]
  exact List.mem_append_right _ used

theorem used_now {id : String} (offered : id ∈ timed.call.uuids) :
    id ∈ usedUuids ((timed, answer) :: past) := by
  rw [usedUuids, List.flatMap_cons]
  exact List.mem_append_left _ offered

theorem served_cons (served : String × String × String × Nat) :
    served ∈ servedSchedules ((timed, answer) :: past) ↔
      servedSchedule (timed, answer) = some served ∨ served ∈ servedSchedules past := by
  rw [servedSchedules, List.filterMap_cons]
  cases servedSchedule (timed, answer) with
  | none => simp [servedSchedules]
  | some new => simp [servedSchedules, eq_comm]

/- A stored record continues the one before it or is new under a fresh id. -/
theorem Written.record_id {key : String} {record : DeliveryRecordEntity} {now : Nat}
    {call : WebhookCall} (written : Written service now call after answer key)
    (present : after.records.get key = some record) :
    (∃ old, service.records.get key = some old ∧ record.id = old.id) ∨ record.id ∈ call.uuids := by
  cases written with
  | kept same unreported => exact Or.inl ⟨record, same ▸ present, rfl⟩
  | dropped told confirmed held owned gone => simp [gone] at present
  | acknowledged held written unreported =>
    rw [written] at present
    exact Or.inl ⟨_, held, Option.some.inj present ▸ rfl⟩
  | attempted attempt reported =>
    obtain ⟨delivery, outcome, recordId, rfl, offered, written, _⟩ := attempt
    rw [written] at present
    obtain rfl := Option.some.inj present
    cases held : service.records.get delivery.key with
    | none =>
      rw [(record_first held outcome recordId now).1]
      exact Or.inr offered
    | some old => exact Or.inl ⟨old, rfl, (record_again held outcome recordId now).1⟩

/- A schedule served before a further attempt lies before the next one. -/
theorem Scheduled.attempted (scheduled : Scheduled past service) (exclusive : service.Exclusive)
    (clock : ∀ e ∈ past, e.1.now ≤ timed.now) (unused : ∀ id ∈ timed.call.uuids, id ∉ usedUuids past)
    {served : String × String × String × Nat} (member : served ∈ servedSchedules past)
    (attempt : Attempted service timed.now timed.call after (recordKey served.1 served.2.1))
    {record : DeliveryRecordEntity}
    (present : after.records.get (recordKey served.1 served.2.1) = some record)
    (same_id : record.id = served.2.2.1) {schedule : Nat}
    (next : record.nextRetryAt = some schedule) : served.2.2.2 < schedule := by
  obtain ⟨delivery, outcome, recordId, same, offered, written, still_open⟩ := attempt
  rw [written] at present
  obtain rfl := Option.some.inj present
  obtain ⟨onSchedule, last⟩ := record_onSchedule service delivery outcome recordId timed.now
  cases held : service.records.get delivery.key with
  | none =>
    rw [(record_first held outcome recordId timed.now).1] at same_id
    exact absurd (same_id ▸ scheduled.served_used served member) (unused recordId offered)
  | some old =>
    obtain ⟨continued, counted⟩ := record_again held outcome recordId timed.now
    rw [same] at still_open
    have waiting := attempted_retrying exclusive still_open held
    have old_schedule := scheduled.on_schedule _ old held
    rw [SubscriptionService.OnSchedule, if_pos waiting] at old_schedule
    obtain ⟨e, earlier, attempted_at⟩ := scheduled.attempts_past _ old held
    have before := clock e earlier
    have served_by := scheduled.served_over served member old (same ▸ held)
      (continued ▸ same_id) _ old_schedule.2.2
    have reached : served.2.2.2 ≤ old.lastAttemptAt +
        SubscriptionService.retryDelayMs old.attemptCount := by omega
    unfold SubscriptionService.OnSchedule at onSchedule
    split at onSchedule
    · rw [onSchedule.2.2, last, counted] at next
      have grows := SubscriptionService.retryDelay_grows old_schedule.1
      have value := Option.some.inj next
      omega
    · rw [onSchedule] at next
      cases next

theorem Move.scheduled (move : Move signPayload service timed.now timed.call after answer)
    (exclusive : service.Exclusive)
    (fresh : ∀ id ∈ timed.call.uuids, ColonFree id ∧ id ∉ service.eventIds)
    (unused : ∀ id ∈ timed.call.uuids, id ∉ usedUuids past)
    (clock : ∀ e ∈ past, e.1.now ≤ timed.now) (unraced : Unraced [] service timed)
    (scheduled : Scheduled past service) : Scheduled ((timed, answer) :: past) after := by
  have written := move.written exclusive fresh unraced
  refine ⟨?_, ?_, ?_, ?_, ?_, ?_⟩
  · intro key record present
    rcases (written key).record_id present with ⟨old, held, same⟩ | offered
    · exact used_later (same ▸ scheduled.ids_used key old held)
    · exact used_now offered
  · intro key record present
    cases written key with
    | kept same unreported =>
      obtain ⟨e, member, time⟩ := scheduled.attempts_past key record (same ▸ present)
      exact ⟨e, List.mem_cons_of_mem _ member, time⟩
    | dropped told confirmed held owned gone => simp [gone] at present
    | acknowledged held stored unreported =>
      rw [stored] at present
      obtain ⟨e, member, time⟩ := scheduled.attempts_past key _ held
      exact ⟨e, List.mem_cons_of_mem _ member, Option.some.inj present ▸ time⟩
    | attempted attempt reported =>
      obtain ⟨delivery, outcome, recordId, _, _, stored, _⟩ := attempt
      rw [stored] at present
      refine ⟨_, List.mem_cons_self, ?_⟩
      rw [← Option.some.inj present, (record_onSchedule service delivery outcome recordId _).2]
  · intro key record present
    cases written key with
    | kept same unreported => exact scheduled.on_schedule key record (same ▸ present)
    | dropped told confirmed held owned gone => simp [gone] at present
    | acknowledged held stored unreported =>
      rw [stored] at present
      exact Option.some.inj present ▸ SubscriptionService.acknowledged_onSchedule _ _
    | attempted attempt reported =>
      obtain ⟨delivery, outcome, recordId, _, _, stored, _⟩ := attempt
      rw [stored] at present
      exact Option.some.inj present ▸ (record_onSchedule service delivery outcome recordId _).1
  · intro served member
    rcases (served_cons served).mp member with serves | before
    · obtain ⟨⟨live, held, same, _⟩, _⟩ := move.serves exclusive unraced serves
      exact used_later (same ▸ scheduled.ids_used _ live held)
    · exact used_later (scheduled.served_used served before)
  · intro served member record present same_id schedule next
    rcases (served_cons served).mp member with serves | before
    · obtain ⟨⟨live, held, _, waits⟩, _, inFlight, same_records⟩ :=
        move.serves exclusive unraced serves
      rw [same_records, held] at present
      rw [← Option.some.inj present, waits] at next
      exact Or.inr ⟨Option.some.inj next, inFlight⟩
    · cases written (recordKey served.1 served.2.1) with
      | kept same unreported =>
        rcases scheduled.served_over served before record (same ▸ present) same_id schedule next with
          passed | ⟨equal, inFlight⟩
        · exact Or.inl passed
        · rcases move.inFlight inFlight with still | ⟨attempt, _⟩
          · exact Or.inr ⟨equal, still⟩
          · exact Or.inl (scheduled.attempted exclusive clock unused before attempt present
              same_id next)
      | dropped told confirmed held owned gone => simp [gone] at present
      | acknowledged held stored unreported =>
        rw [stored] at present
        rw [← Option.some.inj present] at next
        cases next
      | attempted attempt reported =>
        exact Or.inl (scheduled.attempted exclusive clock unused before attempt present same_id next)
  · rw [servedSchedules, List.filterMap_cons]
    cases serves : servedSchedule (timed, answer) with
    | none => exact scheduled.served_once
    | some served =>
      refine List.nodup_cons.mpr ⟨?_, scheduled.served_once⟩
      intro before
      obtain ⟨⟨live, held, same_id, waits⟩, unclaimed, _, _⟩ := move.serves exclusive unraced serves
      rcases scheduled.served_over served before live held same_id _ waits with
        passed | ⟨_, task, activity, running, awaited⟩
      · exact absurd passed (Nat.lt_irrefl _)
      · exact unclaimed task activity running (List.mem_append_left _ awaited)

end Once
/-- Ordinary hosts, and no two activities racing for a record. -/
def RaceFree : Machine.Permit WebhookService TimedCall WebhookAnswer := fun past service timed =>
  Ordinary past service timed ∧ Unraced past service timed

section Runs
variable {signPayload : WebhookEvent → String} {past : List (TimedCall × WebhookAnswer)}
  {service : WebhookService}

theorem raceFree_exclusive (run : (machine signPayload).Run RaceFree past service) :
    service.Exclusive ∧ ∀ id ∈ service.eventIds, id ∈ usedUuids past :=
  exclusive_run (fun permitted => permitted.1) (fun _ permitted => permitted.2) run

theorem scheduled_run (run : (machine signPayload).Run RaceFree past service) :
    Scheduled past service := by
  refine run.invariant Scheduled ?_ ?_
  · constructor <;>
      simp [machine, initial, SubscriptionService.initial, records, servedSchedules]
  · intro past service timed after answer before scheduled permitted moved
    obtain ⟨exclusive, used⟩ := raceFree_exclusive before
    exact (step_moves moved).scheduled exclusive (fresh_names permitted.1 used)
      (fun id offered => (permitted.1.2.2 id offered).2) permitted.1.1 permitted.2 scheduled

end Runs

instance (past : List (TimedCall × WebhookAnswer)) (service : WebhookService) (timed : TimedCall) :
    Decidable (RaceFree past service timed) :=
  inferInstanceAs (Decidable (Ordinary past service timed ∧ Unraced past service timed))

def settledOutcomes : List DeliveryOutcome := [.delivered, .acknowledged, .failed]

/-- A delivery that is settled at one moment never retries at a later one, and stays
    acknowledged once it is. -/
def SettledStays (signPayload : WebhookEvent → String)
    (permit : Machine.Permit WebhookService TimedCall WebhookAnswer) : Prop :=
  ∀ earlier later : Moment WebhookService TimedCall WebhookAnswer,
    (machine signPayload).Run permit earlier.past earlier.state →
    (machine signPayload).Reaches permit earlier later →
    ∀ key record final, earlier.state.records.get key = some record →
      record.outcome ∈ settledOutcomes → later.state.records.get key = some final →
      final.outcome ≠ .retrying ∧
        (record.outcome = .acknowledged → final.outcome = .acknowledged)

/-- No schedule of a record is served by two sends. -/
def ServedOnce (signPayload : WebhookEvent → String)
    (permit : Machine.Permit WebhookService TimedCall WebhookAnswer) : Prop :=
  ∀ past service, (machine signPayload).Run permit past service → (servedSchedules past).Nodup

theorem settled_closed {service : WebhookService} (exclusive : service.Exclusive) {key : String}
    {record : DeliveryRecordEntity} (held : service.records.get key = some record)
    (settled : record.outcome ∈ settledOutcomes) : ¬ service.OpenPair key := by
  intro still_open
  have retrying := attempted_retrying exclusive still_open held
  simp [settledOutcomes, retrying] at settled

theorem settled_stays (signPayload : WebhookEvent → String) : SettledStays signPayload RaceFree := by
  intro earlier later run reaches key record final held settled present
  have closed := settled_closed (raceFree_exclusive run).1 held settled
  have kept := reaches.preserves (fun past service =>
    (machine signPayload).Run RaceFree past service ∧ ¬ service.OpenPair key ∧
      ∀ final, service.records.get key = some final →
        final.outcome ≠ .retrying ∧
          (record.outcome = .acknowledged → final.outcome = .acknowledged)) ?_ ?_
  · exact kept.2.2 final present
  · refine ⟨run, closed, ?_⟩
    intro final present
    obtain rfl := Option.some.inj (held.symm.trans present)
    refine ⟨?_, id⟩
    rintro retrying
    simp [settledOutcomes, retrying] at settled
  · rintro past service timed after answer ⟨before, closed, stable⟩ permitted moved
    obtain ⟨exclusive, used⟩ := raceFree_exclusive before
    have next := (step_moves moved).closed exclusive (fresh_names permitted.1 used) permitted.2 closed
    refine ⟨before.next permitted moved, next.1, ?_⟩
    intro final present
    rcases next.2 final present with same | acknowledged
    · exact stable final same
    · simp [acknowledged]

/-- Without races on a record, settled deliveries stay settled and no scheduled retry
is sent twice. -/
theorem race_free_deliveries_settle (signPayload : WebhookEvent → String) :
    SettledStays signPayload RaceFree ∧ ServedOnce signPayload RaceFree :=
  ⟨settled_stays signPayload, fun _ _ run => (scheduled_run run).served_once⟩

def outcomeAt (key : String) (moment : Moment WebhookService TimedCall WebhookAnswer) :
    Option DeliveryOutcome := (moment.state.records.get key).map DeliveryRecordEntity.outcome

/-- One subscription, one event, a failed first send. -/
def failedFirst : List TimedCall :=
  [⟨0, .createSubscription "alice" ⟨"alerts", ⟨["asset.added"], none, []⟩, none, none,
      some "https://hooks.example/a"⟩ "s1"⟩,
   ⟨0, .publishAndDeliver 1 ⟨"asset.added", none, none, none⟩ "e1"⟩,
   ⟨0, .proceed 1 "u1"⟩, ⟨10, .answered 1 false "r1"⟩]

/- A retry that succeeds, a second run with nothing to do, an acknowledgement. -/
theorem race_free_deliveries_settle_after_retry :
    let M := machine fun _ => "signature"
    ∃ earlier later, M.Run RaceFree earlier.past earlier.state ∧ M.Reaches RaceFree earlier later ∧
      outcomeAt "s1:e1" earlier = some .delivered ∧ outcomeAt "s1:e1" later ≠ some .retrying ∧
      (servedSchedules later.past).Nodup := by
  intro M
  have outcomes : ((M.play RaceFree ⟨[], M.init⟩ (failedFirst ++ [⟨2000, .retryDueDeliveries 2 2000⟩,
      ⟨2000, .proceed 2 "u2"⟩, ⟨2010, .answered 2 true "u3"⟩])).bind fun earlier =>
      (M.play RaceFree earlier [⟨2020, .retryDueDeliveries 3 2020⟩, ⟨2020, .proceed 3 "u4"⟩,
        ⟨2030, .acknowledgeEvents "alice" "s1" ["e1"]⟩]).map fun later =>
        outcomeAt "s1:e1" earlier) = some (some .delivered) := by decide +kernel
  obtain ⟨earlier, played, rest⟩ := Option.bind_eq_some_iff.mp outcomes
  obtain ⟨later, continued, delivered⟩ := Option.map_eq_some_iff.mp rest
  have run : M.Run RaceFree earlier.past earlier.state := Machine.play_run played
  have reaches : M.Reaches RaceFree earlier later := Machine.play_reaches continued
  obtain ⟨stays, once⟩ := race_free_deliveries_settle fun _ => "signature"
  obtain ⟨record, held, record_outcome⟩ := Option.map_eq_some_iff.mp delivered
  refine ⟨earlier, later, run, reaches, delivered, ?_, once later.past later.state ?_⟩
  · intro retrying
    obtain ⟨final, present, final_outcome⟩ := Option.map_eq_some_iff.mp retrying
    exact (stays earlier later run reaches _ record final held
      (by simp [record_outcome, settledOutcomes]) present).1 final_outcome
  · exact Relation.ReflTransGen.trans run reaches

/-- Two retry runs take the same due record up before either answer arrives; the first
    send succeeds, the second fails and reopens the delivered record. -/
def overlappingRetries : List TimedCall :=
  failedFirst ++ [⟨2000, .retryDueDeliveries 2 2000⟩, ⟨2000, .retryDueDeliveries 3 2000⟩,
    ⟨2000, .proceed 2 "u2"⟩, ⟨2000, .proceed 3 "u3"⟩, ⟨2010, .answered 2 true "u4"⟩,
    ⟨2020, .answered 3 false "u5"⟩]

theorem overlapping_retries_unsettle :
    ¬ SettledStays (fun _ => "signature") Ordinary ∧ ¬ ServedOnce (fun _ => "signature") Ordinary := by
  let M := machine fun _ => "signature"
  constructor
  · intro stays
    have outcomes : ((M.play Ordinary ⟨[], M.init⟩ (overlappingRetries.take 9)).bind fun earlier =>
        (M.play Ordinary earlier (overlappingRetries.drop 9)).map fun later =>
          (outcomeAt "s1:e1" earlier, outcomeAt "s1:e1" later)) =
        some (some .delivered, some .retrying) := by decide +kernel
    obtain ⟨earlier, played, rest⟩ := Option.bind_eq_some_iff.mp outcomes
    obtain ⟨later, continued, seen⟩ := Option.map_eq_some_iff.mp rest
    obtain ⟨delivered, retrying⟩ := Prod.mk.inj seen
    obtain ⟨record, held, record_outcome⟩ := Option.map_eq_some_iff.mp delivered
    obtain ⟨final, present, final_outcome⟩ := Option.map_eq_some_iff.mp retrying
    exact (stays earlier later (Machine.play_run played) (Machine.play_reaches continued) _ record
      final held (by simp [record_outcome, settledOutcomes]) present).1 final_outcome
  · intro once
    have repeated : ((M.play Ordinary ⟨[], M.init⟩ overlappingRetries).map fun moment =>
        decide (servedSchedules moment.past).Nodup) = some false := by decide +kernel
    obtain ⟨moment, played, twice⟩ := Option.map_eq_some_iff.mp repeated
    exact of_decide_eq_false twice (once moment.past moment.state (Machine.play_run played))

end AstraPort.Webhook.WebhookService
