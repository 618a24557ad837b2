import Mathlib.Data.Finset.Card
import AstraPort.Webhook.SubscriptionCalls

/- What acknowledging a batch of events does: which records it settles, what it counts, what it
   leaves alone, and that a second acknowledgement finds nothing more to do. -/
namespace AstraPort.Webhook.SubscriptionService

/-- Subscription ids are uuids, without a colon: those handed out, and those of the attempts. -/
def UuidNames : Machine.Permit SubscriptionService TimedCall Answer := fun _ _ timed =>
  match timed.call with
  | .createSubscription _ _ id => ColonFree id
  | .recordDeliveryAttempt subscriptionId _ _ _ => ColonFree subscriptionId
  | _ => True

instance (past : List (TimedCall × Answer)) (service : SubscriptionService) (timed : TimedCall) :
    Decidable (UuidNames past service timed) :=
  match timed with
  | ⟨_, .createSubscription _ _ id⟩ => inferInstanceAs (Decidable (ColonFree id))
  | ⟨_, .recordDeliveryAttempt subscriptionId _ _ _⟩ =>
    inferInstanceAs (Decidable (ColonFree subscriptionId))
  | ⟨_, .listSubscriptions _ _⟩ => isTrue trivial
  | ⟨_, .getSubscription _ _⟩ => isTrue trivial
  | ⟨_, .updateSubscription _ _ _⟩ => isTrue trivial
  | ⟨_, .deleteSubscription _ _⟩ => isTrue trivial
  | ⟨_, .getDeliveryStatus _ _⟩ => isTrue trivial
  | ⟨_, .acknowledgeEvents _ _ _⟩ => isTrue trivial

/-- Subscriptions stand under their ids, records under the keys of their pairs, and a record that
    is not waiting for a retry is not due either. -/
structure WellStored (service : SubscriptionService) : Prop where
  named : ∀ id entity, service.subscriptions.get id = some entity → entity.id = id ∧ ColonFree id
  keyed : ∀ key record, service.deliveryRecords.get key = some record →
    key = recordKey record.subscriptionId record.eventId ∧ ColonFree record.subscriptionId
  settled : ∀ key record, service.deliveryRecords.get key = some record →
    record.outcome = .acknowledged → record.nextRetryAt = none

section Runs
variable {collation : Collation} {past : List (TimedCall × Answer)}
  {service after : SubscriptionService} {timed : TimedCall}

theorem scheduled_settled (record : DeliveryRecordEntity) (now : Nat)
    (acknowledged : (scheduled record now).outcome = .acknowledged) :
    (scheduled record now).nextRetryAt = none := by
  unfold scheduled at acknowledged ⊢
  by_cases retrying : record.outcome = .retrying
  · by_cases more : record.attemptCount ≤ maxRetryAttempts
    · simp [retrying, more] at acknowledged
    · simp [retrying, more]
  · simp [retrying]

theorem Move.wellStored (move : Move service timed.now timed.call after)
    (uuids : UuidNames past service timed) (stored : WellStored service) : WellStored after := by
  obtain ⟨now, call⟩ := timed
  cases move with
  | nothing asked => exact stored
  | created creator dto id =>
    exact ⟨InsertionMap.get_set_all ⟨rfl, uuids⟩ stored.named, stored.keyed, stored.settled⟩
  | updated dto found =>
    refine ⟨InsertionMap.get_set_all ?_ stored.named, stored.keyed, stored.settled⟩
    obtain ⟨same, free⟩ := stored.named _ _ (findOrThrow_ok found)
    rw [same]
    exact ⟨same, free⟩
  | removed found =>
    rename_i userId subscriptionId entity
    have kept : ∀ key record, (service.removeSubscription subscriptionId).deliveryRecords.get key =
        some record → service.deliveryRecords.get key = some record := by
      intro key record held
      rw [removeSubscription_get, Option.filter_eq_some_iff] at held
      exact held.1
    exact ⟨fun id entity held => stored.named id entity (InsertionMap.get_of_delete held),
      fun key record held => stored.keyed key record (kept key record held),
      fun key record held => stored.settled key record (kept key record held)⟩
  | acknowledged eventIds found =>
    refine ⟨stored.named, ?_, ?_⟩
    · intro key record held
      rw [acknowledgeEach_get, Option.map_eq_some_iff] at held
      obtain ⟨old, before, rfl⟩ := held
      split
      · exact stored.keyed key old before
      · exact stored.keyed key old before
    · intro key record held settled
      rw [acknowledgeEach_get, Option.map_eq_some_iff] at held
      obtain ⟨old, before, rfl⟩ := held
      split at settled
      · rename_i touched
        rw [if_pos touched]
        rfl
      · rename_i untouched
        rw [if_neg untouched]
        exact stored.settled key old before settled
  | attempted subscriptionId eventId outcome recordId =>
    refine ⟨stored.named, InsertionMap.get_set_all ?_ stored.keyed,
      InsertionMap.get_set_all (scheduled_settled _ now) stored.settled⟩
    rw [scheduled_subscriptionId, scheduled_eventId]
    cases before : service.deliveryRecords.get (recordKey subscriptionId eventId) with
    | none => exact ⟨rfl, uuids⟩
    | some old => exact stored.keyed _ old before

theorem wellStored_of_run (run : (machine collation).Run UuidNames past service) :
    WellStored service := by
  apply run.invariant (fun _ service => WellStored service)
  · constructor
    all_goals
      intro _ _ held
      cases held
  · intro past service timed after answer _ stored uuids moved
    exact (step_moves moved).wellStored uuids stored

end Runs

section Batch
variable {subscriptionId : String} {now : Nat}
  {records : InsertionMap String DeliveryRecordEntity} {eventIds : List String}

theorem recordKey_event {eventId other : String} :
    recordKey subscriptionId eventId = recordKey subscriptionId other ↔ eventId = other := by
  simp [recordKey, ← String.toList_inj]

/-- The pair has a record that is not acknowledged yet. -/
def unacknowledged (records : InsertionMap String DeliveryRecordEntity)
    (subscriptionId eventId : String) : Bool :=
  (records.get (recordKey subscriptionId eventId)).any fun record =>
    decide (record.outcome ≠ .acknowledged)

/- Settling one event takes it, and no other, off the unacknowledged ones. -/
theorem unacknowledged_set {record : DeliveryRecordEntity} (eventId other : String) :
    unacknowledged (records.set (recordKey subscriptionId eventId) (acknowledged record now))
      subscriptionId other = true ↔
        other ≠ eventId ∧ unacknowledged records subscriptionId other = true := by
  by_cases same : other = eventId
  · subst same
    simp [unacknowledged, acknowledged]
  · have ne : recordKey subscriptionId other ≠ recordKey subscriptionId eventId := by
      rw [Ne, recordKey_event]
      exact same
    rw [unacknowledged, InsertionMap.get_set_ne _ _ ne]
    simp [same, unacknowledged]

/- The count is that of the distinct events that had something to settle. -/
theorem acknowledgeEach_count (records : InsertionMap String DeliveryRecordEntity)
    (eventIds : List String) : (acknowledgeEach subscriptionId now records eventIds).2.1 =
      (eventIds.toFinset.filter fun eventId =>
        unacknowledged records subscriptionId eventId = true).card := by
  induction eventIds generalizing records with
  | nil => rfl
  | cons eventId rest ih =>
    rw [acknowledgeEach, List.toFinset_cons, Finset.filter_insert]
    cases held : records.get (recordKey subscriptionId eventId) with
    | none =>
      have nothing : ¬ unacknowledged records subscriptionId eventId = true := by
        simp [unacknowledged, held]
      rw [if_neg nothing]
      exact ih records
    | some record =>
      by_cases settled : record.outcome = .acknowledged
      · have nothing : ¬ unacknowledged records subscriptionId eventId = true := by
          simp [unacknowledged, held, settled]
        simp only [if_pos settled]
        rw [if_neg nothing]
        exact ih records
      · have something : unacknowledged records subscriptionId eventId = true := by
          simp [unacknowledged, held, settled]
        simp only [if_neg settled]
        rw [if_pos something, ih]
        -- The rest of the batch counts the same events but this one.
        have others : (rest.toFinset.filter fun other => unacknowledged
            (records.set (recordKey subscriptionId eventId) (acknowledged record now))
            subscriptionId other = true) =
            (rest.toFinset.filter fun other =>
              unacknowledged records subscriptionId other = true).erase eventId := by
          ext other
          simp only [Finset.mem_filter, Finset.mem_erase, unacknowledged_set]
          exact and_left_comm
        rw [others, ← Finset.card_insert_of_notMem (Finset.notMem_erase eventId _)]
        congr 1
        ext other
        simp only [Finset.mem_insert, Finset.mem_erase]
        tauto

theorem acknowledgeEach_length (records : InsertionMap String DeliveryRecordEntity)
    (eventIds : List String) : (acknowledgeEach subscriptionId now records eventIds).2.1 +
      (acknowledgeEach subscriptionId now records eventIds).2.2.length = eventIds.length := by
  induction eventIds generalizing records with
  | nil => rfl
  | cons eventId rest ih =>
    rw [acknowledgeEach]
    cases held : records.get (recordKey subscriptionId eventId) with
    | none =>
      simp only [List.length_cons]
      rw [← ih records, Nat.add_assoc]
    | some record =>
      by_cases settled : record.outcome = .acknowledged
      · simp only [if_pos settled, List.length_cons]
        rw [← ih records, Nat.add_assoc]
      · simp only [if_neg settled, List.length_cons]
        rw [Nat.add_right_comm, ih]

/- A batch with nothing to settle is skipped as a whole. -/
theorem acknowledgeEach_nothing (none_open : ∀ eventId ∈ eventIds,
    unacknowledged records subscriptionId eventId = false) :
    acknowledgeEach subscriptionId now records eventIds = (records, 0, eventIds) := by
  induction eventIds with
  | nil => rfl
  | cons eventId rest ih =>
    have later := ih fun other member => none_open other (List.mem_cons_of_mem eventId member)
    have here := none_open eventId List.mem_cons_self
    rw [acknowledgeEach, later]
    cases held : records.get (recordKey subscriptionId eventId) with
    | none => rfl
    | some record =>
      have settled : record.outcome = .acknowledged := by
        simpa [unacknowledged, held] using here
      simp only [if_pos settled]

theorem acknowledgeEach_leaves_none (eventId : String) (named : eventId ∈ eventIds) :
    unacknowledged (acknowledgeEach subscriptionId now records eventIds).1 subscriptionId eventId =
      false := by
  rw [unacknowledged, acknowledgeEach_get]
  cases held : records.get (recordKey subscriptionId eventId) with
  | none => rfl
  | some record =>
    by_cases settled : record.outcome = .acknowledged
    · simp [settled]
    · have touched : (∃ other ∈ eventIds,
          recordKey subscriptionId eventId = recordKey subscriptionId other) ∧
          record.outcome ≠ .acknowledged := ⟨⟨eventId, named, rfl⟩, settled⟩
      simp only [Option.map_some, if_pos touched]
      rfl

/- A second acknowledgement of the same batch does nothing. -/
theorem acknowledgeEach_again (later : Nat) :
    acknowledgeEach subscriptionId later
      (acknowledgeEach subscriptionId now records eventIds).1 eventIds =
        ((acknowledgeEach subscriptionId now records eventIds).1, 0, eventIds) := by
  apply acknowledgeEach_nothing
  intro eventId named
  exact acknowledgeEach_leaves_none eventId named

theorem acknowledgeEvents_ok {service : SubscriptionService} {userId : String}
    {entity : SubscriptionEntity} (owned : service.findOrThrow userId subscriptionId = .ok entity) :
    service.acknowledgeEvents userId subscriptionId eventIds now =
      ({ service with deliveryRecords :=
          (acknowledgeEach subscriptionId now service.deliveryRecords eventIds).1 },
        .ok (acknowledgeEach subscriptionId now service.deliveryRecords eventIds).2) := by
  rw [acknowledgeEvents, owned]

end Batch

/-- What a batch of events acknowledged for a subscription answers and leaves behind. -/
structure BatchExact (service : SubscriptionService) (userId subscriptionId : String)
    (eventIds : List String) (after : SubscriptionService) (acknowledgedCount : Nat)
    (skippedIds : List String) : Prop where
  counted : acknowledgedCount = (eventIds.toFinset.filter fun eventId =>
    unacknowledged service.deliveryRecords subscriptionId eventId = true).card
  divided : acknowledgedCount + skippedIds.length = eventIds.length
  acknowledged : ∀ eventId ∈ eventIds,
    service.deliveryRecords.get (recordKey subscriptionId eventId) ≠ none →
    ∃ record, after.deliveryRecords.get (recordKey subscriptionId eventId) = some record ∧
      record.outcome = .acknowledged ∧ record.nextRetryAt = none
  others : ∀ key record, service.deliveryRecords.get key = some record →
    ¬ (record.subscriptionId = subscriptionId ∧ record.eventId ∈ eventIds) →
    after.deliveryRecords.get key = some record
  none_added : ∀ key, service.deliveryRecords.get key = none → after.deliveryRecords.get key = none
  subscriptions : after.subscriptions = service.subscriptions
  repeated : ∀ later, after.acknowledgeEvents userId subscriptionId eventIds later =
    (after, .ok (0, eventIds))

/-- In every reachable state, acknowledging any list of events of a subscription by its owner
settles exactly the listed records that are open, counts them, and can be repeated for nothing. -/
theorem acknowledged_batch_exact (collation : Collation) {past : List (TimedCall × Answer)}
    {service : SubscriptionService} (run : (machine collation).Run UuidNames past service)
    {userId subscriptionId : String} {entity : SubscriptionEntity}
    (owned : service.findOrThrow userId subscriptionId = .ok entity)
    (eventIds : List String) (now : Nat) :
    ∃ after acknowledgedCount skippedIds,
      service.acknowledgeEvents userId subscriptionId eventIds now =
        (after, .ok (acknowledgedCount, skippedIds)) ∧
      BatchExact service userId subscriptionId eventIds after acknowledgedCount skippedIds := by
  have stored := wellStored_of_run run
  have free : ColonFree subscriptionId := (stored.named _ _ (findOrThrow_ok owned)).2
  refine ⟨_, _, _, acknowledgeEvents_ok owned, ?_⟩
  refine ⟨acknowledgeEach_count _ _, acknowledgeEach_length _ _, ?_, ?_, ?_, rfl, ?_⟩
  · intro eventId named recorded
    obtain ⟨record, held⟩ := Option.ne_none_iff_exists'.mp recorded
    simp only [acknowledgeEach_get, held, Option.map_some]
    by_cases settled : record.outcome = .acknowledged
    · exact ⟨record, by simp [settled], settled, stored.settled _ _ held settled⟩
    · exact ⟨acknowledged record now, by simp [settled, recordKey_event, named], rfl, rfl⟩
  · intro key record held elsewhere
    obtain ⟨keyed, named⟩ := stored.keyed key record held
    simp only [acknowledgeEach_get, held, Option.map_some]
    rw [if_neg]
    intro touched
    obtain ⟨⟨eventId, listed, same⟩, _⟩ := touched
    obtain ⟨sub, event⟩ := recordKey_inj named free (keyed.symm.trans same)
    exact elsewhere ⟨sub, event ▸ listed⟩
  · intro key unrecorded
    simp only [acknowledgeEach_get, unrecorded, Option.map_none]
  · intro later
    have still_owned : findOrThrow { service with deliveryRecords :=
        (acknowledgeEach subscriptionId now service.deliveryRecords eventIds).1 } userId
        subscriptionId = .ok entity := owned
    rw [acknowledgeEvents_ok still_owned, acknowledgeEach_again later]

/-- A subscription with one delivered event. -/
def oneDelivery : List TimedCall :=
  [⟨0, .createSubscription "alice" ⟨"alerts", ⟨["asset.added"], none, []⟩, none, none, none⟩ "s1"⟩,
   ⟨5, .recordDeliveryAttempt "s1" "e1" .retrying "r1"⟩]

/- The second of three names has no record, the third repeats the first. -/
theorem acknowledged_batch_with_repeat : ∃ past service after,
    (machine ⟨compare, inferInstance⟩).Run UuidNames past service ∧
      BatchExact service "alice" "s1" ["e1", "ghost", "e1"] after 1 ["ghost", "e1"] := by
  let collation : Collation := ⟨compare, inferInstance⟩
  have replay : ((machine collation).play UuidNames ⟨[], (machine collation).init⟩
      oneDelivery).map (fun moment => (moment.state.findOrThrow "alice" "s1",
        (moment.state.acknowledgeEvents "alice" "s1" ["e1", "ghost", "e1"] 9).2)) =
      some (.ok ⟨"s1", "alice", "alerts", ⟨["asset.added"], none, []⟩, .immediate, 0, none, true,
        0, 0⟩, .ok (1, ["ghost", "e1"])) := by decide +kernel
  obtain ⟨moment, played, both⟩ := Option.map_eq_some_iff.mp replay
  obtain ⟨owned, answered⟩ := Prod.mk.inj both
  have run := Machine.play_run played
  obtain ⟨after, count, skipped, called, exact_batch⟩ :=
    acknowledged_batch_exact collation run owned ["e1", "ghost", "e1"] 9
  rw [called] at answered
  obtain ⟨rfl, rfl⟩ := Prod.mk.inj (Except.ok.inj answered)
  exact ⟨_, _, after, run, exact_batch⟩

end AstraPort.Webhook.SubscriptionService
