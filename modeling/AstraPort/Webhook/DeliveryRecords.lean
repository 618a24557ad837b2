import AstraPort.Webhook.SubscriptionCalls

/- The life of a delivery record: opened by the first attempt on its pair, counted up by
   every later one, closed by the deletion of its subscription. -/
namespace AstraPort.Webhook.SubscriptionService

/-- A clock that never runs backwards, and attempts for subscription ids without a colon. -/
def ColonFreeAttempts : Machine.Permit SubscriptionService TimedCall Answer :=
  fun past service timed => Machine.ClockAdvances TimedCall.now past service timed ∧
    match timed.call with
    | .recordDeliveryAttempt subscriptionId _ _ _ => ColonFree subscriptionId
    | _ => True

instance (past : List (TimedCall × Answer)) (service : SubscriptionService) (timed : TimedCall) :
    Decidable (ColonFreeAttempts past service timed) :=
  match timed with
  | ⟨now, .recordDeliveryAttempt subscriptionId _ _ _⟩ =>
    inferInstanceAs (Decidable ((∀ e ∈ past, e.1.now ≤ now) ∧ ColonFree subscriptionId))
  | ⟨now, .createSubscription _ _ _⟩ =>
    inferInstanceAs (Decidable ((∀ e ∈ past, e.1.now ≤ now) ∧ True))
  | ⟨now, .listSubscriptions _ _⟩ =>
    inferInstanceAs (Decidable ((∀ e ∈ past, e.1.now ≤ now) ∧ True))
  | ⟨now, .getSubscription _ _⟩ =>
    inferInstanceAs (Decidable ((∀ e ∈ past, e.1.now ≤ now) ∧ True))
  | ⟨now, .updateSubscription _ _ _⟩ =>
    inferInstanceAs (Decidable ((∀ e ∈ past, e.1.now ≤ now) ∧ True))
  | ⟨now, .deleteSubscription _ _⟩ =>
    inferInstanceAs (Decidable ((∀ e ∈ past, e.1.now ≤ now) ∧ True))
  | ⟨now, .getDeliveryStatus _ _⟩ =>
    inferInstanceAs (Decidable ((∀ e ∈ past, e.1.now ≤ now) ∧ True))
  | ⟨now, .acknowledgeEvents _ _ _⟩ =>
    inferInstanceAs (Decidable ((∀ e ∈ past, e.1.now ≤ now) ∧ True))

/-- Recorded attempts of one (subscription, event) pair. -/
def attempts (subscriptionId eventId : String) (e : TimedCall × Answer) : Bool :=
  match e.1.call with
  | .recordDeliveryAttempt subscription event _ _ => subscription = subscriptionId && event = eventId
  | _ => false

/-- The exchange that created the record under a key: the key was free before it, and has
    been taken ever since. -/
structure Opened (collation : Collation) (key : String)
    (past later : List (TimedCall × Answer)) (opening : TimedCall × Answer)
    (earlier : List (TimedCall × Answer)) : Prop where
  split : past = later ++ opening :: earlier
  absent : ∀ before, (machine collation).Run ColonFreeAttempts earlier before →
    before.deliveryRecords.get key = none
  present : ∀ between rest service, later = between ++ rest →
    (machine collation).Run ColonFreeAttempts (rest ++ opening :: earlier) service →
    (service.deliveryRecords.get key).isSome = true

/-- What every stored record satisfies, and the history that led to it. -/
structure WellKept (collation : Collation) (past : List (TimedCall × Answer)) (key : String)
    (record : DeliveryRecordEntity) : Prop where
  keyed : key = recordKey record.subscriptionId record.eventId
  colon_free : ColonFree record.subscriptionId
  on_schedule : OnSchedule record
  ordered : record.firstAttemptAt ≤ record.lastAttemptAt
  begun : ∃ e ∈ past, e.1.now = record.firstAttemptAt
  counted : ∃ later opening earlier, Opened collation key past later opening earlier ∧
    attempts record.subscriptionId record.eventId opening = true ∧
    record.attemptCount = 1 + later.countP (attempts record.subscriptionId record.eventId)

section Steps
variable {collation : Collation} {past later earlier : List (TimedCall × Answer)}
  {service after : SubscriptionService} {timed : TimedCall} {answer : Answer} {key : String}
  {opening : TimedCall × Answer} {record : DeliveryRecordEntity}

theorem Opened.next (opened : Opened collation key past later opening earlier)
    (run : (machine collation).Run ColonFreeAttempts past service)
    (ok : ColonFreeAttempts past service timed)
    (moved : (machine collation).step service timed = some (after, answer))
    (still : (after.deliveryRecords.get key).isSome = true) :
    Opened collation key ((timed, answer) :: past) ((timed, answer) :: later) opening earlier := by
  refine ⟨by rw [opened.split, List.cons_append], opened.absent, ?_⟩
  intro between rest reached split stretch
  cases between with
  | nil =>
    obtain rfl : (timed, answer) :: later = rest := split
    rw [List.cons_append, ← opened.split] at stretch
    rw [stretch.state_unique (run.next ok moved)]
    exact still
  | cons e between => exact opened.present between rest reached (List.cons.inj split).2 stretch

theorem opened_now (run : (machine collation).Run ColonFreeAttempts past service)
    (ok : ColonFreeAttempts past service timed)
    (moved : (machine collation).step service timed = some (after, answer))
    (free : service.deliveryRecords.get key = none)
    (taken : (after.deliveryRecords.get key).isSome = true) :
    Opened collation key ((timed, answer) :: past) [] (timed, answer) past := by
  refine ⟨rfl, fun before reached => by rw [reached.state_unique run, free], ?_⟩
  intro between rest reached split stretch
  obtain ⟨rfl, rfl⟩ := List.append_eq_nil_iff.mp split.symm
  rw [stretch.state_unique (run.next ok moved)]
  exact taken

/- A record that an exchange other than an attempt on its pair leaves or settles. -/
theorem WellKept.next {record' : DeliveryRecordEntity}
    (kept : WellKept collation past key record)
    (run : (machine collation).Run ColonFreeAttempts past service)
    (ok : ColonFreeAttempts past service timed)
    (moved : (machine collation).step service timed = some (after, answer))
    (still : after.deliveryRecords.get key = some record')
    (same : record' = record ∨ ∃ now, record' = acknowledged record now)
    (other : attempts record.subscriptionId record.eventId (timed, answer) = false) :
    WellKept collation ((timed, answer) :: past) key record' := by
  have begun : ∃ e ∈ (timed, answer) :: past, e.1.now = record.firstAttemptAt := by
    obtain ⟨e, member, reading⟩ := kept.begun
    exact ⟨e, List.mem_cons_of_mem _ member, reading⟩
  have counted : ∃ later opening earlier,
      Opened collation key ((timed, answer) :: past) later opening earlier ∧
      attempts record.subscriptionId record.eventId opening = true ∧
      record.attemptCount = 1 + later.countP (attempts record.subscriptionId record.eventId) := by
    obtain ⟨later, opening, earlier, opened, first, count⟩ := kept.counted
    refine ⟨_, opening, earlier, opened.next run ok moved (by rw [still]; rfl), first, ?_⟩
    rw [count, List.countP_cons, other]
    rfl
  rcases same with rfl | ⟨now, rfl⟩
  · exact ⟨kept.keyed, kept.colon_free, kept.on_schedule, kept.ordered, begun, counted⟩
  · exact ⟨kept.keyed, kept.colon_free, acknowledged_onSchedule record now, kept.ordered, begun,
      counted⟩

/- The record an attempt writes: the one it found with one attempt more, or a new one. -/
theorem wellKept_attempted {subscriptionId eventId recordId : String} {outcome : DeliveryOutcome}
    (known : ∀ key record, service.deliveryRecords.get key = some record →
      WellKept collation past key record)
    (run : (machine collation).Run ColonFreeAttempts past service)
    (at_attempt : timed.call = .recordDeliveryAttempt subscriptionId eventId outcome recordId)
    (ok : ColonFreeAttempts past service timed)
    (moved : (machine collation).step service timed = some (after, answer))
    (written : after.deliveryRecords.get (recordKey subscriptionId eventId) =
      some (scheduled (attempted (service.deliveryRecords.get (recordKey subscriptionId eventId))
        subscriptionId eventId outcome recordId timed.now) timed.now)) :
    WellKept collation ((timed, answer) :: past) (recordKey subscriptionId eventId)
      (scheduled (attempted (service.deliveryRecords.get (recordKey subscriptionId eventId))
        subscriptionId eventId outcome recordId timed.now) timed.now) := by
  have free : ColonFree subscriptionId := by
    have named := ok.2
    rwa [at_attempt] at named
  have one : attempts subscriptionId eventId (timed, answer) = true := by
    simp [attempts, at_attempt]
  have sound := attempted_counts (service.deliveryRecords.get (recordKey subscriptionId eventId))
    subscriptionId eventId outcome recordId timed.now
  have on_schedule := scheduled_onSchedule sound.1 sound.2.1
  have taken : (after.deliveryRecords.get (recordKey subscriptionId eventId)).isSome = true := by
    rw [written]
    rfl
  cases held : service.deliveryRecords.get (recordKey subscriptionId eventId) with
  | none =>
    rw [held] at on_schedule
    have opened := opened_now run ok moved held taken
    exact
      { keyed := by simp [attempted]
        colon_free := by simpa [attempted] using free
        on_schedule := on_schedule
        ordered := by simp [attempted]
        begun := ⟨_, List.mem_cons_self, by simp [attempted]⟩
        counted := ⟨[], _, past, opened, by simpa [attempted] using one, by simp [attempted]⟩ }
  | some record =>
    rw [held] at on_schedule
    have kept := known _ record held
    obtain ⟨sub, event⟩ := recordKey_inj free kept.colon_free kept.keyed
    obtain ⟨later, opening, earlier, opened, first, count⟩ := kept.counted
    obtain ⟨e, member, reading⟩ := kept.begun
    have since : record.firstAttemptAt ≤ timed.now := reading ▸ ok.1 e member
    exact
      { keyed := by simpa [attempted] using kept.keyed
        colon_free := by simpa [attempted] using kept.colon_free
        on_schedule := on_schedule
        ordered := by simpa [attempted] using since
        begun := ⟨e, List.mem_cons_of_mem _ member, by simpa [attempted] using reading⟩
        counted := ⟨_, opening, earlier, opened.next run ok moved taken,
          by simpa [attempted] using first, by
          simp only [attempted, scheduled_attemptCount, scheduled_subscriptionId,
            scheduled_eventId, count, List.countP_cons]
          rw [← sub, ← event, one]
          rfl⟩ }

theorem wellKept_step (known : ∀ key record, service.deliveryRecords.get key = some record →
      WellKept collation past key record)
    (run : (machine collation).Run ColonFreeAttempts past service)
    (ok : ColonFreeAttempts past service timed)
    (moved : (machine collation).step service timed = some (after, answer))
    (stored : after.deliveryRecords.get key = some record) :
    WellKept collation ((timed, answer) :: past) key record := by
  have move := step_moves moved
  obtain ⟨now, call⟩ := timed
  -- a call that is no attempt leaves a record, settles it or removes it
  have untouched (quiet : ∀ sub event, attempts sub event (⟨now, call⟩, answer) = false)
      (before : service.deliveryRecords.get key = some record) :
      WellKept collation ((⟨now, call⟩, answer) :: past) key record :=
    (known key record before).next run ok moved stored (Or.inl rfl) (quiet _ _)
  generalize at_call : call = called at move
  cases move with
  | nothing asked =>
    subst at_call
    refine untouched (fun _ _ => ?_) stored
    cases call with
    | recordDeliveryAttempt => cases asked
    | _ => rfl
  | created userId dto id =>
    subst at_call
    exact untouched (fun _ _ => rfl) stored
  | updated dto found =>
    subst at_call
    exact untouched (fun _ _ => rfl) stored
  | removed found =>
    subst at_call
    rw [removeSubscription_get, Option.filter_eq_some_iff] at stored
    exact untouched (fun _ _ => rfl) stored.1
  | acknowledged eventIds found =>
    subst at_call
    have settled := stored
    rw [acknowledgeEach_get, Option.map_eq_some_iff] at settled
    obtain ⟨old, before, written⟩ := settled
    refine (known key old before).next run ok moved stored ?_ rfl
    split at written
    · exact Or.inr ⟨_, written.symm⟩
    · exact Or.inl written.symm
  | attempted subscriptionId eventId outcome recordId =>
    subst at_call
    by_cases same : key = recordKey subscriptionId eventId
    · subst same
      have written := stored
      rw [InsertionMap.get_set_self] at written
      obtain rfl := Option.some.inj written
      exact wellKept_attempted known run rfl ok moved stored
    · have before := stored
      rw [InsertionMap.get_set_ne _ _ same] at before
      have kept := known key record before
      apply kept.next run ok moved stored (Or.inl rfl)
      have ne : ¬ (subscriptionId = record.subscriptionId ∧ eventId = record.eventId) := by
        rintro ⟨rfl, rfl⟩
        exact same kept.keyed
      simpa [attempts] using ne

theorem records_well_kept (run : (machine collation).Run ColonFreeAttempts past service) :
    ∀ key record, service.deliveryRecords.get key = some record →
      WellKept collation past key record := by
  refine run.invariant (fun past service => ∀ key record,
    service.deliveryRecords.get key = some record → WellKept collation past key record)
    (fun key record stored => by cases stored) ?_
  intro past service timed after answer before known ok moved key record stored
  exact wellKept_step known before ok moved stored

end Steps

/-- In every run a stored record is due again exactly while it is retrying, 2^(n-1) seconds
    after its n-th and last attempt with n at most five, counts the attempts since it was
    created, and is the only one of its pair. -/
theorem delivery_records_consistent (collation : Collation)
    {past : List (TimedCall × Answer)} {service : SubscriptionService}
    (run : (machine collation).Run ColonFreeAttempts past service) {key : String}
    {record : DeliveryRecordEntity} (stored : service.deliveryRecords.get key = some record) :
    (record.nextRetryAt ≠ none ↔ record.outcome = .retrying) ∧
    (record.outcome = .retrying → 1 ≤ record.attemptCount ∧ record.attemptCount ≤ 5 ∧
      record.nextRetryAt =
        some (record.lastAttemptAt + 1000 * 2 ^ (record.attemptCount - 1))) ∧
    (∃ later opening earlier, Opened collation key past later opening earlier ∧
      attempts record.subscriptionId record.eventId opening = true ∧
      record.attemptCount =
        1 + later.countP (attempts record.subscriptionId record.eventId)) ∧
    record.firstAttemptAt ≤ record.lastAttemptAt ∧
    ∀ other twin, service.deliveryRecords.get other = some twin →
      twin.subscriptionId = record.subscriptionId → twin.eventId = record.eventId → other = key := by
  have kept := records_well_kept run key record stored
  have schedule := kept.on_schedule
  unfold OnSchedule at schedule
  refine ⟨?_, ?_, kept.counted, kept.ordered, ?_⟩
  · by_cases retrying : record.outcome = .retrying
    · simp only [retrying, ↓reduceIte] at schedule
      simp [retrying, schedule.2.2]
    · simp only [retrying, ↓reduceIte] at schedule
      simp [retrying, schedule]
  · intro retrying
    rwa [if_pos retrying] at schedule
  · intro other twin present sub event
    rw [(records_well_kept run other twin present).keyed, kept.keyed, sub, event]

/-- Two failed attempts of one event, acknowledged in between. -/
def failedTwice : List TimedCall :=
  [⟨0, .createSubscription "alice" ⟨"alerts", ⟨["asset.added"], none, []⟩, none, none, none⟩ "s1"⟩,
   ⟨5, .recordDeliveryAttempt "s1" "e1" .retrying "r1"⟩,
   ⟨7, .acknowledgeEvents "alice" "s1" ["e1"]⟩,
   ⟨9, .recordDeliveryAttempt "s1" "e1" .retrying "r2"⟩]

theorem failed_twice_consistent : ∃ past service record,
    (machine ⟨compare, inferInstance⟩).Run ColonFreeAttempts past service ∧
    service.deliveryRecords.get "s1:e1" = some record ∧
    (record.nextRetryAt ≠ none ↔ record.outcome = .retrying) ∧
    record.nextRetryAt = some (record.lastAttemptAt + 1000 * 2 ^ (record.attemptCount - 1)) := by
  let collation : Collation := ⟨compare, inferInstance⟩
  have replay : ((machine collation).play ColonFreeAttempts ⟨[], (machine collation).init⟩
      failedTwice).map (fun moment => moment.state.deliveryRecords.get "s1:e1") =
      some (some ⟨"r1", "s1", "e1", .retrying, 5, 9, 2, some 2009, 5, 9⟩) := by decide +kernel
  obtain ⟨⟨past, service⟩, played, stored⟩ := Option.map_eq_some_iff.mp replay
  have run := Machine.play_run played
  have sound := delivery_records_consistent collation run stored
  exact ⟨past, service, _, run, stored, sound.1, (sound.2.1 rfl).2.2⟩

end AstraPort.Webhook.SubscriptionService
