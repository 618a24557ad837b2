import AstraPort.Webhook.SubscriptionCalls
import AstraPort.Foundation.Text

/- What one user does is invisible to the others: the run without the calls of a user
   gives every other user the same answers. Between the two runs only entries of
   subscriptions which that user created differ. -/
namespace AstraPort.Webhook.SubscriptionService

/-- Users and the ids of the subscriptions they created. -/
def creations (past : List (TimedCall × Answer)) : List (String × String) :=
  past.filterMap fun e => e.1.call.creation

/-- Ids without a colon that no subscription had before. -/
def FreshIds : Machine.Permit SubscriptionService TimedCall Answer := fun past _ timed =>
  ∀ made ∈ timed.call.creation, ColonFree made.2 ∧ made.2 ∉ (creations past).map Prod.snd

instance (past : List (TimedCall × Answer)) (service : SubscriptionService) (timed : TimedCall) :
    Decidable (FreshIds past service timed) :=
  inferInstanceAs (Decidable (∀ made ∈ timed.call.creation, _ ∧ _))

/-- Subscriptions stand under ids that their users created, records under the key of
    their pair. -/
structure Consistent (past : List (TimedCall × Answer)) (service : SubscriptionService) :
    Prop where
  named : ∀ id entity, service.subscriptions.get id = some entity →
    entity.id = id ∧ ColonFree id ∧ (entity.userId, id) ∈ creations past
  keyed : ∀ key record, service.deliveryRecords.get key = some record →
    key = recordKey record.subscriptionId record.eventId

/-- Ids, and record keys of ids, that the user did not create. -/
def othersId (userId : String) (past : List (TimedCall × Answer)) (id : String) : Bool :=
  decide ((userId, id) ∉ creations past)

def othersKey (userId : String) (past : List (TimedCall × Answer)) (key : String) : Bool :=
  othersId userId past (textBefore ':' key)

/-- Two services that differ in nothing but what the user has created. -/
structure Alike (userId : String) (past : List (TimedCall × Answer))
    (service purged : SubscriptionService) : Prop where
  distinct : ((creations past).map Prod.snd).Nodup
  consistent : Consistent past service
  consistent_purged : Consistent past purged
  subscriptions : service.subscriptions.Agree (othersId userId past) purged.subscriptions
  records : service.deliveryRecords.Agree (othersKey userId past) purged.deliveryRecords

theorem textBefore_recordKey {subscriptionId : String} (free : ColonFree subscriptionId)
    (eventId : String) : textBefore ':' (recordKey subscriptionId eventId) = subscriptionId := by
  have colon : ":".toList = [':'] := by decide
  have before : ∀ c ∈ subscriptionId.toList, decide (c ≠ ':') = true := by
    intro c member
    simpa using fun same : c = ':' => free (same ▸ member)
  rw [textBefore, recordKey, String.toList_append, String.toList_append, colon, List.append_assoc,
    List.takeWhile_append_of_pos before]
  simp

section Acknowledging
variable {shown : String → Bool} {subscriptionId : String}

theorem acknowledgeEach_hidden (now : Nat) (eventIds : List String)
    (hidden : ∀ eventId, shown (recordKey subscriptionId eventId) = false)
    (records : InsertionMap String DeliveryRecordEntity) :
    (acknowledgeEach subscriptionId now records eventIds).1.Agree shown records := by
  induction eventIds generalizing records with
  | nil => rfl
  | cons eventId rest ih =>
    rw [acknowledgeEach]
    split
    · exact ih records
    · split
      · exact ih records
      · exact (ih _).trans (InsertionMap.agree_set_hidden records _ (hidden eventId))

theorem acknowledgeEach_agree (now : Nat) (eventIds : List String)
    (seen : ∀ eventId, shown (recordKey subscriptionId eventId) = true)
    {records records' : InsertionMap String DeliveryRecordEntity}
    (agree : records.Agree shown records') :
    (acknowledgeEach subscriptionId now records eventIds).1.Agree shown
        (acknowledgeEach subscriptionId now records' eventIds).1 ∧
      (acknowledgeEach subscriptionId now records eventIds).2 =
        (acknowledgeEach subscriptionId now records' eventIds).2 := by
  induction eventIds generalizing records records' with
  | nil => exact ⟨agree, rfl⟩
  | cons eventId rest ih =>
    have same := agree.get (seen eventId)
    rw [acknowledgeEach, acknowledgeEach]
    cases held : records'.get (recordKey subscriptionId eventId) with
    | none =>
      rw [held] at same
      obtain ⟨left, told⟩ := ih agree
      simp only [same]
      exact ⟨left, by rw [told]⟩
    | some record =>
      rw [held] at same
      simp only [same]
      split
      · obtain ⟨left, told⟩ := ih agree
        exact ⟨left, by rw [told]⟩
      · obtain ⟨left, told⟩ :=
          ih (agree.set (recordKey subscriptionId eventId) (acknowledged record now))
        exact ⟨left, by rw [told]⟩

end Acknowledging

section Steps
variable {userId : String} {past : List (TimedCall × Answer)} {timed : TimedCall} {answer : Answer}
  {service purged after : SubscriptionService}

theorem creations_cons (e : TimedCall × Answer) :
    creations (e :: past) = e.1.call.creation.toList ++ creations past := by
  unfold creations
  cases created : e.1.call.creation with
  | none => simp [created]
  | some made => simp [created]

theorem creations_grow (e : TimedCall × Answer) {made : String × String}
    (created : made ∈ creations past) : made ∈ creations (e :: past) := by
  rw [creations_cons]
  exact List.mem_append_right _ created

theorem creations_distinct (distinct : ((creations past).map Prod.snd).Nodup)
    (fresh : FreshIds past service timed) :
    ((creations ((timed, answer) :: past)).map Prod.snd).Nodup := by
  rw [creations_cons]
  cases created : timed.call.creation with
  | none => exact distinct
  | some made => exact List.nodup_cons.mpr ⟨(fresh made created).2, distinct⟩

/- Whose id it is. -/
theorem creator_unique (distinct : ((creations past).map Prod.snd).Nodup) {first second id : String}
    (mine : (first, id) ∈ creations past) (yours : (second, id) ∈ creations past) :
    first = second :=
  (Prod.mk.inj (List.inj_on_of_nodup_map distinct mine yours rfl)).1

theorem othersId_narrow (e : TimedCall × Answer) (id : String)
    (shown : othersId userId (e :: past) id = true) : othersId userId past id = true := by
  simp only [othersId, decide_eq_true_eq] at shown ⊢
  exact fun mine => shown (creations_grow e mine)

theorem Consistent.later (consistent : Consistent past service) (e : TimedCall × Answer) :
    Consistent (e :: past) service := by
  refine ⟨fun id entity found => ?_, consistent.keyed⟩
  obtain ⟨same, free, created⟩ := consistent.named id entity found
  exact ⟨same, free, creations_grow e created⟩

theorem findOrThrow_owner {subscriptionId : String} {entity : SubscriptionEntity}
    (found : service.findOrThrow userId subscriptionId = .ok entity) : entity.userId = userId := by
  unfold findOrThrow at found
  split at found
  · split at found
    · rename_i owned
      exact Except.ok.inj found ▸ owned
    · cases found
  · cases found

theorem Move.consistent (move : Move service timed.now timed.call after)
    (fresh : FreshIds past service timed) (consistent : Consistent past service) :
    Consistent ((timed, answer) :: past) after := by
  have later := consistent.later (timed, answer)
  obtain ⟨now, call⟩ := timed
  cases move with
  | nothing asked => exact later
  | created creator dto id =>
    refine ⟨InsertionMap.get_set_all ?_ later.named, later.keyed⟩
    exact ⟨rfl, (fresh (creator, id) rfl).1, by simp [creations, Call.creation]⟩
  | updated dto found =>
    refine ⟨InsertionMap.get_set_all ?_ later.named, later.keyed⟩
    obtain ⟨same, named⟩ := later.named _ _ (findOrThrow_ok found)
    rw [same]
    exact ⟨same, named⟩
  | removed found =>
    refine ⟨fun other entity held => later.named other entity (InsertionMap.get_of_delete held),
      fun key record held => ?_⟩
    rw [removeSubscription_get, Option.filter_eq_some_iff] at held
    exact later.keyed key record held.1
  | acknowledged eventIds found =>
    refine ⟨later.named, fun key record held => ?_⟩
    rw [acknowledgeEach_get, Option.map_eq_some_iff] at held
    obtain ⟨old, before, rfl⟩ := held
    split
    · exact later.keyed key old before
    · exact later.keyed key old before
  | attempted subscriptionId eventId outcome recordId =>
    refine ⟨later.named, InsertionMap.get_set_all ?_ later.keyed⟩
    rw [scheduled_subscriptionId, scheduled_eventId]
    cases before : service.deliveryRecords.get (recordKey subscriptionId eventId) with
    | none => rfl
    | some old => exact later.keyed _ old before

/- What the user's own calls change is not shown to the others. -/
theorem Alike.silent {collation : Collation} (alike : Alike userId past service purged)
    (fresh : FreshIds past service timed)
    (moved : (machine collation).step service timed = some (after, answer))
    (own : timed.call.user = some userId) :
    Alike userId ((timed, answer) :: past) after purged := by
  have move := step_moves moved
  have consistent : Consistent ((timed, answer) :: past) after :=
    move.consistent fresh alike.consistent
  have narrow (id : String) : othersId userId ((timed, answer) :: past) id = true →
      othersId userId past id = true := othersId_narrow _ id
  have subscriptions := alike.subscriptions.narrow narrow
  have records := alike.records.narrow fun key => narrow (textBefore ':' key)
  have owned_hidden {id : String} {entity : SubscriptionEntity}
      (found : service.findOrThrow userId id = .ok entity) :
      ColonFree id ∧ othersId userId ((timed, answer) :: past) id = false := by
    obtain ⟨_, free, created⟩ := alike.consistent.named id entity (findOrThrow_ok found)
    rw [findOrThrow_owner found] at created
    exact ⟨free, by simpa [othersId] using creations_grow _ created⟩
  have keys_hidden {id : String} {entity : SubscriptionEntity}
      (found : service.findOrThrow userId id = .ok entity) (eventId : String) :
      othersKey userId ((timed, answer) :: past) (recordKey id eventId) = false := by
    rw [othersKey, textBefore_recordKey (owned_hidden found).1]
    exact (owned_hidden found).2
  suffices changes : after.subscriptions.Agree (othersId userId ((timed, answer) :: past))
        service.subscriptions ∧
      after.deliveryRecords.Agree (othersKey userId ((timed, answer) :: past))
        service.deliveryRecords from
    ⟨creations_distinct alike.distinct fresh, consistent, alike.consistent_purged.later _,
      changes.1.trans subscriptions, changes.2.trans records⟩
  obtain ⟨now, call⟩ := timed
  cases move with
  | nothing asked => exact ⟨rfl, rfl⟩
  | created creator dto id =>
    obtain rfl : creator = userId := Option.some.inj own
    exact ⟨InsertionMap.agree_set_hidden _ _ (by simp [othersId, creations_cons, Call.creation]),
      rfl⟩
  | updated dto found =>
    obtain rfl := Option.some.inj own
    refine ⟨InsertionMap.agree_set_hidden _ _ ?_, rfl⟩
    rw [(alike.consistent.named _ _ (findOrThrow_ok found)).1]
    exact (owned_hidden found).2
  | removed found =>
    obtain rfl := Option.some.inj own
    constructor
    · refine InsertionMap.agree_keep_hidden _ fun id entity _ shown => decide_eq_true ?_
      rintro rfl
      rw [(owned_hidden found).2] at shown
      cases shown
    · refine InsertionMap.agree_keep_hidden _ fun key record stored shown => ?_
      simp only [Bool.not_eq_true', decide_eq_false_iff_not]
      rintro rfl
      rw [alike.consistent.keyed key record stored, keys_hidden found] at shown
      cases shown
  | acknowledged eventIds found =>
    obtain rfl := Option.some.inj own
    exact ⟨rfl, acknowledgeEach_hidden now eventIds (keys_hidden found) service.deliveryRecords⟩
  | attempted => cases own

theorem Consistent.foreign (consistent : Consistent past service)
    (distinct : ((creations past).map Prod.snd).Nodup) {id : String} {entity : SubscriptionEntity}
    (found : service.subscriptions.get id = some entity)
    (hidden : othersId userId past id = false) : entity.userId = userId := by
  have mine : (userId, id) ∈ creations past := by simpa [othersId] using hidden
  exact creator_unique distinct (consistent.named id entity found).2.2 mine

theorem Consistent.refuses (consistent : Consistent past service)
    (distinct : ((creations past).map Prod.snd).Nodup) {other id : String} (ne : other ≠ userId)
    (hidden : othersId userId past id = false) :
    service.findOrThrow other id = .error (notFound id) := by
  unfold findOrThrow
  cases found : service.subscriptions.get id with
  | none => rfl
  | some entity =>
    have owner := consistent.foreign distinct found hidden
    have unowned : ¬ entity.userId = other := fun same => ne (same.symm.trans owner)
    simp only [unowned, ↓reduceIte]

/- Another user finds the same subscriptions in both services. -/
theorem Alike.findOrThrow (alike : Alike userId past service purged) {other : String}
    (ne : other ≠ userId) (id : String) :
    service.findOrThrow other id = purged.findOrThrow other id := by
  cases shown : othersId userId past id with
  | false =>
    rw [alike.consistent.refuses alike.distinct ne shown,
      alike.consistent_purged.refuses alike.distinct ne shown]
  | true =>
    unfold SubscriptionService.findOrThrow
    rw [alike.subscriptions.get shown]

theorem Alike.found (alike : Alike userId past service purged) {other id : String}
    (ne : other ≠ userId) {entity : SubscriptionEntity}
    (found : service.findOrThrow other id = .ok entity) :
    ColonFree id ∧ othersId userId past id = true := by
  obtain ⟨_, free, _⟩ := alike.consistent.named id entity (findOrThrow_ok found)
  refine ⟨free, ?_⟩
  by_contra hidden
  rw [alike.consistent.refuses alike.distinct ne (by simpa using hidden)] at found
  cases found

theorem Alike.ownedBy (alike : Alike userId past service purged) {other : String}
    (ne : other ≠ userId) : service.ownedBy other = purged.ownedBy other := by
  have covered {either : SubscriptionService} (consistent : Consistent past either) :
      ∀ id entity, either.subscriptions.get id = some entity →
        decide (entity.userId = other) = true → othersId userId past id = true := by
    intro id entity found owned
    by_contra hidden
    have owner := consistent.foreign alike.distinct found (by simpa using hidden)
    exact ne ((of_decide_eq_true owned).symm.trans owner)
  exact alike.subscriptions.values (covered alike.consistent) (covered alike.consistent_purged)

theorem Alike.recordsOf (alike : Alike userId past service purged) {id : String}
    (free : ColonFree id) (shown : othersId userId past id = true) :
    service.recordsOf id = purged.recordsOf id := by
  have covered {either : SubscriptionService} (consistent : Consistent past either) :
      ∀ key record, either.deliveryRecords.get key = some record →
        decide (record.subscriptionId = id) = true → othersKey userId past key = true := by
    intro key record stored same
    obtain rfl := of_decide_eq_true same
    rw [consistent.keyed key record stored, othersKey, textBefore_recordKey free]
    exact shown
  exact alike.records.values (covered alike.consistent) (covered alike.consistent_purged)

/- What another user is answered. -/
theorem Alike.answers (alike : Alike userId past service purged) (collation : Collation)
    {other : String} (asked : timed.call.user = some other) (ne : other ≠ userId) :
    (step collation service timed).2 = (step collation purged timed).2 := by
  obtain ⟨now, call⟩ := timed
  cases call with
  | createSubscription creator dto id => rfl
  | listSubscriptions asking pagination =>
    obtain rfl := Option.some.inj asked
    simp only [step, listSubscriptions, alike.ownedBy ne]
  | getSubscription asking id =>
    obtain rfl := Option.some.inj asked
    simp only [step, getSubscription, alike.findOrThrow ne]
  | updateSubscription asking id dto =>
    obtain rfl := Option.some.inj asked
    simp only [step, updateSubscription, alike.findOrThrow ne]
    split <;> rfl
  | deleteSubscription asking id =>
    obtain rfl := Option.some.inj asked
    simp only [step, deleteSubscription, alike.findOrThrow ne]
    split <;> rfl
  | getDeliveryStatus asking id =>
    obtain rfl := Option.some.inj asked
    simp only [step, getDeliveryStatus]
    rw [← alike.findOrThrow ne]
    split
    · rfl
    · rename_i entity found
      obtain ⟨free, shown⟩ := alike.found ne found
      rw [alike.recordsOf free shown]
  | acknowledgeEvents asking id eventIds =>
    obtain rfl := Option.some.inj asked
    simp only [step, acknowledgeEvents]
    rw [← alike.findOrThrow ne]
    split
    · rfl
    · rename_i entity found
      obtain ⟨free, shown⟩ := alike.found ne found
      have keys (eventId : String) : othersKey userId past (recordKey id eventId) = true := by
        rw [othersKey, textBefore_recordKey free]
        exact shown
      simp only [told, (acknowledgeEach_agree now eventIds keys alike.records).2]
  | recordDeliveryAttempt => cases asked

/- The call of another user, or an attempt, leads from like services to like services. -/
theorem Alike.forward (alike : Alike userId past service purged) (collation : Collation)
    (fresh : FreshIds past service timed) (foreign : timed.call.user ≠ some userId) :
    Alike userId ((timed, answer) :: past) (step collation service timed).1
      (step collation purged timed).1 := by
  have narrow (id : String) : othersId userId ((timed, answer) :: past) id = true →
      othersId userId past id = true := othersId_narrow _ id
  have moved (start : SubscriptionService) :
      (machine collation).step start timed = some (step collation start timed) := rfl
  suffices changes : (step collation service timed).1.subscriptions.Agree (othersId userId past)
        (step collation purged timed).1.subscriptions ∧
      (step collation service timed).1.deliveryRecords.Agree (othersKey userId past)
        (step collation purged timed).1.deliveryRecords from
    ⟨creations_distinct alike.distinct fresh,
      (step_moves (moved service)).consistent fresh alike.consistent,
      (step_moves (moved purged)).consistent fresh alike.consistent_purged,
      changes.1.narrow narrow, changes.2.narrow fun key => narrow (textBefore ':' key)⟩
  obtain ⟨now, call⟩ := timed
  cases call with
  | createSubscription creator dto id => exact ⟨alike.subscriptions.set id _, alike.records⟩
  | listSubscriptions asking pagination => exact ⟨alike.subscriptions, alike.records⟩
  | getSubscription asking id => exact ⟨alike.subscriptions, alike.records⟩
  | updateSubscription asking id dto =>
    have ne : asking ≠ userId := fun same => foreign (congrArg some same)
    simp only [step, updateSubscription]
    rw [← alike.findOrThrow ne]
    split
    · exact ⟨alike.subscriptions, alike.records⟩
    · exact ⟨alike.subscriptions.set _ _, alike.records⟩
  | deleteSubscription asking id =>
    have ne : asking ≠ userId := fun same => foreign (congrArg some same)
    simp only [step, deleteSubscription]
    rw [← alike.findOrThrow ne]
    split
    · exact ⟨alike.subscriptions, alike.records⟩
    · exact ⟨alike.subscriptions.keep _, alike.records.keep _⟩
  | getDeliveryStatus asking id => exact ⟨alike.subscriptions, alike.records⟩
  | acknowledgeEvents asking id eventIds =>
    have ne : asking ≠ userId := fun same => foreign (congrArg some same)
    simp only [step, acknowledgeEvents]
    rw [← alike.findOrThrow ne]
    split
    · exact ⟨alike.subscriptions, alike.records⟩
    · rename_i entity found
      obtain ⟨free, shown⟩ := alike.found ne found
      have keys (eventId : String) : othersKey userId past (recordKey id eventId) = true := by
        rw [othersKey, textBefore_recordKey free]
        exact shown
      exact ⟨alike.subscriptions, (acknowledgeEach_agree now eventIds keys alike.records).1⟩
  | recordDeliveryAttempt id eventId outcome recordId =>
    refine ⟨alike.subscriptions, ?_⟩
    simp only [step, recordDeliveryAttempt]
    cases shown : othersKey userId past (recordKey id eventId) with
    | true =>
      rw [alike.records.get shown]
      exact alike.records.set _ _
    | false =>
      exact (InsertionMap.agree_set_hidden _ _ shown).trans
        (alike.records.trans (InsertionMap.agree_set_hidden _ _ shown).symm)

end Steps

/-- Without the calls of one user a run answers every other user the same: the remaining
    inputs can be played on their own, and each other user's exchanges are the same. -/
theorem users_isolated (collation : Collation) (userA : String)
    {past : List (TimedCall × Answer)} {service : SubscriptionService}
    (run : (machine collation).Run FreshIds past service) :
    ∃ past' service', (machine collation).Run Machine.anything past' service' ∧
      past'.map Prod.fst =
        (past.map Prod.fst).filter (fun timed => timed.call.user ≠ some userA) ∧
      ∀ userB, userB ≠ userA →
        past'.filter (fun e => e.1.call.user = some userB) =
          past.filter (fun e => e.1.call.user = some userB) := by
  have empty : Consistent [] initial := by constructor <;> simp [initial]
  obtain ⟨past', service', purged, _, inputs, answers⟩ := run.purged
    (fun timed => timed.call.user ≠ some userA)
    (fun timed => timed.call.user ≠ none ∧ timed.call.user ≠ some userA)
    (fun timed seen => by simpa using (of_decide_eq_true seen).2)
    (Alike userA) ⟨by simp [creations], empty, empty, rfl, rfl⟩
    (fun alike fresh moved own => alike.silent fresh moved (by simpa using own)) (by
      intro past service purged timed after answer alike fresh moved foreign
      obtain ⟨rfl, rfl⟩ := Prod.mk.inj (Option.some.inj moved)
      refine ⟨_, _, rfl, fun seen => ?_, alike.forward collation fresh (by simpa using foreign)⟩
      obtain ⟨asked, ne⟩ := of_decide_eq_true seen
      obtain ⟨other, asked⟩ := Option.ne_none_iff_exists'.mp asked
      exact (alike.answers collation asked fun same => ne (by rw [asked, same])).symm)
  refine ⟨past', service', purged, inputs, fun userB ne => ?_⟩
  have split (history : List (TimedCall × Answer)) :
      history.filter (fun e => e.1.call.user = some userB) =
        (history.filter fun e => e.1.call.user ≠ none ∧ e.1.call.user ≠ some userA).filter
          fun e => e.1.call.user = some userB := by
    rw [List.filter_filter]
    refine List.filter_congr fun e _ => ?_
    by_cases theirs : e.1.call.user = some userB
    · simp [theirs, ne]
    · simp [theirs]
  rw [split past', split past, answers]

/-- Alice tries to change and settle what belongs to Bob. -/
def strangersCalls : List TimedCall :=
  [⟨0, .createSubscription "alice" ⟨"a", ⟨["asset.added"], none, []⟩, none, none, none⟩ "s1"⟩,
   ⟨1, .createSubscription "bob" ⟨"b", ⟨["asset.added"], none, []⟩, none, none, none⟩ "s2"⟩,
   ⟨2, .recordDeliveryAttempt "s2" "e1" .retrying "r1"⟩,
   ⟨3, .acknowledgeEvents "alice" "s2" ["e1"]⟩,
   ⟨4, .deleteSubscription "alice" "s1"⟩,
   ⟨5, .listSubscriptions "bob" none⟩]

theorem strangers_calls_isolated : ∃ past service past' service',
    (machine ⟨compare, inferInstance⟩).Run FreshIds past service ∧ past.length = 6 ∧
    (machine ⟨compare, inferInstance⟩).Run Machine.anything past' service' ∧
    past'.map Prod.fst = (past.map Prod.fst).filter (fun timed => timed.call.user ≠ some "alice") ∧
    past'.filter (fun e => e.1.call.user = some "bob") =
      past.filter (fun e => e.1.call.user = some "bob") := by
  let collation : Collation := ⟨compare, inferInstance⟩
  have replay : ((machine collation).play FreshIds ⟨[], (machine collation).init⟩
      strangersCalls).map (fun moment => moment.past.length) = some 6 := by decide +kernel
  obtain ⟨⟨past, service⟩, played, length⟩ := Option.map_eq_some_iff.mp replay
  have run := Machine.play_run played
  obtain ⟨past', service', purged, inputs, answers⟩ := users_isolated collation "alice" run
  exact ⟨past, service, past', service', run, length, purged, inputs,
    answers "bob" (by decide)⟩

end AstraPort.Webhook.SubscriptionService
