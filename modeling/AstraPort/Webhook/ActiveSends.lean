import AstraPort.Webhook.Delivery

/- Whom sendWebhook is called for. publishAndDeliver walks over the active subscriptions;
   retryDueDeliveries looks a subscription up by its id and asks nothing about its flag. -/
namespace AstraPort.Webhook.WebhookService

/-- One call after another: none begins before the one under way has ended. -/
def InTurn : Machine.Permit WebhookService TimedCall WebhookAnswer := fun _ service timed =>
  match timed.call with
  | .proceed _ _ => True
  | .answered _ _ _ => True
  | _ => service.activities.entries = []

instance (past : List (TimedCall × WebhookAnswer)) (service : WebhookService) (timed : TimedCall) :
    Decidable (InTurn past service timed) :=
  match timed with
  | ⟨_, .proceed _ _⟩ => isTrue trivial
  | ⟨_, .answered _ _ _⟩ => isTrue trivial
  | ⟨_, .createSubscription _ _ _⟩ => inferInstanceAs (Decidable (_ = _))
  | ⟨_, .updateSubscription _ _ _⟩ => inferInstanceAs (Decidable (_ = _))
  | ⟨_, .deleteSubscription _ _⟩ => inferInstanceAs (Decidable (_ = _))
  | ⟨_, .acknowledgeEvents _ _ _⟩ => inferInstanceAs (Decidable (_ = _))
  | ⟨_, .simulateDelivery _ _ _ _⟩ => inferInstanceAs (Decidable (_ = _))
  | ⟨_, .publishAndDeliver _ _ _⟩ => inferInstanceAs (Decidable (_ = _))
  | ⟨_, .retryDueDeliveries _ _⟩ => inferInstanceAs (Decidable (_ = _))

/-- A webhook is sent for a subscription whose active flag is set at that moment. -/
def SentWhileActive (before : WebhookService) (_ : TimedCall) (answer : WebhookAnswer)
    (_ : WebhookService) : Prop :=
  ∀ send, answer = .sending send → ∃ subscription,
    before.subscriptions.get send.subscriptionId = some subscription ∧ subscription.active = true

/-- The subscription the next turn of a retry run sends to: its head record is due, the
    event is known, and the subscription exists and has a callback. -/
def retriesTo (service : WebhookService) (task : Nat) : Option SubscriptionEntity :=
  match service.activities.get task with
  | some ⟨.retry due (snapshot :: _), none, _⟩ =>
    if (dueSchedule snapshot due).isSome ∧ (service.findEvent snapshot.eventId).isSome then
      (service.subscriptions.get snapshot.subscriptionId).filter fun subscription =>
        (callbackTarget subscription).isSome
    else none
  | _ => none

/-- What a retry run is about to send goes to an active subscription. -/
def RetriesActive (before : WebhookService) (timed : TimedCall) (_ : WebhookAnswer)
    (_ : WebhookService) : Prop :=
  match timed.call with
  | .proceed task _ =>
    ∀ subscription, before.retriesTo task = some subscription → subscription.active = true
  | _ => True

/-- Subscriptions stand under their ids, and a publish loop has only subscriptions ahead
    that are stored as its snapshot shows them, and active. -/
structure Fresh (service : WebhookService) : Prop where
  keyed : ∀ id entity, service.subscriptions.get id = some entity → entity.id = id
  ahead : ∀ task activity event remaining, service.activities.get task = some activity →
    activity.loop = .publish event remaining → ∀ subscription ∈ remaining,
      service.subscriptions.get subscription.id = some subscription ∧ subscription.active = true

section Turns
variable {signPayload : WebhookEvent → String} {service after : WebhookService} {timed : TimedCall}
  {answer : WebhookAnswer} {past : List (TimedCall × WebhookAnswer)}

/- A send comes from the head of a publish loop or from a retry turn. -/
theorem sending_cases {now task : Nat} {recordId : String} {send : Sending}
    (moved : step signPayload service ⟨now, .proceed task recordId⟩ = some (after, .sending send)) :
    (∃ activity event subscription rest, service.activities.get task = some activity ∧
      activity.loop = .publish event (subscription :: rest) ∧
      send.subscriptionId = subscription.id) ∨
    ∃ subscription, service.retriesTo task = some subscription ∧
      send.subscriptionId = subscription.id := by
  simp only [step] at moved
  split at moved
  · cases moved
  · rename_i activity running
    obtain ⟨loop, awaiting, results⟩ := activity
    split at moved
    · cases moved
    · rename_i busy
      obtain rfl : awaiting = none := by simpa using busy
      split at moved
      · rename_i event remaining at_loop
        cases remaining with
        | nil => simp [publishTurn] at moved
        | cons subscription rest =>
          simp only [publishTurn, deliver, conclude] at moved
          split at moved
          · split at moved
            · simp only [Option.some.injEq, Prod.mk.injEq, WebhookAnswer.sending.injEq] at moved
              exact Or.inl ⟨_, event, subscription, rest, running, at_loop, by rw [← moved.2]⟩
            · simp at moved
          · simp at moved
      · rename_i due remaining at_loop
        obtain rfl : loop = .retry due remaining := at_loop
        cases remaining with
        | nil => simp [retryTurn] at moved
        | cons snapshot rest =>
          simp only [retryTurn, deliver, conclude] at moved
          split at moved
          · rename_i schedule event reached known
            split at moved
            · rename_i subscription found
              have found := SubscriptionService.getSubscriptionById_ok.mp found
              split at moved
              · rename_i url target
                simp only [Option.some.injEq, Prod.mk.injEq, WebhookAnswer.sending.injEq] at moved
                refine Or.inr ⟨subscription, ?_, by rw [← moved.2]⟩
                simp [retriesTo, running, reached, known, subscriptions, found, target]
              · simp at moved
            · simp at moved
          · simp at moved

/- A retry turn that has somebody to send to does send. -/
theorem retriesTo_sends {now task : Nat} {recordId : String} {subscription : SubscriptionEntity}
    (retries : service.retriesTo task = some subscription)
    (moved : step signPayload service ⟨now, .proceed task recordId⟩ = some (after, answer)) :
    ∃ snapshot send, service.subscriptions.get snapshot = some subscription ∧
      answer = .sending send ∧ send.subscriptionId = subscription.id := by
  unfold retriesTo at retries
  split at retries
  · rename_i due snapshot rest results running
    split at retries
    · rename_i wanted
      obtain ⟨found, target⟩ := Option.filter_eq_some_iff.mp retries
      obtain ⟨schedule, reached⟩ := Option.isSome_iff_exists.mp wanted.1
      obtain ⟨event, known⟩ := Option.isSome_iff_exists.mp wanted.2
      obtain ⟨url, target⟩ := Option.isSome_iff_exists.mp target
      have looked_up := SubscriptionService.getSubscriptionById_ok.mpr found
      simp only [step, running, Option.isSome_none, Bool.false_eq_true, ↓reduceIte, retryTurn,
        reached, known, looked_up, deliver, target, Option.some.injEq, Prod.mk.injEq] at moved
      exact ⟨_, _, found, moved.2.symm, rfl⟩
    · cases retries
  · cases retries

theorem sending_keeps {send : Sending}
    (moved : (machine signPayload).step service timed = some (after, .sending send)) :
    after.subscriptions = service.subscriptions := by
  have move := step_moves moved
  obtain ⟨now, call⟩ := timed
  generalize told : WebhookAnswer.sending send = answer at move
  cases move with
  | sent running idle turn => rfl
  | _ => cases told

theorem Fresh.sentWhileActive_iff (fresh : service.Fresh)
    (moved : step signPayload service timed = some (after, answer)) :
    SentWhileActive service timed answer after ↔ RetriesActive service timed answer after := by
  obtain ⟨now, call⟩ := timed
  have silent (quiet : ∀ send, answer ≠ .sending send) :
      SentWhileActive service ⟨now, call⟩ answer after := fun send told => absurd told (quiet send)
  have move := step_moves moved
  cases call with
  | proceed task recordId =>
    constructor
    · intro sent subscription retries
      obtain ⟨id, send, found, told, named⟩ := retriesTo_sends retries moved
      obtain ⟨current, stored, active⟩ := sent send told
      rw [named, fresh.keyed id subscription found, found] at stored
      exact Option.some.inj stored ▸ active
    · rintro retries send rfl
      rcases sending_cases moved with ⟨activity, event, subscription, rest, running, at_loop, named⟩ |
        ⟨subscription, retried, named⟩
      · rw [named]
        exact ⟨subscription, fresh.ahead task activity event _ running at_loop subscription
          List.mem_cons_self⟩
      · obtain ⟨id, _, found, _⟩ := retriesTo_sends retried moved
        refine ⟨subscription, ?_, retries subscription retried⟩
        rw [named, fresh.keyed id subscription found, found]
  | _ =>
    refine iff_of_true (silent fun send told => ?_) trivial
    subst told
    cases move

end Turns

section Steps
variable {signPayload : WebhookEvent → String} {service after : WebhookService} {timed : TimedCall}
  {answer : WebhookAnswer} {past : List (TimedCall × WebhookAnswer)}

/- Between calls there is no loop to keep fresh. -/
theorem fresh_idle (quiet : after.activities.entries = [])
    (keyed : ∀ id entity, after.subscriptions.get id = some entity → entity.id = id) :
    after.Fresh := by
  refine ⟨keyed, ?_⟩
  intro task activity event remaining running
  rw [no_activity quiet] at running
  cases running

/- A turn of one loop, with the subscriptions as they were. -/
theorem Fresh.turned (fresh : service.Fresh) {task : Nat} {activity : Activity}
    (subscriptions : after.subscriptions = service.subscriptions)
    (activities : after.activities = service.activities.set task activity)
    (ahead : ∀ event remaining, activity.loop = .publish event remaining →
      ∀ subscription ∈ remaining, service.subscriptions.get subscription.id = some subscription ∧
        subscription.active = true) : after.Fresh := by
  refine ⟨subscriptions ▸ fresh.keyed, ?_⟩
  rw [subscriptions, activities]
  intro other rival event remaining running at_loop
  rcases InsertionMap.get_set_cases running with ⟨_, rfl⟩ | ⟨_, before⟩
  · exact ahead event remaining at_loop
  · exact fresh.ahead other rival event remaining before at_loop

theorem Fresh.removed (fresh : service.Fresh) (task : Nat) :
    (service.withoutActivity task).Fresh :=
  ⟨fresh.keyed, fun other rival event remaining running =>
    fresh.ahead other rival event remaining (InsertionMap.get_of_delete running)⟩

/- What is left of a publish loop was ahead of it before. -/
theorem Fresh.left (fresh : service.Fresh) {task : Nat} {activity : Activity} {rest : Loop}
    (running : service.activities.get task = some activity)
    (narrowed : ∀ event remaining, rest = .publish event remaining →
      ∃ subscription, activity.loop = .publish event (subscription :: remaining)) :
    ∀ event remaining, rest = .publish event remaining → ∀ subscription ∈ remaining,
      service.subscriptions.get subscription.id = some subscription ∧
        subscription.active = true := by
  intro event remaining same subscription member
  obtain ⟨head, at_loop⟩ := narrowed event remaining same
  exact fresh.ahead task activity event _ running at_loop subscription
    (List.mem_cons_of_mem _ member)

theorem Turn.narrowed {loop rest : Loop} {delivery : Delivery} {schedule : Option (String × Nat)}
    (turn : Turn service loop rest delivery schedule) :
    ∀ event remaining, rest = .publish event remaining →
      ∃ subscription, loop = .publish event (subscription :: remaining) := by
  rintro event remaining rfl
  cases turn with
  | publish selected => exact ⟨_, rfl⟩

theorem Pass.narrowed {loop rest : Loop} (pass : Pass service loop rest) :
    ∀ event remaining, rest = .publish event remaining →
      ∃ subscription, loop = .publish event (subscription :: remaining) := by
  rintro event remaining rfl
  cases pass with
  | publish => exact ⟨_, rfl⟩

theorem Move.fresh (move : Move signPayload service timed.now timed.call after answer)
    (inTurn : InTurn past service timed) (fresh : service.Fresh) : after.Fresh := by
  obtain ⟨now, call⟩ := timed
  cases move with
  | refused told thrown => exact fresh
  | created userId dto named enabled =>
    exact fresh_idle inTurn (InsertionMap.get_set_all named fresh.keyed)
  | updated dto found =>
    exact fresh_idle inTurn (InsertionMap.get_set_all rfl fresh.keyed)
  | removed found =>
    exact fresh_idle inTurn fun id entity held =>
      fresh.keyed id entity (InsertionMap.get_of_delete held)
  | acknowledged found settled => exact ⟨fresh.keyed, fresh.ahead⟩
  | simulated input eventId recordId found attempt =>
    obtain rfl := (Prod.mk.inj attempt).1
    exact ⟨fresh.keyed, fresh.ahead⟩
  | unsimulated input eventId recordId thrown => exact ⟨fresh.keyed, fresh.ahead⟩
  | published input eventId free =>
    refine fresh.turned rfl rfl ?_
    rintro _ _ ⟨⟩ subscription member
    obtain ⟨stored, active⟩ := List.mem_filter.mp member
    obtain ⟨id, found⟩ := (InsertionMap.mem_values _).mp stored
    exact ⟨fresh.keyed id subscription found ▸ found, active⟩
  | retried due free => exact fresh.turned rfl rfl (by simp)
  | finished running idle exhausted => exact fresh.removed _
  | aborted running idle at_snapshot reached known missing thrown => exact fresh.removed _
  | passed running idle pass => exact fresh.turned rfl rfl (fresh.left running pass.narrowed)
  | sent running idle turn => exact fresh.turned rfl rfl (fresh.left running turn.narrowed)
  | unsent running idle turn attempt =>
    obtain rfl := (Prod.mk.inj attempt).1
    exact fresh.turned rfl rfl (fresh.left running turn.narrowed)
  | settled ok running awaited attempt =>
    obtain rfl := (Prod.mk.inj attempt).1
    exact fresh.turned rfl rfl fun event remaining at_loop =>
      fresh.ahead _ _ event remaining running at_loop

theorem fresh_run (run : (machine signPayload).Run InTurn past service) : service.Fresh := by
  refine run.invariant (fun _ service => service.Fresh) (fresh_idle rfl (by simp [machine,
    initial, subscriptions, SubscriptionService.initial])) ?_
  intro past service timed after answer _ fresh inTurn moved
  exact (step_moves moved).fresh inTurn fresh

end Steps

/-- Executed one after another, the calls send to active subscriptions alone exactly when
    no retry run takes up a due delivery of a subscription that was switched off. -/
theorem sends_active_iff_retries_active (signPayload : WebhookEvent → String)
    (past : List (TimedCall × WebhookAnswer)) :
    (machine signPayload).Each InTurn SentWhileActive past ↔
      (machine signPayload).Each InTurn RetriesActive past :=
  Machine.each_congr fun before _ moved => (fresh_run before).sentWhileActive_iff moved

/-- The first attempt fails, the subscription is switched off, and the retry goes out. -/
def switchedOffBeforeRetry : List TimedCall :=
  [⟨0, .createSubscription "alice" ⟨"alerts", ⟨["asset.added"], none, []⟩, none, none,
      some "https://hooks.example/a"⟩ "s1"⟩,
   ⟨0, .publishAndDeliver 1 ⟨"asset.added", none, none, none⟩ "e1"⟩,
   ⟨0, .proceed 1 "u1"⟩, ⟨10, .answered 1 false "r1"⟩, ⟨10, .proceed 1 "u2"⟩,
   ⟨20, .updateSubscription "alice" "s1" ⟨none, none, none, none, none, some false⟩⟩,
   ⟨5000, .retryDueDeliveries 2 5000⟩, ⟨5000, .proceed 2 "u3"⟩]

theorem switched_off_subscription_is_sent_to : ¬ ∀ past service,
    (machine fun _ => "signature").Run InTurn past service →
    (machine fun _ => "signature").Each InTurn SentWhileActive past := by
  intro always
  let M := machine fun _ => "signature"
  have replay : (M.play InTurn ⟨[], M.init⟩ switchedOffBeforeRetry).map (fun moment =>
      ((moment.state.subscriptions.get "s1").map SubscriptionEntity.active,
        moment.past.head?)) =
      some (some false, some (⟨5000, .proceed 2 "u3"⟩,
        .sending ⟨"s1", "e1", "https://hooks.example/a", some ("r1", 1010)⟩)) := by decide +kernel
  obtain ⟨⟨past, service⟩, played, shown⟩ := Option.map_eq_some_iff.mp replay
  obtain ⟨switched_off, last⟩ := Prod.mk.inj shown
  have run : M.Run InTurn past service := Machine.play_run played
  obtain ⟨past, rfl⟩ := List.head?_eq_some_iff.mp last
  obtain ⟨before, reached, ok, moved⟩ := run.newest
  obtain ⟨subscription, found, active⟩ := always _ _ run [] _ _ _ _ _ rfl reached ok moved _ rfl
  have kept : service.subscriptions = before.subscriptions := sending_keeps moved
  rw [kept, found, Option.map_some, active] at switched_off
  cases switched_off

end AstraPort.Webhook.WebhookService
