import AstraPort.RateLimit.SlidingWindow
import AstraPort.RateLimit.Verdicts

/- Rejections and what causes them, under sliding windows alone. A check is charged to every
   policy with room before it is decided, so a request that one policy rejects fills the
   windows of the others; where no check meets both, windows hold admitted requests only. -/
namespace AstraPort.RateLimit.RateLimitService
open Limiters

abbrev History := List (RateLimitCall × RateLimitAnswer)

def allows : RateLimitAnswer → Bool
  | .decided _ decision => decision.allowed
  | .cleaned => false

def rejects : RateLimitAnswer → Bool
  | .decided _ decision => !decision.allowed
  | .cleaned => false

section Windows
variable (conversions : Conversions) (config : RateLimitConfiguration)

/-- The clock never runs backwards, and every policy that applies uses the sliding window. -/
def SlidingWindows : Machine.Permit RateLimitService RateLimitCall RateLimitAnswer :=
  fun past service call => Machine.ClockAdvances RateLimitCall.now past service call ∧
    ∀ limit ∈ limitsOf conversions config call, limit.policy.algorithm = .slidingWindow

instance (past : History) (service : RateLimitService) (call : RateLimitCall) :
    Decidable (SlidingWindows conversions config past service call) :=
  inferInstanceAs (Decidable (_ ∧ _))

def timestamps (service : RateLimitService) (key : String) : List Rat :=
  storedTimestamps service.limiters.slidingWindow key

/-- The timestamps that count against a policy. -/
def counted (service : RateLimitService) (limit : ApplicableLimit) (now : Rat) : List Rat :=
  SlidingWindowRateLimiter.recent service.limiters.slidingWindow (limiterKey limit)
    limit.policy.toRateLimitPolicy now

def HasRoom (service : RateLimitService) (limit : ApplicableLimit) (now : Rat) : Prop :=
  ((counted service limit now).length : Rat) < limit.policy.limit

instance (service : RateLimitService) (limit : ApplicableLimit) (now : Rat) :
    Decidable (HasRoom service limit now) := inferInstanceAs (Decidable (_ < _))

/-- A call finds room under all the policies it is charged to, or under none of them. -/
def Unanimous (service : RateLimitService) (call : RateLimitCall) : Prop :=
  (∀ limit ∈ limitsOf conversions config call, HasRoom service limit call.now) ∨
    ∀ limit ∈ limitsOf conversions config call, ¬ HasRoom service limit call.now

instance (service : RateLimitService) (call : RateLimitCall) :
    Decidable (Unanimous conversions config service call) := inferInstanceAs (Decidable (_ ∨ _))

/-- When the allowed requests came that a key was charged for, newest first. -/
def allowedTimes (key : String) (past : History) : List Rat :=
  past.filterMap fun e =>
    if allows e.2 ∧ key ∈ (limitsOf conversions config e.1).map limiterKey then some e.1.now
    else none

/-- Allowed requests on the key of a policy within the window that ends now. -/
def admittedSince (past : History) (limit : ApplicableLimit) (now : Rat) : Nat :=
  (allowedTimes conversions config (limiterKey limit) past).countP fun t =>
    decide (now - limit.policy.windowMs < t)

/-- A rejection that admitted traffic explains: as many requests as some policy allows came on
    its key within its window and were themselves allowed; and the rejected one is charged
    to no window. -/
structure CausedByAdmitted (earlier : History) (before : RateLimitService) (call : RateLimitCall)
    (after : RateLimitService) : Prop where
  full : ∃ limit ∈ limitsOf conversions config call,
    limit.policy.limit ≤ admittedSince conversions config earlier limit call.now
  uncharged : ∀ key, (timestamps after key).Sublist (timestamps before key)

def RejectionsCaused (past : History) : Prop :=
  ∀ later call answer earlier before after, past = later ++ (call, answer) :: earlier →
    (machine conversions config).Run (SlidingWindows conversions config) earlier before →
    (machine conversions config).step before call = some (after, answer) →
    rejects answer = true → CausedByAdmitted conversions config earlier before call after

end Windows

section Checks
variable {conversions : Conversions} {config : RateLimitConfiguration} {service : RateLimitService}
  {request : RateLimitRequest} {override : Option RateLimitOverride} {skip : Bool} {now : Rat}

theorem sliding_verdict {limit : ApplicableLimit}
    (sliding : limit.policy.algorithm = .slidingWindow) :
    (verdict service.limiters limit now).allowed = decide (HasRoom service limit now) := by
  simp only [verdict, Limiters.consume, sliding]
  rfl

/- A charge under a sliding window: the request joins what counts, where there is room. -/
theorem timestamps_charged {limit : ApplicableLimit}
    (used : limit ∈ limitsOf conversions config (.check request override skip now))
    (sliding : limit.policy.algorithm = .slidingWindow) :
    timestamps (service.check conversions config request override skip now).1 (limiterKey limit) =
      if HasRoom service limit now then counted service limit now ++ [now]
      else counted service limit now := by
  have charged : SameAt limit.policy.algorithm (limiterKey limit)
      (service.check conversions config request override skip now).1.limiters
      (chargedFor service.limiters limit now) := check_uses used
  simp only [SameAt, sliding, chargedFor, Limiters.consume] at charged
  simp only [timestamps, storedTimestamps, charged]
  apply (stored_after_consume _ _ _ _).trans
  have allowed : (SlidingWindowRateLimiter.consume service.limiters.slidingWindow (limiterKey limit)
      limit.policy.toRateLimitPolicy now).2.allowed = decide (HasRoom service limit now) := rfl
  by_cases room : HasRoom service limit now
  · rw [if_pos room, if_pos (by rw [allowed]; exact decide_eq_true room)]
    rfl
  · rw [if_neg room, if_neg (by rw [allowed]; simpa using room)]
    rfl

theorem timestamps_left {key : String}
    (unused : key ∉ (limitsOf conversions config
      (.check request override skip now)).map limiterKey) :
    timestamps (service.check conversions config request override skip now).1 key =
      timestamps service key := by
  have left : SameAt .slidingWindow key
      (service.check conversions config request override skip now).1.limiters service.limiters :=
    check_leaves fun limit member same => absurd (same ▸ List.mem_map_of_mem member) unused
  simp only [SameAt] at left
  simp only [timestamps, storedTimestamps, left]

theorem counted_sublist (limit : ApplicableLimit) :
    (counted service limit now).Sublist (timestamps service (limiterKey limit)) := by
  rw [counted, recent_eq_filter]
  exact List.filter_sublist

variable (conversions service override now) in
/- A check is rejected as soon as one of the policies it is charged to has no room. -/
theorem rejected_iff (sliding : ∀ limit ∈ limitsOf conversions config
      (.check request override skip now), limit.policy.algorithm = .slidingWindow) :
    (service.check conversions config request override skip now).2.2.allowed = false ↔
      ∃ limit ∈ limitsOf conversions config (.check request override skip now),
        ¬ HasRoom service limit now := by
  cases limited : bypassReason config request skip with
  | some reason => simp [(check_bypassed limited).2.2, limitsOf, limited]
  | none =>
    rw [limitsOf_limited limited] at sliding ⊢
    have verdicts : ∀ limit ∈ applicableLimits conversions config request override,
        (verdict service.limiters limit now).allowed = decide (HasRoom service limit now) :=
      fun limit member => sliding_verdict (sliding limit member)
    rcases check_decision conversions service override now limited with
      ⟨refused, member, found, result⟩ | ⟨passing, allowed⟩
    · have refuses : (verdict service.limiters refused now).allowed = false := by
        simpa using List.find?_some found
      have rejected : (service.check conversions config request override skip now).2.2.allowed =
          false := (congrArg RateLimitResult.allowed result).trans refuses
      rw [verdicts refused member] at refuses
      exact ⟨fun _ => ⟨refused, member, of_decide_eq_false refuses⟩, fun _ => rejected⟩
    · rw [allowed]
      constructor
      · intro impossible
        cases impossible
      · rintro ⟨limit, member, full⟩
        have passes := passing limit member
        rw [verdicts limit member] at passes
        exact absurd (of_decide_eq_true passes) full

/- A rejected check is charged to some window unless it found room nowhere. -/
theorem uncharged_iff (sliding : ∀ limit ∈ limitsOf conversions config
      (.check request override skip now), limit.policy.algorithm = .slidingWindow) :
    (∀ key, (timestamps (service.check conversions config request override skip now).1 key).Sublist
        (timestamps service key)) ↔
      ∀ limit ∈ limitsOf conversions config (.check request override skip now),
        ¬ HasRoom service limit now := by
  constructor
  · intro uncharged limit used room
    have window := uncharged (limiterKey limit)
    rw [timestamps_charged used (sliding limit used), if_pos room] at window
    -- what counts keeps every timestamp of this very moment, so the new one is one too many
    have longer := window.count_le now
    rw [List.count_append, List.count_singleton_self, counted, recent_eq_filter,
      List.count_filter (by
        have := limit.policy.some_time
        simp only [decide_eq_true_eq]
        linarith)] at longer
    simp only [timestamps] at longer
    omega
  · intro full key
    by_cases used : key ∈ (limitsOf conversions config
        (.check request override skip now)).map limiterKey
    · obtain ⟨limit, member, rfl⟩ := List.mem_map.mp used
      rw [timestamps_charged member (sliding limit member), if_neg (full limit member)]
      exact counted_sublist limit
    · rw [timestamps_left used]

end Checks

section Runs
variable {conversions : Conversions} {config : RateLimitConfiguration} {service : RateLimitService}
  {past : History}

/-- Every timestamp in a window is that of a request which was allowed. -/
def WindowsAdmitted (conversions : Conversions) (config : RateLimitConfiguration) (past : History)
    (service : RateLimitService) : Prop :=
  ∀ key, (timestamps service key).Sublist (allowedTimes conversions config key past).reverse

theorem WindowsAdmitted.check {request : RateLimitRequest} {override : Option RateLimitOverride}
    {skip : Bool} {now : Rat} (known : WindowsAdmitted conversions config past service)
    (sliding : ∀ limit ∈ limitsOf conversions config (.check request override skip now),
      limit.policy.algorithm = .slidingWindow)
    (unanimous : Unanimous conversions config service (.check request override skip now)) :
    let checked := service.check conversions config request override skip now
    WindowsAdmitted conversions config
      ((.check request override skip now, .decided checked.2.1 checked.2.2) :: past) checked.1 := by
  intro checked key
  have rejected := rejected_iff conversions service override now sliding
  by_cases denied : checked.2.2.allowed = false
  · -- no room anywhere: the windows only lose timestamps
    have full : ∀ limit ∈ limitsOf conversions config (.check request override skip now),
        ¬ HasRoom service limit now := by
      obtain ⟨limit, member, full⟩ := rejected.mp denied
      exact unanimous.resolve_left fun rooms => full (rooms limit member)
    have shrinks := (uncharged_iff sliding).mpr full key
    have same : allowedTimes conversions config key
        ((.check request override skip now, .decided checked.2.1 checked.2.2) :: past) =
          allowedTimes conversions config key past := by
      simp only [allowedTimes, List.filterMap_cons, allows, denied, Bool.false_eq_true, false_and,
        if_false]
    rw [same]
    exact shrinks.trans (known key)
  · have allowed : checked.2.2.allowed = true := by simpa using denied
    by_cases used : key ∈ (limitsOf conversions config
        (.check request override skip now)).map limiterKey
    · have grown : allowedTimes conversions config key
          ((.check request override skip now, .decided checked.2.1 checked.2.2) :: past) =
            now :: allowedTimes conversions config key past := by
        simp only [allowedTimes, List.filterMap_cons, allows, allowed, used, and_self, if_true]
        rfl
      obtain ⟨limit, member, rfl⟩ := List.mem_map.mp used
      have room : HasRoom service limit now := by
        by_contra full
        exact denied (rejected.mpr ⟨limit, member, full⟩)
      rw [grown, List.reverse_cons, timestamps_charged member (sliding limit member), if_pos room]
      exact ((counted_sublist limit).trans (known _)).append (List.Sublist.refl [now])
    · have same : allowedTimes conversions config key
          ((.check request override skip now, .decided checked.2.1 checked.2.2) :: past) =
            allowedTimes conversions config key past := by
        simp only [allowedTimes, List.filterMap_cons, used, and_false, if_false]
      rw [same, timestamps_left used]
      exact known key

theorem WindowsAdmitted.cleanup (known : WindowsAdmitted conversions config past service)
    (now : Rat) :
    WindowsAdmitted conversions config ((.cleanup now, .cleaned) :: past) (service.cleanup now) := by
  intro key
  have same : allowedTimes conversions config key ((.cleanup now, .cleaned) :: past) =
    allowedTimes conversions config key past := rfl
  have kept : (timestamps (service.cleanup now) key).Sublist (timestamps service key) := by
    simp only [timestamps, storedTimestamps, RateLimitService.cleanup, Limiters.prune,
      SlidingWindowRateLimiter.prune, InsertionMap.get_keep]
    cases service.limiters.slidingWindow.get key with
    | none => exact List.Sublist.refl _
    | some state =>
      rw [Option.filter_some]
      split
      · exact List.Sublist.refl _
      · exact List.nil_sublist _
  rw [same]
  exact kept.trans (known key)

theorem windows_admitted (run : (machine conversions config).Run
      (SlidingWindows conversions config) past service)
    (unanimous : Machine.Each (machine conversions config) (SlidingWindows conversions config)
      (fun before call _ _ => Unanimous conversions config before call) past) :
    WindowsAdmitted conversions config past service := by
  refine run.invariant (fun past service =>
    Machine.Each (machine conversions config) (SlidingWindows conversions config)
      (fun before call _ _ => Unanimous conversions config before call) past →
    WindowsAdmitted conversions config past service) ?_ ?_ unanimous
  · intro _ key
    exact List.nil_sublist _
  · intro past service call after answer before known permitted moved each
    obtain ⟨newest, rest⟩ := (before.each_cons permitted moved).mp each
    cases call with
    | check request override skip now =>
      obtain ⟨rfl, rfl⟩ := Prod.mk.inj (Option.some.inj moved)
      exact (known rest).check permitted.2 newest
    | cleanup now =>
      obtain ⟨rfl, rfl⟩ := Prod.mk.inj (Option.some.inj moved)
      exact (known rest).cleanup now

/-- In a run of checks and cleanups under sliding windows, admitted traffic explains every
    rejection if and only if every check found room under all of its policies or under none. -/
theorem rejections_caused_iff (run : (machine conversions config).Run
      (SlidingWindows conversions config) past service) :
    RejectionsCaused conversions config past ↔
      Machine.Each (machine conversions config) (SlidingWindows conversions config)
        (fun before call _ _ => Unanimous conversions config before call) past := by
  constructor
  · intro caused later call answer earlier before after split shorter permitted moved
    cases call with
    | cleanup now => exact Or.inl (by simp [limitsOf])
    | check request override skip now =>
      by_contra mixed
      obtain ⟨rfl, rfl⟩ := Prod.mk.inj (Option.some.inj moved)
      have rejected := rejected_iff conversions before override now permitted.2
      simp only [Unanimous, not_or, not_forall, RateLimitCall.now] at mixed
      obtain ⟨⟨limit, member, full⟩, open_limit⟩ := mixed
      have refused := rejected.mpr ⟨limit, member, full⟩
      have uncharged := (caused later _ _ earlier before _ split shorter moved
        (by simp [rejects, refused])).uncharged
      obtain ⟨other, used, room⟩ := open_limit
      exact room ((uncharged_iff permitted.2).mp uncharged other used)
  · intro unanimous later call answer earlier before after split shorter moved denied
    obtain ⟨reached, _, again, permitted, _⟩ := run.exchange split
    obtain rfl := shorter.state_unique again
    have admitted := windows_admitted shorter (unanimous.suffix split)
    have newest := unanimous later call _ earlier before after split shorter permitted moved
    cases call with
    | cleanup now =>
      obtain ⟨rfl, rfl⟩ := Prod.mk.inj (Option.some.inj moved)
      cases denied
    | check request override skip now =>
      obtain ⟨rfl, rfl⟩ := Prod.mk.inj (Option.some.inj moved)
      simp only [rejects, Bool.not_eq_true'] at denied
      obtain ⟨limit, member, full⟩ :=
        (rejected_iff conversions before override now permitted.2).mp denied
      have nowhere := newest.resolve_left fun rooms => full (rooms limit member)
      refine ⟨⟨limit, member, ?_⟩, (uncharged_iff permitted.2).mpr nowhere⟩
      have fewer : (counted before limit now).length ≤
          admittedSince conversions config earlier limit now := by
        have kept := (admitted (limiterKey limit)).countP_le
          (p := fun t => decide (now - limit.policy.windowMs < t))
        rw [List.countP_reverse] at kept
        rw [counted, recent_eq_filter, ← List.countP_eq_length_filter]
        exact kept
      exact (not_lt.mp full).trans (by exact_mod_cast fewer)

end Runs

/-- Sliding windows of a minute: that many requests for an address, one for a user. -/
def slidingAddress (limit : String) : Environment := fun name =>
  [("RATE_LIMIT_IP_ALGORITHM", "sliding-window"), ("RATE_LIMIT_IP_LIMIT", limit),
    ("RATE_LIMIT_USER_LIMIT", "1")].lookup name

def portfolioBy (userId : String) (now : Rat) : RateLimitCall :=
  .check (requestOf "GET" "/portfolio" userId) none false now

/-- One request a minute under both policies: alice's second finds room under neither. -/
theorem rejections_caused_both_full :
    let config := loadRateLimitConfiguration (plainConversions none) (slidingAddress "1")
    ∃ past service, past.reverse.map Prod.fst = [portfolioBy "alice" 0, portfolioBy "alice" 5] ∧
      (machine (plainConversions none) config).Run (SlidingWindows (plainConversions none) config)
        past service ∧ RejectionsCaused (plainConversions none) config past := by
  intro config
  have seen : ∃ moment ∈ (machine (plainConversions none) config).play
      (fun past service call => SlidingWindows (plainConversions none) config past service call ∧
        Unanimous (plainConversions none) config service call) ⟨[], initial⟩
        [portfolioBy "alice" 0, portfolioBy "alice" 5],
      moment.past.reverse.map Prod.fst = [portfolioBy "alice" 0, portfolioBy "alice" 5] := by
    decide +kernel
  obtain ⟨moment, played, calls⟩ := seen
  obtain ⟨run, unanimous⟩ := (Machine.play_run played).each_of_permit
  exact ⟨moment.past, moment.state, calls, run, (rejections_caused_iff run).mpr unanimous⟩

/-- Alice's second request is rejected for her user and fills the window of the address, so that
    bob's first is rejected although one request alone was allowed before. -/
theorem denied_request_fills_address : ¬ ∀ conversions config past service,
    (machine conversions config).Run (SlidingWindows conversions config) past service →
    ∀ e ∈ past.head?, rejects e.2 = true → ∃ limit ∈ limitsOf conversions config e.1,
      limit.policy.limit ≤ admittedSince conversions config past.tail limit e.1.now := by
  intro caused
  let config := loadRateLimitConfiguration (plainConversions none) (slidingAddress "2")
  have seen : ∃ moment ∈ (machine (plainConversions none) config).play
      (SlidingWindows (plainConversions none) config) ⟨[], initial⟩
        [portfolioBy "alice" 0, portfolioBy "alice" 5, portfolioBy "bob" 9],
      ∃ e ∈ moment.past.head?, rejects e.2 = true ∧
        ∀ limit ∈ limitsOf (plainConversions none) config e.1, ¬ limit.policy.limit ≤
          admittedSince (plainConversions none) config moment.past.tail limit e.1.now := by
    decide +kernel
  obtain ⟨moment, played, e, newest, denied, few⟩ := seen
  obtain ⟨limit, member, full⟩ := caused (plainConversions none) config moment.past moment.state
    (Machine.play_run played) e newest denied
  exact few limit member full

end AstraPort.RateLimit.RateLimitService
