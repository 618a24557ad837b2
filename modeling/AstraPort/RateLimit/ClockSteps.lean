import Mathlib.Tactic.FieldSimp
import Mathlib.Tactic.Positivity
import AstraPort.RateLimit.Reports

/- The token bucket under a clock that also steps back. The elapsed time of a consume is never
   negative, but the moment of the last refill follows the clock down, so every way up is
   refilled again. -/
namespace AstraPort.RateLimit
open TokenBucketRateLimiter

/-- All forward steps of the clock together, from a reading on. -/
def ascent (last : Rat) : List Rat → Rat
  | [] => 0
  | now :: later => max 0 (now - last) + ascent now later

def highest (first : Rat) (rest : List Rat) : Rat := rest.foldr max first

def lowest (first : Rat) (rest : List Rat) : Rat := rest.foldr min first

/-- So many consumes at each reading, and one more. -/
def callsOf (bursts : List (Rat × Nat)) : List Rat :=
  bursts.flatMap fun burst => List.replicate (burst.2 + 1) burst.1

/-- Consumes of one key, one after another, and how many of them are allowed. -/
def consumeAll (buckets : TokenBucketRateLimiter) (key : String) (policy : RateLimitPolicy) :
    List Rat → TokenBucketRateLimiter × Nat
  | [] => (buckets, 0)
  | now :: later =>
    let next := consume buckets key policy now
    let rest := consumeAll next.1 key policy later
    (rest.1, rest.2 + if next.2.allowed then 1 else 0)

/-- The bound: a full bucket, and what is refilled between the smallest and the largest reading. -/
def WithinBound (buckets : TokenBucketRateLimiter) (key : String) (policy : RateLimitPolicy)
    (calls : List Rat) : Prop :=
  ∀ first rest, calls = first :: rest →
    ((consumeAll buckets key policy calls).2 : Rat) ≤ policy.limit +
      policy.limit * (highest first rest - lowest first rest) / policy.windowMs

/-- The tokens of a bucket through the same consumes, and how many are spent. -/
def spendAll (policy : RateLimitPolicy) (tokens last : Rat) : List Rat → Rat × Nat
  | [] => (tokens, 0)
  | now :: later =>
    let level := min policy.limit (tokens + max 0 (now - last) * refillRate policy)
    let rest := spendAll policy (spend level) now later
    (rest.1, rest.2 + if 1 ≤ level then 1 else 0)

section Readings

theorem ascent_nonneg (last : Rat) (readings : List Rat) : 0 ≤ ascent last readings := by
  induction readings generalizing last with
  | nil => exact le_refl 0
  | cons now later ih => exact add_nonneg (le_max_left _ _) (ih now)

theorem ascent_repeated (now : Rat) (times : Nat) (later : List Rat) :
    ascent now (List.replicate times now ++ later) = ascent now later := by
  induction times with
  | zero => rfl
  | succ n ih =>
    rw [List.replicate_succ, List.cons_append, ascent, sub_self, max_self, zero_add]
    exact ih

theorem ascent_callsOf (last : Rat) (bursts : List (Rat × Nat)) :
    ascent last (callsOf bursts) = ascent last (bursts.map Prod.fst) := by
  induction bursts generalizing last with
  | nil => rfl
  | cons burst rest ih =>
    obtain ⟨now, times⟩ := burst
    have calls : callsOf ((now, times) :: rest) =
        now :: (List.replicate times now ++ callsOf rest) := rfl
    rw [calls, List.map_cons, ascent, ascent, ascent_repeated, ih]

theorem mem_callsOf (bursts : List (Rat × Nat)) (t : Rat) :
    t ∈ callsOf bursts ↔ t ∈ bursts.map Prod.fst := by
  simp only [callsOf, List.mem_flatMap, List.mem_replicate, List.mem_map]
  constructor
  · rintro ⟨burst, member, _, rfl⟩
    exact ⟨burst, member, rfl⟩
  · rintro ⟨burst, member, rfl⟩
    exact ⟨burst, member, Nat.succ_ne_zero _, rfl⟩

/- A fold that picks one of two ends at one of the readings, ahead of all the others. -/
theorem picked_mem {pick : Rat → Rat → Rat} (picks : ∀ a b, pick a b = a ∨ pick a b = b)
    (first : Rat) (rest : List Rat) : rest.foldr pick first ∈ first :: rest := by
  induction rest with
  | nil => exact List.mem_singleton.mpr rfl
  | cons now later ih =>
    rw [List.foldr_cons]
    simp only [List.mem_cons] at ih ⊢
    rcases picks now (later.foldr pick first) with newer | older
    · exact Or.inr (Or.inl newer)
    · rw [older]
      tauto

theorem picked_ahead {pick : Rat → Rat → Rat} (ahead : Rat → Rat → Prop)
    (refl : ∀ a, ahead a a) (trans : ∀ a b c, ahead a b → ahead b c → ahead a c)
    (left : ∀ a b, ahead (pick a b) a) (right : ∀ a b, ahead (pick a b) b)
    (first : Rat) (rest : List Rat) : ∀ t ∈ first :: rest, ahead (rest.foldr pick first) t := by
  induction rest with
  | nil =>
    intro t member
    rw [List.mem_singleton.mp member]
    exact refl first
  | cons now later ih =>
    intro t member
    have split : t = now ∨ t ∈ first :: later := by
      simp only [List.mem_cons] at member ⊢
      tauto
    rcases split with rfl | before
    · exact left t _
    · exact trans _ _ _ (right now _) (ih t before)

theorem le_highest (first : Rat) (rest : List Rat) :
    ∀ t ∈ first :: rest, t ≤ highest first rest := by
  apply picked_ahead (fun extreme t : Rat => t ≤ extreme)
  · exact fun a => le_refl a
  · exact fun _ _ _ up more => more.trans up
  · exact le_max_left
  · exact le_max_right

theorem lowest_le (first : Rat) (rest : List Rat) :
    ∀ t ∈ first :: rest, lowest first rest ≤ t := by
  apply picked_ahead (fun extreme t : Rat => extreme ≤ t)
  · exact fun a => le_refl a
  · exact fun _ _ _ down more => down.trans more
  · exact min_le_left
  · exact min_le_right

theorem highest_mem (first : Rat) (rest : List Rat) : highest first rest ∈ first :: rest :=
  picked_mem max_choice first rest

theorem lowest_mem (first : Rat) (rest : List Rat) : lowest first rest ∈ first :: rest :=
  picked_mem min_choice first rest

/- The extremes depend on the readings that occur, not on how often. -/
theorem extremes_congr {first other : Rat} {rest more : List Rat}
    (same : ∀ t, t ∈ first :: rest ↔ t ∈ other :: more) :
    highest first rest = highest other more ∧ lowest first rest = lowest other more := by
  constructor
  · apply le_antisymm
    · exact le_highest other more _ ((same _).mp (highest_mem first rest))
    · exact le_highest first rest _ ((same _).mpr (highest_mem other more))
  · apply le_antisymm
    · exact lowest_le first rest _ ((same _).mpr (lowest_mem other more))
    · exact lowest_le other more _ ((same _).mp (lowest_mem first rest))

end Readings

section Spending
variable {policy : UsablePolicy}

theorem spend_conserves (level : Rat) :
    spend level + ((if 1 ≤ level then 1 else 0 : Nat) : Rat) = level := by
  unfold spend
  split
  · push_cast
    ring
  · push_cast
    ring

theorem spend_nonneg {level : Rat} (nonneg : 0 ≤ level) : 0 ≤ spend level := by
  unfold spend
  split
  · linarith
  · exact nonneg

/- The limiter's count is that of its bucket. -/
theorem consumeAll_spends {buckets : TokenBucketRateLimiter} {key : String}
    {bucket : TokenBucketState} (own : OwnBucket policy buckets key bucket) (calls : List Rat) :
    (consumeAll buckets key policy.toRateLimitPolicy calls).2 =
      (spendAll policy.toRateLimitPolicy bucket.tokens bucket.lastRefill calls).2 := by
  induction calls generalizing buckets bucket with
  | nil => rfl
  | cons now later ih =>
    have after := consume_own buckets key policy now
    rw [own.bucketFor now] at after
    have rest := ih after
    have allowed : (consume buckets key policy.toRateLimitPolicy now).2.allowed =
        decide (1 ≤ refilledTokens bucket policy.toRateLimitPolicy now) := by
      simp only [consume, own.bucketFor now]
    simp only [consumeAll, spendAll, rest, allowed, decide_eq_true_eq]
    rfl

theorem consumeAll_fresh {buckets : TokenBucketRateLimiter} {key : String}
    (fresh : buckets.get key = none) (first : Rat) (rest : List Rat) :
    (consumeAll buckets key policy.toRateLimitPolicy (first :: rest)).2 =
      (spendAll policy.toRateLimitPolicy policy.limit first (first :: rest)).2 := by
  have start : bucketFor buckets key policy.toRateLimitPolicy first =
      fullBucket policy.toRateLimitPolicy first := by
    rw [bucketFor, fresh]
  have after := consume_own buckets key policy first
  rw [start] at after
  have later := consumeAll_spends after rest
  have allowed : (consume buckets key policy.toRateLimitPolicy first).2.allowed =
      decide (1 ≤ refilledTokens (fullBucket policy.toRateLimitPolicy first)
        policy.toRateLimitPolicy first) := by
    simp only [consume, start]
  simp only [consumeAll, spendAll, later, allowed, decide_eq_true_eq]
  rfl

/- What is spent and what is left come from the tokens at the start and the way up. -/
theorem spendAll_bounded (policy : UsablePolicy) {tokens : Rat} (nonneg : 0 ≤ tokens) (last : Rat)
    (calls : List Rat) : 0 ≤ (spendAll policy.toRateLimitPolicy tokens last calls).1 ∧
      (spendAll policy.toRateLimitPolicy tokens last calls).1 +
        (spendAll policy.toRateLimitPolicy tokens last calls).2 ≤
          tokens + refillRate policy.toRateLimitPolicy * ascent last calls := by
  have rate := rate_pos policy
  have requests := policy.some_request
  induction calls generalizing tokens last with
  | nil => simp [spendAll, ascent, nonneg]
  | cons now later ih =>
    have gained : 0 ≤ max 0 (now - last) * refillRate policy.toRateLimitPolicy :=
      mul_nonneg (le_max_left _ _) rate.le
    have capped := min_le_right policy.limit
      (tokens + max 0 (now - last) * refillRate policy.toRateLimitPolicy)
    have level_nonneg : 0 ≤ min policy.limit
        (tokens + max 0 (now - last) * refillRate policy.toRateLimitPolicy) :=
      le_min (by linarith) (by linarith)
    simp only [spendAll, ascent]
    generalize min policy.limit
      (tokens + max 0 (now - last) * refillRate policy.toRateLimitPolicy) = level at *
    have kept := spend_conserves level
    obtain ⟨rest_nonneg, rest⟩ := ih (spend_nonneg level_nonneg) now
    refine ⟨rest_nonneg, ?_⟩
    push_cast at kept rest ⊢
    linarith

theorem refilled_over (policy : RateLimitPolicy) (span : Rat) :
    policy.limit * span / policy.windowMs = refillRate policy * span := by
  rw [refillRate, div_mul_eq_mul_div]

theorem bound_of_ascent {buckets : TokenBucketRateLimiter} {key : String}
    (fresh : buckets.get key = none) {first : Rat} {rest : List Rat}
    (spanned : ascent first rest ≤ highest first rest - lowest first rest) :
    WithinBound buckets key policy.toRateLimitPolicy (first :: rest) := by
  intro first' rest' same
  obtain ⟨rfl, rfl⟩ := List.cons.inj same
  have rate := rate_pos policy
  have requests := policy.some_request
  obtain ⟨left, spent⟩ := spendAll_bounded policy (zero_le_one.trans requests) first (first :: rest)
  rw [ascent, sub_self, max_self, zero_add] at spent
  rw [consumeAll_fresh fresh]
  have paid := mul_le_mul_of_nonneg_left spanned rate.le
  rw [refilled_over]
  linarith

/- Enough consumes at one instant leave less than one token. -/
theorem burst_drains (now : Rat) (times : Nat) {tokens : Rat} (nonneg : 0 ≤ tokens)
    (capped : tokens ≤ policy.limit) (later : List Rat) :
    ∃ left spent, 0 ≤ left ∧ left + (spent : Nat) = tokens ∧ (left < 1 ∨ spent = times) ∧
      spendAll policy.toRateLimitPolicy tokens now (List.replicate times now ++ later) =
        ((spendAll policy.toRateLimitPolicy left now later).1,
          (spendAll policy.toRateLimitPolicy left now later).2 + spent) := by
  induction times generalizing tokens with
  | zero => exact ⟨tokens, 0, nonneg, by simp, Or.inr rfl, rfl⟩
  | succ n ih =>
    have level : min policy.limit
        (tokens + max 0 (now - now) * refillRate policy.toRateLimitPolicy) = tokens := by
      rw [sub_self, max_self, zero_mul, add_zero, min_eq_right capped]
    have kept := spend_conserves tokens
    have fits : spend tokens ≤ policy.limit := by
      unfold spend
      split <;> linarith
    obtain ⟨left, spent, left_nonneg, together, drained, run⟩ := ih (spend_nonneg nonneg) fits
    refine ⟨left, spent + (if 1 ≤ tokens then 1 else 0), left_nonneg, ?_, ?_, ?_⟩
    · push_cast at kept ⊢
      linarith
    · rcases drained with low | all_spent
      · exact Or.inl low
      · by_cases enough : 1 ≤ tokens
        · exact Or.inr (by rw [if_pos enough, all_spent])
        · -- nothing was left to spend, so less than one token is left now
          left
          have spent_nonneg : (0 : Rat) ≤ spent := Nat.cast_nonneg spent
          rw [if_neg enough] at kept
          push_cast at kept
          linarith
    · rw [List.replicate_succ, List.cons_append]
      simp only [spendAll, level, run]
      rw [Nat.add_assoc]

/- A reading at which the key is consumed until it is refused, with a bucket it does not fill. -/
theorem reading_drains (policy : UsablePolicy) {limit : Nat} (whole : policy.limit = limit)
    {tokens last now : Rat} (nonneg : 0 ≤ tokens)
    (fits : tokens + max 0 (now - last) * refillRate policy.toRateLimitPolicy ≤ policy.limit)
    (later : List Rat) :
    ∃ left spent, 0 ≤ left ∧ left < 1 ∧ left + (spent : Nat) =
        tokens + max 0 (now - last) * refillRate policy.toRateLimitPolicy ∧
      spendAll policy.toRateLimitPolicy tokens last (List.replicate (limit + 1) now ++ later) =
        ((spendAll policy.toRateLimitPolicy left now later).1,
          (spendAll policy.toRateLimitPolicy left now later).2 + spent) := by
  have rate := rate_pos policy
  have gained : 0 ≤ max 0 (now - last) * refillRate policy.toRateLimitPolicy :=
    mul_nonneg (le_max_left _ _) rate.le
  have level_nonneg := add_nonneg nonneg gained
  obtain ⟨left, spent, left_nonneg, together, drained, run⟩ :=
    burst_drains now (limit + 1) level_nonneg fits later
  have same : spendAll policy.toRateLimitPolicy tokens last
      (List.replicate (limit + 1) now ++ later) = spendAll policy.toRateLimitPolicy
        (tokens + max 0 (now - last) * refillRate policy.toRateLimitPolicy) now
        (List.replicate (limit + 1) now ++ later) := by
    rw [List.replicate_succ, List.cons_append]
    simp only [spendAll, sub_self, max_self, zero_mul, add_zero, min_eq_right fits]
  refine ⟨left, spent, left_nonneg, ?_, together, same.trans run⟩
  rcases drained with low | all_spent
  · exact low
  · rw [all_spent] at together
    push_cast at together
    linarith

theorem drained_run (policy : UsablePolicy) {limit : Nat} (whole : policy.limit = limit)
    (readings : List Rat) {tokens last : Rat} (nonneg : 0 ≤ tokens) (low : tokens < 1)
    (room : 1 + refillRate policy.toRateLimitPolicy * ascent last readings ≤ policy.limit) :
    (spendAll policy.toRateLimitPolicy tokens last
        (callsOf (readings.map fun t => (t, limit)))).1 < 1 ∧
      (spendAll policy.toRateLimitPolicy tokens last
        (callsOf (readings.map fun t => (t, limit)))).1 +
        (spendAll policy.toRateLimitPolicy tokens last
          (callsOf (readings.map fun t => (t, limit)))).2 =
        tokens + refillRate policy.toRateLimitPolicy * ascent last readings := by
  induction readings generalizing tokens last with
  | nil => simp [spendAll, ascent, callsOf, low]
  | cons now later ih =>
    have rate := rate_pos policy
    have calls : callsOf ((now :: later).map fun t => (t, limit)) =
        List.replicate (limit + 1) now ++ callsOf (later.map fun t => (t, limit)) := rfl
    rw [ascent, mul_add] at room
    have ahead := mul_nonneg rate.le (ascent_nonneg now later)
    have gained : 0 ≤ refillRate policy.toRateLimitPolicy * max 0 (now - last) :=
      mul_nonneg rate.le (le_max_left _ _)
    obtain ⟨left, spent, left_nonneg, left_low, together, run⟩ := reading_drains policy whole nonneg
      (by linarith) (callsOf (later.map fun t => (t, limit)))
    obtain ⟨end_low, total⟩ := ih left_nonneg left_low (by linarith)
    rw [calls, run, ascent, mul_add]
    refine ⟨end_low, ?_⟩
    push_cast
    linarith

/- A key consumed until it is refused at each reading gets all that is refilled, up to a part of
   one token. -/
theorem greedy_allows (policy : UsablePolicy) {limit : Nat} (whole : policy.limit = limit)
    {buckets : TokenBucketRateLimiter} {key : String} (fresh : buckets.get key = none)
    (first : Rat) (rest : List Rat)
    (room : 1 + refillRate policy.toRateLimitPolicy * ascent first rest ≤ policy.limit) :
    policy.limit + refillRate policy.toRateLimitPolicy * ascent first rest <
      ((consumeAll buckets key policy.toRateLimitPolicy
        (callsOf ((first :: rest).map fun t => (t, limit)))).2 : Rat) + 1 := by
  have full_nonneg : 0 ≤ policy.limit := zero_le_one.trans policy.some_request
  have fits : policy.limit + max 0 (first - first) * refillRate policy.toRateLimitPolicy ≤
      policy.limit := by
    rw [sub_self, max_self, zero_mul, add_zero]
  obtain ⟨left, spent, left_nonneg, left_low, together, run⟩ := reading_drains policy whole
    full_nonneg fits (callsOf (rest.map fun t => (t, limit)))
  obtain ⟨end_low, total⟩ := drained_run policy whole rest left_nonneg left_low room
  have calls : callsOf ((first :: rest).map fun t => (t, limit)) =
      first :: (List.replicate limit first ++ callsOf (rest.map fun t => (t, limit))) := rfl
  have same_calls : callsOf ((first :: rest).map fun t => (t, limit)) =
      List.replicate (limit + 1) first ++ callsOf (rest.map fun t => (t, limit)) := rfl
  rw [calls, consumeAll_fresh fresh, ← calls, same_calls, run]
  rw [sub_self, max_self, zero_mul, add_zero] at together
  push_cast
  linarith

end Spending

/-- A policy under which the whole way up is refilled, and the excess is worth a token. -/
def tellingPolicy (up excess : Rat) (up_nonneg : 0 ≤ up) (limit : Nat)
    (enough : limit = ⌈(1 + 2 * up) / excess⌉₊ + 2) : UsablePolicy where
  limit := limit
  windowMs := 1 + 2 * up
  algorithm := .tokenBucket
  whole_requests := ⟨limit, rfl⟩
  some_request := by
    rw [enough]
    push_cast
    linarith [Nat.cast_nonneg (α := Rat) ⌈(1 + 2 * up) / excess⌉₊]
  some_time := by linarith

theorem telling_refills {up excess : Rat} (up_nonneg : 0 ≤ up) (some_excess : 0 < excess)
    {limit : Nat} (enough : limit = ⌈(1 + 2 * up) / excess⌉₊ + 2) :
    1 + refillRate (tellingPolicy up excess up_nonneg limit enough).toRateLimitPolicy * up ≤ limit ∧
      1 ≤ refillRate (tellingPolicy up excess up_nonneg limit enough).toRateLimitPolicy * excess := by
  have rate_eq : refillRate (tellingPolicy up excess up_nonneg limit enough).toRateLimitPolicy =
      limit / (1 + 2 * up) := rfl
  have window : 0 < 1 + 2 * up := by linarith
  have limit_large : (1 + 2 * up) / excess + 2 ≤ limit := by
    rw [enough]
    push_cast
    linarith [Nat.le_ceil ((1 + 2 * up) / excess)]
  constructor
  · have half : limit / (1 + 2 * up) * up ≤ limit / 2 := by
      rw [div_mul_eq_mul_div, div_le_div_iff₀ window two_pos]
      linarith [Nat.cast_nonneg (α := Rat) limit]
    have least : (2 : Rat) ≤ limit := by
      have nonneg : 0 ≤ (1 + 2 * up) / excess := by positivity
      linarith
    rw [rate_eq]
    linarith
  · have worth : 1 + 2 * up ≤ limit * excess := by
      have above : (1 + 2 * up) / excess ≤ limit := by linarith
      rwa [div_le_iff₀ some_excess] at above
    rw [rate_eq, div_mul_eq_mul_div, le_div_iff₀ window]
    linarith

/- However often it is consumed at each reading, the way up of a clock and its extremes are
   those of its readings. -/
theorem ascent_of_calls {bursts : List (Rat × Nat)} {first first' : Rat} {rest rest' : List Rat}
    (readings : bursts.map Prod.fst = first :: rest) (calls : callsOf bursts = first' :: rest') :
    ascent first' rest' = ascent first rest := by
  cases bursts with
  | nil => cases calls
  | cons burst more =>
    obtain ⟨now, times⟩ := burst
    have split : callsOf ((now, times) :: more) =
        now :: (List.replicate times now ++ callsOf more) := rfl
    rw [split] at calls
    obtain ⟨rfl, rfl⟩ := List.cons.inj calls
    rw [List.map_cons] at readings
    obtain ⟨rfl, rfl⟩ := List.cons.inj readings
    rw [ascent_repeated, ascent_callsOf]

theorem extremes_of_calls {bursts : List (Rat × Nat)} {first first' : Rat} {rest rest' : List Rat}
    (readings : bursts.map Prod.fst = first :: rest) (calls : callsOf bursts = first' :: rest') :
    highest first' rest' = highest first rest ∧ lowest first' rest' = lowest first rest := by
  apply extremes_congr
  intro t
  rw [← calls, mem_callsOf, readings]

/-- Whatever the policy and however often the key is consumed at each reading, no tokens are
    created, exactly when the clock's forward steps add up to no more than the distance from
    its smallest to its largest reading. -/
theorem no_tokens_created_iff (first : Rat) (rest : List Rat) :
    (∀ (policy : UsablePolicy) (buckets : TokenBucketRateLimiter) (key : String)
        (bursts : List (Rat × Nat)), buckets.get key = none → bursts.map Prod.fst = first :: rest →
      WithinBound buckets key policy.toRateLimitPolicy (callsOf bursts)) ↔
      ascent first rest ≤ highest first rest - lowest first rest := by
  constructor
  · intro always
    by_contra exceeds
    have more := not_le.mp exceeds
    have up_nonneg := ascent_nonneg first rest
    have excess : 0 < ascent first rest - (highest first rest - lowest first rest) := by linarith
    obtain ⟨limit, enough⟩ : ∃ limit : Nat, limit = ⌈(1 + 2 * ascent first rest) /
      (ascent first rest - (highest first rest - lowest first rest))⌉₊ + 2 := ⟨_, rfl⟩
    obtain ⟨room, token⟩ := telling_refills up_nonneg excess enough
    let policy := tellingPolicy _ _ up_nonneg limit enough
    have readings : ((first :: rest).map fun t => (t, limit)).map Prod.fst = first :: rest := by
      rw [List.map_map]
      exact List.map_id _
    have calls : callsOf ((first :: rest).map fun t => (t, limit)) =
        first :: (List.replicate limit first ++ callsOf (rest.map fun t => (t, limit))) := rfl
    have allowed := greedy_allows policy (show policy.limit = (limit : Rat) from rfl)
      (InsertionMap.get_empty "") first rest room
    have within := always policy InsertionMap.empty "" _ rfl readings _ _ calls
    rw [(extremes_of_calls readings calls).1, (extremes_of_calls readings calls).2,
      refilled_over] at within
    linarith
  · intro spanned policy buckets key bursts fresh readings first' rest' calls
    have spanned' : ascent first' rest' ≤ highest first' rest' - lowest first' rest' := by
      rw [ascent_of_calls readings calls, (extremes_of_calls readings calls).1,
        (extremes_of_calls readings calls).2]
      exact spanned
    rw [calls]
    exact bound_of_ascent fresh spanned' first' rest' rfl

def oncePerSecond : UsablePolicy :=
  ⟨⟨1, 1000, .tokenBucket⟩, ⟨1, by decide⟩, by decide, by decide⟩

/- A second up, a second down, and up again: the second is refilled twice, and of the five
   consumes three are allowed where the bound is two. -/
theorem second_refilled_twice :
    ¬ ∀ (policy : UsablePolicy) (buckets : TokenBucketRateLimiter) (key : String)
      (calls : List Rat), buckets.get key = none →
      WithinBound buckets key policy.toRateLimitPolicy calls := by
  intro always
  have bound := always oncePerSecond InsertionMap.empty "k" [1000, 0, 1000, 0, 1000] rfl _ _ rfl
  revert bound
  decide +kernel

end AstraPort.RateLimit
