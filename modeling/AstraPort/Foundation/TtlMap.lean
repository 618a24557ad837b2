import AstraPort.Foundation.Machine

/- One unbounded map from keys to values with an expiry: what a cache means, with
   no capacity and no layers. Instants and lifetimes are milliseconds. -/
namespace AstraPort

structure TtlEntry (Value : Type) where
  value : Value
  expiry : Nat

def TtlMap (Key Value : Type) := Key → Option (TtlEntry Value)

/-- Calls on the map; `forget` drops every key its test names. -/
inductive TtlCall (Key Value : Type) where
  | get (key : Key) (now : Nat)
  | store (key : Key) (value : Value) (ttl now : Nat)
  | forget (gone : Key → Bool)

namespace TtlMap
variable {Key Value : Type}

def nothing : TtlMap Key Value := fun _ => none

def store [DecidableEq Key] (m : TtlMap Key Value) (key : Key) (value : Value) (expiry : Nat) :
    TtlMap Key Value := fun other => if other = key then some ⟨value, expiry⟩ else m other

def forget (m : TtlMap Key Value) (gone : Key → Bool) : TtlMap Key Value :=
  fun key => if gone key then none else m key

/-- The entry of a key as long as its expiry lies ahead. -/
def live (m : TtlMap Key Value) (now : Nat) (key : Key) : Option (TtlEntry Value) :=
  (m key).filter fun entry => decide (now < entry.expiry)

def look (m : TtlMap Key Value) (now : Nat) (key : Key) : Option Value :=
  (m.live now key).map TtlEntry.value

@[simp] theorem live_nothing (now : Nat) (key : Key) :
    (nothing : TtlMap Key Value).live now key = none := rfl

theorem live_some {m : TtlMap Key Value} {now : Nat} {key : Key} {entry : TtlEntry Value} :
    m.live now key = some entry ↔ m key = some entry ∧ now < entry.expiry := by
  simp [live, Option.filter_eq_some_iff]

theorem dead_stays_dead {m : TtlMap Key Value} {now later : Nat} {key : Key}
    (dead : m.live now key = none) (ahead : now ≤ later) : m.live later key = none := by
  simp only [live, Option.filter_eq_none_iff, decide_eq_true_eq] at dead ⊢
  intro entry present
  have expired := dead entry present
  omega

theorem live_store [DecidableEq Key] (m : TtlMap Key Value) (key other : Key) (value : Value)
    (expiry now : Nat) : (m.store key value expiry).live now other =
      if other = key then (if now < expiry then some ⟨value, expiry⟩ else none)
      else m.live now other := by
  unfold live store
  by_cases same : other = key
  · simp [same, Option.filter]
  · simp [same]

theorem live_forget (m : TtlMap Key Value) (gone : Key → Bool) (now : Nat) (key : Key) :
    (m.forget gone).live now key = if gone key then none else m.live now key := by
  unfold live forget
  cases gone key <;> simp

def step [DecidableEq Key] (m : TtlMap Key Value) :
    TtlCall Key Value → Option (TtlMap Key Value × Option Value)
  | .get key now => some (m, m.look now key)
  | .store key value ttl now => some (m.store key value (now + ttl), none)
  | .forget gone => some (m.forget gone, none)

def machine [DecidableEq Key] : Machine (TtlMap Key Value) (TtlCall Key Value) (Option Value) :=
  ⟨nothing, step⟩

/-- The value a history leaves for a key at an instant: that of the last store not
    forgotten since, before its expiry. -/
def latest [DecidableEq Key] (key : Key) (now : Nat) :
    List (TtlCall Key Value × Option Value) → Option Value
  | [] => none
  | (.get _ _, _) :: past => latest key now past
  | (.store other value ttl stored, _) :: past =>
    if key = other then (if now < stored + ttl then some value else none) else latest key now past
  | (.forget gone, _) :: past => if gone key then none else latest key now past

variable [DecidableEq Key]

theorem look_latest {past : List (TtlCall Key Value × Option Value)} {m : TtlMap Key Value}
    (run : (machine : Machine (TtlMap Key Value) _ _).Run Machine.anything past m) :
    ∀ key now, m.look now key = latest key now past := by
  refine run.invariant (fun past m => ∀ key now, m.look now key = latest key now past)
    (fun key now => rfl) ?_
  intro past m call m' answer _ known _ moved key now
  cases call with
  | get other at_time =>
    simp only [machine, step, Option.some.injEq, Prod.mk.injEq] at moved
    rw [← moved.1, latest, known]
  | store other value ttl stored =>
    simp only [machine, step, Option.some.injEq, Prod.mk.injEq] at moved
    rw [← moved.1, latest, look, live_store, ← known]
    split
    · split <;> rfl
    · rfl
  | forget gone =>
    simp only [machine, step, Option.some.injEq, Prod.mk.injEq] at moved
    rw [← moved.1, latest, look, live_forget, ← known]
    split <;> rfl

/-- A get answers from the last store of its key alone. -/
theorem answers_latest {past later earlier : List (TtlCall Key Value × Option Value)}
    {m : TtlMap Key Value} {key : Key} {now : Nat} {answer : Option Value}
    (run : (machine : Machine (TtlMap Key Value) _ _).Run Machine.anything past m)
    (split : past = later ++ (.get key now, answer) :: earlier) :
    answer = latest key now earlier := by
  obtain ⟨before, after, runBefore, _, moved⟩ := run.exchange split
  simp only [machine, step, Option.some.injEq, Prod.mk.injEq] at moved
  rw [← moved.2, look_latest runBefore]

end TtlMap
end AstraPort
