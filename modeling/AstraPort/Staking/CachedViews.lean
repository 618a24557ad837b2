import AstraPort.Staking.Ledger

/- Cached portfolio views and aggregated yields are never stale: a live entry is the value
   its staker's present positions give, because every call that replaces the positions drops
   both entries of the staker. -/
namespace AstraPort.Staking
namespace PortfolioService

theorem viewKey_inj {a b : String} : viewKey a = viewKey b ↔ a = b := String.append_right_inj _

theorem yieldKey_inj {a b : String} : yieldKey a = yieldKey b ↔ a = b := String.append_right_inj _

/- The two kinds of key differ in their first character. -/
theorem viewKey_ne_yieldKey (a b : String) : viewKey a ≠ yieldKey b := by
  intro same
  have joined : "portfolio:" ++ a = "aggregated-yield:" ++ b := same
  have chars := congrArg String.toList joined
  rw [String.toList_append, String.toList_append] at chars
  have portfolio : "portfolio:".toList = 'p' :: "ortfolio:".toList := by decide
  have aggregated : "aggregated-yield:".toList = 'a' :: "ggregated-yield:".toList := by decide
  rw [portfolio, aggregated, List.cons_append, List.cons_append] at chars
  exact absurd (List.cons.inj chars).1 (by decide)

/-- What the cache holds under a key is what the positions of the staker give now. -/
def Current (service : PortfolioService) (key stakerId : String)
    (compute : List InternalPosition → CachedValue) : Prop :=
  ∀ entry, service.cache.get key = some entry →
    ∃ positions, service.portfolioData.get stakerId = some positions ∧
      entry.value = compute positions

def viewOf (stakerId : String) (positions : List InternalPosition) : CachedValue :=
  .view (computeView stakerId positions)

def yieldOf (stakerId : String) (positions : List InternalPosition) : CachedValue :=
  .aggregated (computeYield stakerId positions)

def Coherent (service : PortfolioService) : Prop :=
  ∀ stakerId, service.Current (viewKey stakerId) stakerId (viewOf stakerId) ∧
    service.Current (yieldKey stakerId) stakerId (yieldOf stakerId)

section Steps
variable {service : PortfolioService} {key stakerId : String}
  {compute : List InternalPosition → CachedValue}

theorem invalidateCache_get (service : PortfolioService) (staker key : String) :
    (service.invalidateCache staker).cache.get key =
      if key = viewKey staker ∨ key = yieldKey staker then none else service.cache.get key := by
  rw [invalidateCache]
  by_cases yields : key = yieldKey staker
  · simp [yields]
  · rw [InsertionMap.get_delete_ne _ yields]
    by_cases views : key = viewKey staker
    · simp [views]
    · rw [InsertionMap.get_delete_ne _ views, if_neg (by simp [views, yields])]

/- New positions, with the entries of their staker dropped. -/
theorem Coherent.replaced (coherent : service.Coherent) (staker : String)
    (positions : List InternalPosition) :
    ({ service with portfolioData := service.portfolioData.set staker positions }.invalidateCache
      staker).Coherent := by
  have kept {key other : String} {compute : List InternalPosition → CachedValue}
      (current : service.Current key other compute)
      (dropped : other = staker → key = viewKey staker ∨ key = yieldKey staker) :
      ({ service with portfolioData := service.portfolioData.set staker positions }.invalidateCache
        staker).Current key other compute := by
    intro entry found
    rw [invalidateCache_get] at found
    split at found
    · cases found
    · rename_i live
      have apart : other ≠ staker := fun same => live (dropped same)
      rw [invalidateCache_data, InsertionMap.get_set_ne _ _ apart]
      exact current entry found
  intro other
  exact ⟨kept (coherent other).1 (by rintro rfl; exact Or.inl rfl),
    kept (coherent other).2 (by rintro rfl; exact Or.inr rfl)⟩

theorem Coherent.dropped (coherent : service.Coherent) (staker : String) :
    (service.invalidateCache staker).Coherent := by
  have kept {key other : String} {compute : List InternalPosition → CachedValue}
      (current : service.Current key other compute) :
      (service.invalidateCache staker).Current key other compute := by
    intro entry found
    rw [invalidateCache_get] at found
    split at found
    · cases found
    · exact current entry found
  exact fun other => ⟨kept (coherent other).1, kept (coherent other).2⟩

theorem Coherent.stakeMulti (coherent : service.Coherent) (request : MultiAssetStakeRequest)
    (now : Int) : (service.stakeMulti request now).1.Coherent := by
  unfold PortfolioService.stakeMulti
  split
  · exact coherent
  · exact coherent.replaced _ _

theorem Coherent.withdrawMulti (coherent : service.Coherent) (request : MultiAssetWithdrawRequest)
    (now : Int) : (service.withdrawMulti request now).1.Coherent := by
  unfold PortfolioService.withdrawMulti
  split
  · exact coherent
  · exact coherent.replaced _ _
  · exact coherent
  · exact coherent
  · split
    · exact coherent.dropped _
    · exact coherent

/- A lookup returns the live entry of the key, and forgets an expired one. -/
theorem getCache_cases (service : PortfolioService) (key : String) (now : Int) :
    (∃ entry, service.cache.get key = some entry ∧
      service.getCache key now = (service, some entry.value)) ∨
    service.getCache key now = ({ service with cache := service.cache.delete key }, none) := by
  unfold getCache
  split
  · rename_i entry found
    split
    · exact Or.inr rfl
    · exact Or.inl ⟨entry, found, rfl⟩
  · exact Or.inr rfl

/- Reading through the cache gives what the positions give, and keeps every other entry. -/
theorem readThrough_cases (current : service.Current key stakerId compute) (now : Int) :
    (∀ value, (service.readThrough key stakerId compute now).2 = .ok value →
      ∃ positions, service.portfolioData.get stakerId = some positions ∧
        value = compute positions) ∧
    (service.readThrough key stakerId compute now).1.Current key stakerId compute ∧
    ∀ other, other ≠ key → (service.readThrough key stakerId compute now).1.cache.get other =
      service.cache.get other := by
  rcases getCache_cases service key now with ⟨entry, found, hit⟩ | missed
  · rw [readThrough, hit]
    refine ⟨?_, current, fun _ _ => rfl⟩
    intro value answered
    obtain ⟨positions, held, same⟩ := current entry found
    exact ⟨positions, held, (Except.ok.inj answered).symm.trans same⟩
  · rw [readThrough, missed]
    dsimp only
    cases held : service.portfolioData.get stakerId with
    | none =>
      have refused : ∃ thrown, positionsOrThrow { service with cache := service.cache.delete key }
          stakerId = .error thrown := by
        simp only [positionsOrThrow, held]
        split <;> exact ⟨_, rfl⟩
      obtain ⟨thrown, refused⟩ := refused
      rw [refused]
      refine ⟨by simp, ?_, fun other apart => InsertionMap.get_delete_ne _ apart⟩
      intro entry found
      simp at found
    | some positions =>
      have listed : positionsOrThrow { service with cache := service.cache.delete key } stakerId =
          .ok positions := by simp [positionsOrThrow, held]
      rw [listed]
      refine ⟨?_, ?_, ?_⟩
      · intro value answered
        exact ⟨positions, rfl, (Except.ok.inj answered).symm⟩
      · intro entry found
        simp only [setCache, InsertionMap.get_set_self, Option.some.injEq] at found
        exact ⟨positions, held, by rw [← found]⟩
      · intro other apart
        simp only [setCache]
        rw [InsertionMap.get_set_ne _ _ apart, InsertionMap.get_delete_ne _ apart]

theorem Current.kept {after : PortfolioService} (current : service.Current key stakerId compute)
    (cached : after.cache.get key = service.cache.get key)
    (data : after.portfolioData = service.portfolioData) : after.Current key stakerId compute := by
  intro entry found
  rw [data]
  exact current entry (cached ▸ found)

theorem Coherent.getPortfolioView (coherent : service.Coherent) (staker : String) (now : Int) :
    (service.getPortfolioView staker now).1.Coherent := by
  obtain ⟨_, own, others⟩ := readThrough_cases (coherent staker).1 now
  intro other
  constructor
  · by_cases same : other = staker
    · rw [same]
      exact own
    · exact (coherent other).1.kept (others _ (mt viewKey_inj.mp same)) (readThrough_data ..)
  · exact (coherent other).2.kept (others _ (viewKey_ne_yieldKey _ _).symm) (readThrough_data ..)

theorem Coherent.getAggregatedYield (coherent : service.Coherent) (staker : String) (now : Int) :
    (service.getAggregatedYield staker now).1.Coherent := by
  obtain ⟨_, own, others⟩ := readThrough_cases (coherent staker).2 now
  intro other
  constructor
  · exact (coherent other).1.kept (others _ (viewKey_ne_yieldKey _ _)) (readThrough_data ..)
  · by_cases same : other = staker
    · rw [same]
      exact own
    · exact (coherent other).2.kept (others _ (mt yieldKey_inj.mp same)) (readThrough_data ..)

end Steps

theorem coherent_run {permit : Machine.Permit PortfolioService PortfolioCall PortfolioAnswer}
    {past : List (PortfolioCall × PortfolioAnswer)} {service : PortfolioService}
    (run : portfolioMachine.Run permit past service) : service.Coherent := by
  refine run.invariant (fun _ service => service.Coherent) ?_ ?_
  · intro staker
    constructor <;> intro entry found <;> cases found
  · intro past service call after answer _ coherent _ moved
    cases call with
    | stakeMulti request now =>
      simp only [portfolioMachine, portfolioStep, Option.some.injEq, Prod.mk.injEq] at moved
      obtain ⟨rfl, rfl⟩ := moved
      exact coherent.stakeMulti request now
    | withdrawMulti request now =>
      simp only [portfolioMachine, portfolioStep, Option.some.injEq, Prod.mk.injEq] at moved
      obtain ⟨rfl, rfl⟩ := moved
      exact coherent.withdrawMulti request now
    | getPortfolioView staker now =>
      simp only [portfolioMachine, portfolioStep, Option.some.injEq, Prod.mk.injEq] at moved
      obtain ⟨rfl, rfl⟩ := moved
      exact coherent.getPortfolioView staker now
    | getAggregatedYield staker now =>
      simp only [portfolioMachine, portfolioStep, Option.some.injEq, Prod.mk.injEq] at moved
      obtain ⟨rfl, rfl⟩ := moved
      exact coherent.getAggregatedYield staker now

/-- A view or a yield that is returned is what the staker's positions give at that moment,
    from the cache or not. -/
theorem cached_views_coherent {past : List (PortfolioCall × PortfolioAnswer)}
    {service : PortfolioService} (run : portfolioMachine.Run Machine.anything past service)
    (staker : String) (now : Int) :
    (∀ value, (service.getPortfolioView staker now).2 = .ok value →
      ∃ positions, service.portfolioData.get staker = some positions ∧
        value = .view (computeView staker positions)) ∧
    (∀ value, (service.getAggregatedYield staker now).2 = .ok value →
      ∃ positions, service.portfolioData.get staker = some positions ∧
        value = .aggregated (computeYield staker positions)) :=
  have coherent := coherent_run run staker
  ⟨(readThrough_cases coherent.1 now).1, (readThrough_cases coherent.2 now).1⟩

/-- Ten staked, viewed, and four withdrawn a month later: the next view is not the old one. -/
theorem cached_views_coherent_after_withdrawal :
    let staked := initial.stakeMulti stakeTen 0
    let viewed := staked.1.getPortfolioView "alice" 2599900000
    let withdrawn := viewed.1.withdrawMulti withdrawTwice 2600000000
    ∀ value, (withdrawn.1.getPortfolioView "alice" 2600000001).2 = .ok value →
      ∃ positions, withdrawn.1.portfolioData.get "alice" = some positions ∧
        value = .view (computeView "alice" positions) := by
  intro staked viewed withdrawn
  have first : portfolioMachine.Run Machine.anything
      [(.stakeMulti stakeTen 0, answering (.staked "alice") staked.2)] staked.1 :=
    Machine.Run.start.next trivial rfl
  have second : portfolioMachine.Run Machine.anything
      [(.getPortfolioView "alice" 2599900000, answering .shown viewed.2),
       (.stakeMulti stakeTen 0, answering (.staked "alice") staked.2)] viewed.1 :=
    first.next trivial rfl
  have third : portfolioMachine.Run Machine.anything
      [(.withdrawMulti withdrawTwice 2600000000, answering (.withdrew "alice") withdrawn.2),
       (.getPortfolioView "alice" 2599900000, answering .shown viewed.2),
       (.stakeMulti stakeTen 0, answering (.staked "alice") staked.2)] withdrawn.1 :=
    second.next trivial rfl
  exact (cached_views_coherent third "alice" 2600000001).1

example :
    let viewed := ((initial.stakeMulti stakeTen 0).1.getPortfolioView "alice" 2599900000).1
    (viewed.getPortfolioView "alice" 2600000000).1.cache.get (viewKey "alice") =
      viewed.cache.get (viewKey "alice") := by decide +kernel

end PortfolioService
end AstraPort.Staking
