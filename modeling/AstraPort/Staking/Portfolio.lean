import AstraPort.Foundation.Host
import AstraPort.Foundation.InsertionMap
import AstraPort.Foundation.Machine

/- PortfolioService: multi-asset staking positions with a 300-second view cache.
   Amounts, rates and terms are exact rationals; instants are epoch milliseconds. -/
namespace AstraPort.Staking

structure AssetInfo where
  assetId : String
  displayName : String
  minStake : Rat
  maxStake : Rat
  deriving DecidableEq

structure AssetRate where
  assetId : String
  yieldRate : Rat
  termDays : Nat
  deriving DecidableEq

def supportedAssets : List AssetInfo :=
  [⟨"ASTR", "Astra Token", 10, 100000⟩, ⟨"USDC", "USD Coin", 50, 500000⟩,
   ⟨"ETH", "Ethereum", 1 / 10, 1000⟩]

def assetRates : List AssetRate :=
  [⟨"ASTR", 65 / 1000, 30⟩, ⟨"USDC", 45 / 1000, 30⟩, ⟨"ETH", 55 / 1000, 45⟩]

def getAssets : List AssetInfo := supportedAssets

def getRatesByAssetId (assetId : String) : Option AssetRate :=
  assetRates.find? fun rate => rate.assetId = assetId

structure StakingAssetRequest where
  assetId : String
  amount : Rat
  termDays : Rat
  deriving DecidableEq

structure MultiAssetStakeRequest where
  stakerId : String
  assets : List StakingAssetRequest
  deriving DecidableEq

structure WithdrawAssetRequest where
  assetId : String
  amount : Rat
  deriving DecidableEq

structure MultiAssetWithdrawRequest where
  stakerId : String
  assets : List WithdrawAssetRequest
  deriving DecidableEq

structure InternalPosition where
  assetId : String
  stakedAmount : Rat
  yieldRate : Rat
  termDays : Rat
  unlockedAt : Int
  accruedYield : Rat
  deriving DecidableEq

structure Allocation where
  assetId : String
  currentAllocation : Rat
  targetAllocation : Rat
  deriving DecidableEq

structure PortfolioOptimizationSuggestion where
  recommendedRebalance : List Allocation
  suggestionText : String
  deriving DecidableEq

structure PortfolioView where
  stakerId : String
  totalValue : Rat
  totalYield : Rat
  positions : List InternalPosition
  optimizedAllocation : PortfolioOptimizationSuggestion
  deriving DecidableEq

structure AssetYield where
  assetId : String
  yield : Rat
  deriving DecidableEq

structure AggregatedYield where
  stakerId : String
  totalYield : Rat
  assets : List AssetYield
  deriving DecidableEq

structure Withdrawal where
  assetId : String
  amount : Rat
  unlocked : Bool
  deriving DecidableEq

/-- One cache serves both kinds of answer; their key prefixes keep them apart. -/
inductive CachedValue where
  | view (value : PortfolioView)
  | aggregated (value : AggregatedYield)
  deriving DecidableEq

structure CachedEntry where
  value : CachedValue
  expiresAt : Int
  deriving DecidableEq

structure PortfolioService where
  portfolioData : InsertionMap String (List InternalPosition)
  cache : InsertionMap String CachedEntry

namespace PortfolioService

def initial : PortfolioService := ⟨InsertionMap.empty, InsertionMap.empty⟩

def cacheTtlMs : Int := 300 * 1000

def viewKey (stakerId : String) : String := "portfolio:" ++ stakerId

def yieldKey (stakerId : String) : String := "aggregated-yield:" ++ stakerId

def getCache (service : PortfolioService) (key : String) (now : Int) :
    PortfolioService × Option CachedValue :=
  match service.cache.get key with
  | some entry =>
    if entry.expiresAt < now then ({ service with cache := service.cache.delete key }, none)
    else (service, some entry.value)
  | none => ({ service with cache := service.cache.delete key }, none)

def setCache (service : PortfolioService) (key : String) (value : CachedValue) (now : Int) :
    PortfolioService :=
  { service with cache := service.cache.set key ⟨value, now + cacheTtlMs⟩ }

def invalidateCache (service : PortfolioService) (stakerId : String) : PortfolioService :=
  { service with cache := (service.cache.delete (viewKey stakerId)).delete (yieldKey stakerId) }

def calculateYield (amount yieldRate termDays : Rat) : Rat :=
  toFixed 8 (amount * yieldRate * (termDays / 365))

def validateStakeAsset (asset : StakingAssetRequest) : Except Thrown Unit :=
  match getRatesByAssetId asset.assetId with
  | none => .error (.badRequest ("Unsupported asset " ++ asset.assetId))
  | some _ =>
    if asset.amount ≤ 0 ∨ asset.termDays ≤ 0 then
      .error (.badRequest "Asset amount and term must be greater than zero")
    else .ok ()

def validateStakeRequest (request : MultiAssetStakeRequest) : Except Thrown Unit :=
  if request.stakerId = "" ∨ request.assets = [] then
    .error (.badRequest "Invalid stake request payload")
  else request.assets.forM validateStakeAsset

def openPosition (now : Int) (asset : StakingAssetRequest) : Except Thrown InternalPosition := do
  let yieldRate := ((getRatesByAssetId asset.assetId).map AssetRate.yieldRate).getD 0
  let unlockedAt ← isoInstant (now + asset.termDays * millisPerDay)
  return { assetId := asset.assetId, stakedAmount := asset.amount, yieldRate := yieldRate,
           termDays := asset.termDays, unlockedAt := unlockedAt,
           accruedYield := calculateYield asset.amount yieldRate asset.termDays }

/-- Own positions of a staker; a name inherited from Object.prototype is no list and
    cannot be spread. -/
def ownPositions (service : PortfolioService) (stakerId : String) :
    Except Thrown (List InternalPosition) :=
  match service.portfolioData.get stakerId with
  | some positions => .ok positions
  | none => if (inheritedMembers.lookup stakerId).isSome then .error .typeError else .ok []

def planStake (service : PortfolioService) (request : MultiAssetStakeRequest) (now : Int) :
    Except Thrown (List InternalPosition × List InternalPosition) := do
  validateStakeRequest request
  let positions ← request.assets.mapM (openPosition now)
  let existing ← service.ownPositions request.stakerId
  return (existing, positions)

def stakeMulti (service : PortfolioService) (request : MultiAssetStakeRequest) (now : Int) :
    PortfolioService × Except Thrown (List InternalPosition) :=
  match service.planStake request now with
  | .error thrown => (service, .error thrown)
  | .ok (existing, positions) =>
    (invalidateCache { service with
      portfolioData := service.portfolioData.set request.stakerId (existing ++ positions) }
        request.stakerId, .ok positions)

def serves (asset : WithdrawAssetRequest) (position : InternalPosition) : Bool :=
  decide (position.assetId = asset.assetId ∧ asset.amount ≤ position.stakedAmount)

def withdrawItem (now : Int) (positions : List InternalPosition) (asset : WithdrawAssetRequest) :
    List InternalPosition × Withdrawal :=
  match positions.find? (serves asset) with
  | none => (positions, ⟨asset.assetId, asset.amount, false⟩)
  | some position =>
    if position.unlockedAt ≤ now then
      let index := positions.findIdx (serves asset)
      let left := position.stakedAmount - asset.amount
      let remaining := if left = 0 then positions.eraseIdx index
        else positions.set index { position with stakedAmount := left }
      (remaining, ⟨asset.assetId, asset.amount, true⟩)
    else (positions, ⟨asset.assetId, asset.amount, false⟩)

/-- The items of one batch in order, each on what the items before it left. -/
def withdrawItems (now : Int) : List InternalPosition → List WithdrawAssetRequest →
    List InternalPosition × List Withdrawal
  | positions, [] => (positions, [])
  | positions, asset :: rest =>
    let step := withdrawItem now positions asset
    let tail := withdrawItems now step.1 rest
    (tail.1, step.2 :: tail.2)

def withdrawMulti (service : PortfolioService) (request : MultiAssetWithdrawRequest) (now : Int) :
    PortfolioService × Except Thrown (List Withdrawal) :=
  match service.portfolioData.get request.stakerId, inheritedMembers.lookup request.stakerId with
  | some [], _ => (service, .error (.notFound "No staking positions found for staker"))
  | some positions, _ =>
    let batch := withdrawItems now positions request.assets
    (invalidateCache { service with
      portfolioData := service.portfolioData.set request.stakerId batch.1 } request.stakerId,
      .ok batch.2)
  | none, none => (service, .error (.notFound "No staking positions found for staker"))
  | none, some (some 0) => (service, .error (.notFound "No staking positions found for staker"))
  | none, some _ =>
    if request.assets = [] then (invalidateCache service request.stakerId, .ok [])
    else (service, .error .typeError)

/-- The list a view is computed from; inherited names have no list methods. -/
def positionsOrThrow (service : PortfolioService) (stakerId : String) :
    Except Thrown (List InternalPosition) :=
  match service.portfolioData.get stakerId with
  | some positions => .ok positions
  | none => if (inheritedMembers.lookup stakerId).isSome then .error .typeError
    else .error (.notFound "Staker not found")

def totalStaked (positions : List InternalPosition) : Rat :=
  (positions.map InternalPosition.stakedAmount).sum

def allocations (positions : List InternalPosition) : InsertionMap String Rat :=
  positions.foldl (fun acc position =>
    acc.set position.assetId ((acc.get position.assetId).getD 0 + position.stakedAmount))
    InsertionMap.empty

def optimizePortfolio (positions : List InternalPosition) : PortfolioOptimizationSuggestion :=
  let totalValue := totalStaked positions
  let held := allocations positions
  { recommendedRebalance := held.entries.map fun e =>
      { assetId := e.1, currentAllocation := toFixed 2 (e.2 / totalValue * 100),
        targetAllocation := toFixed 2 (1 / held.size * 100) },
    suggestionText := "Rebalance across supported assets to equal-weight allocations for stable returns and diversified exposure." }

def computeView (stakerId : String) (positions : List InternalPosition) : PortfolioView :=
  { stakerId := stakerId, totalValue := totalStaked positions,
    totalYield := (positions.map InternalPosition.accruedYield).sum, positions := positions,
    optimizedAllocation := optimizePortfolio positions }

def computeYield (stakerId : String) (positions : List InternalPosition) : AggregatedYield :=
  let assets := positions.map fun position => AssetYield.mk position.assetId position.accruedYield
  { stakerId := stakerId, totalYield := (assets.map AssetYield.yield).sum, assets := assets }

/-- Read through the cache: a live entry is returned as it is, otherwise the value is
    computed from the present positions and kept for 300 seconds. -/
def readThrough (service : PortfolioService) (key stakerId : String)
    (compute : List InternalPosition → CachedValue) (now : Int) :
    PortfolioService × Except Thrown CachedValue :=
  match service.getCache key now with
  | (service, some cached) => (service, .ok cached)
  | (service, none) =>
    match service.positionsOrThrow stakerId with
    | .error thrown => (service, .error thrown)
    | .ok positions => (service.setCache key (compute positions) now, .ok (compute positions))

def getPortfolioView (service : PortfolioService) (stakerId : String) (now : Int) :
    PortfolioService × Except Thrown CachedValue :=
  service.readThrough (viewKey stakerId) stakerId
    (fun positions => .view (computeView stakerId positions)) now

def getAggregatedYield (service : PortfolioService) (stakerId : String) (now : Int) :
    PortfolioService × Except Thrown CachedValue :=
  service.readThrough (yieldKey stakerId) stakerId
    (fun positions => .aggregated (computeYield stakerId positions)) now

def getPositionsByStaker (service : PortfolioService) (stakerId : String) :
    Except Thrown (List InternalPosition) := service.positionsOrThrow stakerId

def getAssetRates (assetId : String) : Except Thrown AssetRate :=
  match getRatesByAssetId assetId with
  | some rate => .ok rate
  | none => .error (.notFound "Asset not supported")

end PortfolioService

inductive PortfolioCall where
  | stakeMulti (request : MultiAssetStakeRequest) (now : Int)
  | withdrawMulti (request : MultiAssetWithdrawRequest) (now : Int)
  | getPortfolioView (stakerId : String) (now : Int)
  | getAggregatedYield (stakerId : String) (now : Int)
  deriving DecidableEq

inductive PortfolioAnswer where
  | staked (stakerId : String) (positions : List InternalPosition)
  | withdrew (stakerId : String) (withdrawals : List Withdrawal)
  | shown (value : CachedValue)
  | threw (thrown : Thrown)
  deriving DecidableEq

def answering {Value : Type} (ok : Value → PortfolioAnswer) :
    Except Thrown Value → PortfolioAnswer
  | .ok value => ok value
  | .error thrown => .threw thrown

def portfolioStep (service : PortfolioService) :
    PortfolioCall → Option (PortfolioService × PortfolioAnswer)
  | .stakeMulti request now =>
    let (service, result) := service.stakeMulti request now
    some (service, answering (.staked request.stakerId) result)
  | .withdrawMulti request now =>
    let (service, result) := service.withdrawMulti request now
    some (service, answering (.withdrew request.stakerId) result)
  | .getPortfolioView stakerId now =>
    let (service, result) := service.getPortfolioView stakerId now
    some (service, answering .shown result)
  | .getAggregatedYield stakerId now =>
    let (service, result) := service.getAggregatedYield stakerId now
    some (service, answering .shown result)

def portfolioMachine : Machine PortfolioService PortfolioCall PortfolioAnswer :=
  ⟨PortfolioService.initial, portfolioStep⟩

end AstraPort.Staking
