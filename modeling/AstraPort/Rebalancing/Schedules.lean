import AstraPort.Foundation.Host
import AstraPort.Foundation.InsertionMap
import AstraPort.Foundation.IsoDate
import AstraPort.Foundation.Machine
import AstraPort.Foundation.Throwing

/- RebalancingService: one schedule for each portfolio, filed under the portfolio it was created
   for. An update is spread over the stored schedule as the client sent it, and may rename the
   portfolio of the schedule without filing it elsewhere. -/
namespace AstraPort.Rebalancing

structure RebalancingSchedule where
  portfolioId : String
  enabled : Bool
  intervalMinutes : Rat
  startAt : Option String
  timezone : Option String
  deriving DecidableEq

/-- The properties of a schedule object as they are read: none is undefined. -/
structure ScheduleProperties where
  portfolioId : Option String
  enabled : Option Bool
  intervalMinutes : Option Rat
  startAt : Option String
  timezone : Option String
  deriving DecidableEq

/-- A part of a schedule: a property is missing, or written, perhaps as undefined. -/
structure ScheduleUpdate where
  portfolioId : Option (Option String)
  enabled : Option (Option Bool)
  intervalMinutes : Option (Option Rat)
  startAt : Option (Option String)
  timezone : Option (Option String)
  deriving DecidableEq

structure RebalancingScheduleResponse extends ScheduleProperties where
  id : String
  createdAt : Int
  updatedAt : Int
  deriving DecidableEq

inductive ScheduledStatus where
  | success
  | failed
  deriving DecidableEq

structure ExecutionHistory where
  id : String
  portfolioId : String
  executedAt : Int
  trigger : String
  status : ScheduledStatus
  deriving DecidableEq

structure NextExecution where
  portfolioId : String
  nextExecutionAt : Int
  deriving DecidableEq

structure ValidationResult where
  valid : Bool
  errors : List String
  deriving DecidableEq

def RebalancingSchedule.properties (schedule : RebalancingSchedule) : ScheduleProperties :=
  { portfolioId := some schedule.portfolioId
    enabled := some schedule.enabled
    intervalMinutes := some schedule.intervalMinutes
    startAt := schedule.startAt
    timezone := schedule.timezone }

/-- The properties written in an update take the place of those there were. -/
def ScheduleProperties.spread (existing : ScheduleProperties) (update : ScheduleUpdate) :
    ScheduleProperties :=
  { portfolioId := update.portfolioId.getD existing.portfolioId
    enabled := update.enabled.getD existing.enabled
    intervalMinutes := update.intervalMinutes.getD existing.intervalMinutes
    startAt := update.startAt.getD existing.startAt
    timezone := update.timezone.getD existing.timezone }

/-- An empty portfolio is as good as none. -/
def validateSchedule (schedule : ScheduleProperties) : ValidationResult :=
  let named := if schedule.portfolioId.getD "" = "" then ["portfolioId is required"] else []
  let paced := match schedule.intervalMinutes with
    | some interval => if interval < 1 then ["intervalMinutes must be at least 1"] else []
    | none => []
  let errors := named ++ paced
  ⟨errors.isEmpty, errors⟩

structure ScheduleService where
  schedules : InsertionMap String RebalancingScheduleResponse
  executionHistory : List ExecutionHistory

namespace ScheduleService

/-- The clock is read for the dates first and for the id second. -/
def createSchedule (service : ScheduleService) (schedule : RebalancingSchedule) (now idAt : Int) :
    ScheduleService × RebalancingScheduleResponse :=
  let response : RebalancingScheduleResponse :=
    { schedule.properties with id := "sched-" ++ toString idAt, createdAt := now, updatedAt := now }
  ({ service with schedules := service.schedules.set schedule.portfolioId response }, response)

def getSchedule (service : ScheduleService) (portfolioId : String) :
    Option RebalancingScheduleResponse := service.schedules.get portfolioId

def updateSchedule (service : ScheduleService) (portfolioId : String) (update : ScheduleUpdate)
    (now : Int) : Except Thrown (ScheduleService × RebalancingScheduleResponse) :=
  match service.schedules.get portfolioId with
  | none => .error (.error ("Schedule not found for portfolio " ++ portfolioId))
  | some existing =>
    let updated := { existing with
      toScheduleProperties := existing.toScheduleProperties.spread update, updatedAt := now }
    .ok ({ service with schedules := service.schedules.set portfolioId updated }, updated)

def deleteSchedule (service : ScheduleService) (portfolioId : String) : ScheduleService × Bool :=
  ({ service with schedules := service.schedules.delete portfolioId },
    (service.schedules.get portfolioId).isSome)

def getExecutionHistory (service : ScheduleService) (portfolioId : String) :
    List ExecutionHistory :=
  service.executionHistory.filter fun entry => entry.portfolioId = portfolioId

def executeNow (service : ScheduleService) (portfolioId trigger : String) (idAt now : Int) :
    ScheduleService × List ExecutionHistory :=
  let entry : ExecutionHistory :=
    ⟨"exec-" ++ toString idAt, portfolioId, now, trigger, .success⟩
  let after := { service with executionHistory := service.executionHistory ++ [entry] }
  (after, after.getExecutionHistory portfolioId)

/-- One interval after the start of the schedule, or after now where it names no start. A start
    that is no date, or an interval that is no number, leaves no date to format. -/
def getNextExecution (dateParse : String → Option Date) (service : ScheduleService)
    (portfolioId : String) (now : Int) : Except Thrown (Option NextExecution) :=
  match service.schedules.get portfolioId with
  | none => .ok none
  | some schedule =>
    if schedule.enabled = some true then
      let base := match schedule.startAt with
        | some startAt => if startAt = "" then some now else (dateParse startAt).map Date.time
        | none => some now
      match base, schedule.intervalMinutes with
      | some base, some intervalMinutes => do
        let next ← isoInstant (base + intervalMinutes * 60000)
        return some ⟨portfolioId, next⟩
      | _, _ => .error (.rangeError "Invalid time value")
    else .ok none

end ScheduleService

inductive ScheduleCall where
  | createSchedule (schedule : RebalancingSchedule) (now idAt : Int)
  | getSchedule (portfolioId : String)
  | updateSchedule (portfolioId : String) (update : ScheduleUpdate) (now : Int)
  | deleteSchedule (portfolioId : String)
  | getNextExecution (portfolioId : String) (now : Int)
  | executeNow (portfolioId trigger : String) (idAt now : Int)
  deriving DecidableEq

inductive ScheduleAnswer where
  | stored (schedule : RebalancingScheduleResponse)
  | found (schedule : Option RebalancingScheduleResponse)
  | deleted (success : Bool)
  | next (execution : Option NextExecution)
  | executed (history : List ExecutionHistory)
  | thrown (thrown : Thrown)
  deriving DecidableEq

namespace ScheduleService
variable (dateParse : String → Option Date)

def step (service : ScheduleService) : ScheduleCall → Option (ScheduleService × ScheduleAnswer)
  | .createSchedule schedule now idAt =>
    let (service, response) := service.createSchedule schedule now idAt
    some (service, .stored response)
  | .getSchedule portfolioId => some (service, .found (service.getSchedule portfolioId))
  | .updateSchedule portfolioId update now =>
    match service.updateSchedule portfolioId update now with
    | .ok (service, updated) => some (service, .stored updated)
    | .error thrown => some (service, .thrown thrown)
  | .deleteSchedule portfolioId =>
    let (service, success) := service.deleteSchedule portfolioId
    some (service, .deleted success)
  | .getNextExecution portfolioId now =>
    match service.getNextExecution dateParse portfolioId now with
    | .ok execution => some (service, .next execution)
    | .error thrown => some (service, .thrown thrown)
  | .executeNow portfolioId trigger idAt now =>
    let (service, history) := service.executeNow portfolioId trigger idAt now
    some (service, .executed history)

end ScheduleService

def scheduleMachine (dateParse : String → Option Date) :
    Machine ScheduleService ScheduleCall ScheduleAnswer :=
  ⟨⟨InsertionMap.empty, []⟩, ScheduleService.step dateParse⟩

/-- All that a call can do to the schedules. -/
inductive ScheduleMoves (service : ScheduleService) :
    ScheduleCall → InsertionMap String RebalancingScheduleResponse → Prop where
  | created (schedule : RebalancingSchedule) (now idAt : Int) :
      ScheduleMoves service (.createSchedule schedule now idAt)
        (service.createSchedule schedule now idAt).1.schedules
  | updated {portfolioId : String} {existing : RebalancingScheduleResponse}
      (update : ScheduleUpdate) (now : Int)
      (present : service.schedules.get portfolioId = some existing) :
      ScheduleMoves service (.updateSchedule portfolioId update now)
        (service.schedules.set portfolioId { existing with
          toScheduleProperties := existing.toScheduleProperties.spread update, updatedAt := now })
  | deleted (portfolioId : String) :
      ScheduleMoves service (.deleteSchedule portfolioId) (service.schedules.delete portfolioId)
  | kept {call : ScheduleCall} (still : ∀ portfolioId update now,
      call = .updateSchedule portfolioId update now →
        service.schedules.get portfolioId = none) : ScheduleMoves service call service.schedules

theorem step_moves {dateParse : String → Option Date} {service after : ScheduleService}
    {call : ScheduleCall} {answer : ScheduleAnswer}
    (moved : service.step dateParse call = some (after, answer)) :
    ScheduleMoves service call after.schedules := by
  cases call with
  | createSchedule schedule now idAt =>
    obtain ⟨rfl, rfl⟩ := Prod.mk.inj (Option.some.inj moved)
    exact .created schedule now idAt
  | updateSchedule portfolioId update now =>
    simp only [ScheduleService.step, ScheduleService.updateSchedule] at moved
    cases present : service.schedules.get portfolioId with
    | none =>
      rw [present] at moved
      obtain ⟨rfl, rfl⟩ := Prod.mk.inj (Option.some.inj moved)
      apply ScheduleMoves.kept
      intro other update' now' same
      obtain ⟨rfl, rfl, rfl⟩ := ScheduleCall.updateSchedule.inj same
      exact present
    | some existing =>
      rw [present] at moved
      obtain ⟨rfl, rfl⟩ := Prod.mk.inj (Option.some.inj moved)
      exact .updated update now present
  | deleteSchedule portfolioId =>
    obtain ⟨rfl, rfl⟩ := Prod.mk.inj (Option.some.inj moved)
    exact .deleted portfolioId
  | getNextExecution portfolioId now =>
    simp only [ScheduleService.step] at moved
    split at moved
    all_goals
      obtain ⟨rfl, rfl⟩ := Prod.mk.inj (Option.some.inj moved)
      exact .kept (by simp)
  | getSchedule portfolioId =>
    obtain ⟨rfl, rfl⟩ := Prod.mk.inj (Option.some.inj moved)
    exact .kept (by simp)
  | executeNow portfolioId trigger idAt now =>
    obtain ⟨rfl, rfl⟩ := Prod.mk.inj (Option.some.inj moved)
    exact .kept (by simp)

/- The next execution that is told is one of the portfolio asked about. -/
theorem nextExecution_portfolio {dateParse : String → Option Date} {service : ScheduleService}
    {portfolioId : String} {now : Int} {execution : NextExecution}
    (told : service.getNextExecution dateParse portfolioId now = .ok (some execution)) :
    execution.portfolioId = portfolioId := by
  unfold ScheduleService.getNextExecution at told
  split at told
  · cases told
  · split at told
    · dsimp only at told
      split at told
      · obtain ⟨next, _, told⟩ := Throwing.bind_ok told
        cases told
        rfl
      · cases told
    · cases told

/-- Whatever is found under a portfolio names that portfolio. -/
def Filed (dateParse : String → Option Date) (service : ScheduleService) : Prop :=
  (∀ portfolioId schedule, service.getSchedule portfolioId = some schedule →
    schedule.portfolioId = some portfolioId) ∧
  ∀ portfolioId now execution,
    service.getNextExecution dateParse portfolioId now = .ok (some execution) →
      execution.portfolioId = portfolioId

/-- An update keeps the id and the creation date of the schedule, and all other schedules. -/
def UpdateKeeps (before : ScheduleService) (call : ScheduleCall) (after : ScheduleService) : Prop :=
  ∀ portfolioId update now, call = .updateSchedule portfolioId update now →
    (after.getSchedule portfolioId).map (fun schedule => (schedule.id, schedule.createdAt)) =
        (before.getSchedule portfolioId).map (fun schedule => (schedule.id, schedule.createdAt)) ∧
      ∀ other, other ≠ portfolioId → after.getSchedule other = before.getSchedule other

/-- An update of a stored schedule does not name another portfolio, nor strike its name out. -/
def RenamesNone (before : ScheduleService) (call : ScheduleCall) : Prop :=
  ∀ portfolioId update now, call = .updateSchedule portfolioId update now →
    (before.getSchedule portfolioId).isSome →
      update.portfolioId = none ∨ update.portfolioId = some (some portfolioId)

theorem update_keeps {service after : ScheduleService} {call : ScheduleCall}
    (moves : ScheduleMoves service call after.schedules) : UpdateKeeps service call after := by
  rintro portfolioId update now rfl
  unfold ScheduleService.getSchedule
  generalize after.schedules = schedules at moves
  cases moves with
  | updated _ _ present =>
    rw [InsertionMap.get_set_self, present]
    refine ⟨rfl, ?_⟩
    intro other ne
    exact InsertionMap.get_set_ne _ _ ne
  | kept _ => exact ⟨rfl, fun _ _ => rfl⟩

/- One call keeps every schedule filed exactly when it renames none. -/
theorem filed_step {dateParse : String → Option Date} {service after : ScheduleService}
    {call : ScheduleCall} (filed : Filed dateParse service)
    (moves : ScheduleMoves service call after.schedules) :
    Filed dateParse after ↔ RenamesNone service call := by
  have by_map : Filed dateParse after ↔ ∀ portfolioId schedule,
      after.schedules.get portfolioId = some schedule → schedule.portfolioId = some portfolioId :=
    ⟨fun known => known.1, fun known => ⟨known, fun _ _ _ => nextExecution_portfolio⟩⟩
  rw [by_map]
  generalize after.schedules = schedules at moves
  cases moves with
  | created schedule now idAt =>
    refine iff_of_true ?_ (by simp [RenamesNone])
    intro portfolioId found present
    simp only [ScheduleService.createSchedule, InsertionMap.get_set] at present
    split at present
    · rename_i same
      cases present
      rw [same]
      rfl
    · exact filed.1 portfolioId found present
  | @updated portfolioId existing update now present =>
    have named : existing.portfolioId = some portfolioId := filed.1 portfolioId existing present
    constructor
    · intro still _ _ _ same _
      obtain ⟨rfl, rfl, rfl⟩ := ScheduleCall.updateSchedule.inj same
      have name := still portfolioId _ (InsertionMap.get_set_self _ _ _)
      simp only [ScheduleProperties.spread] at name
      cases written : update.portfolioId with
      | none => exact Or.inl rfl
      | some value =>
        rw [written] at name
        exact Or.inr (congrArg some name)
    · intro renames other found stored
      have unnamed := renames portfolioId update now rfl (by
        rw [ScheduleService.getSchedule, present]
        rfl)
      rw [InsertionMap.get_set] at stored
      split at stored
      · rename_i same
        cases stored
        simp only [ScheduleProperties.spread, same]
        rcases unnamed with missing | given
        · rw [missing]
          exact named
        · rw [given]
          rfl
      · exact filed.1 other found stored
  | deleted portfolioId =>
    refine iff_of_true ?_ (by simp [RenamesNone])
    intro other found stored
    exact filed.1 other found (InsertionMap.get_of_delete stored)
  | kept still =>
    apply iff_of_true filed.1
    intro portfolioId update now same present
    rw [ScheduleService.getSchedule, still portfolioId update now same] at present
    cases present

/-- A schedule of every hour. -/
def hourly (portfolioId : String) : RebalancingSchedule :=
  ⟨portfolioId, true, 60, some "2026-01-01T00:00:00Z", none⟩

def paused : ScheduleUpdate := ⟨none, some (some false), none, none, none⟩

def renamed (portfolioId : String) : ScheduleUpdate :=
  ⟨some (some portfolioId), none, none, none, none⟩

end AstraPort.Rebalancing
