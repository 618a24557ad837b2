import AstraPort.Foundation.InsertionMap
import AstraPort.Foundation.JsValue
import AstraPort.Foundation.Machine
import Mathlib.Algebra.Order.Floor.Semiring
import Mathlib.Data.Rat.Floor

/- QueueService, the processors that QueueModule provides, and the queues between them: Bull moves a
   job from state to state, and a lookup goes through the queues one await after the other. -/
namespace AstraPort.Queue

inductive JobPriority where
  | high
  | medium
  | low
  deriving DecidableEq

inductive JobStatus where
  | pending
  | processing
  | completed
  | failed
  deriving DecidableEq

inductive QueueName where
  | default
  | highPriority
  | lowPriority
  | deadLetter
  deriving DecidableEq

structure JobData where
  id : String
  type : String
  payload : JsValue
  priority : JobPriority
  retryCount : Nat
  maxRetries : Rat
  timeout : Rat
  scheduledAt : Option Date
  metadata : Option JsValue
  /-- Set on scheduled jobs, with the flag. -/
  cronExpression : Option String

structure BullOptions where
  jobId : String
  priority : Nat
  attempts : Rat
  backoffDelay : Nat
  timeout : Rat
  delay : Rat

inductive BullState where
  | waiting
  | delayed
  | active
  | completed
  | failed
  deriving DecidableEq

structure BullJob where
  data : JobData
  options : BullOptions
  state : BullState
  attemptsMade : Nat

structure AddOptions where
  priority : Option JobPriority
  maxRetries : Option Rat
  timeout : Option Rat
  delay : Option Rat
  scheduledAt : Option Date
  metadata : Option JsValue

/-- given || fallback -/
def orElse (given : Option Rat) (fallback : Rat) : Rat :=
  match given with
  | none => fallback
  | some value => if value = 0 then fallback else value

def getQueueForPriority : JobPriority → QueueName
  | .high => .highPriority
  | .low => .lowPriority
  | .medium => .default

def getBullPriority : JobPriority → Nat
  | .high => 1
  | .medium => 3
  | .low => 5

def AddOptions.priorityOr (options : AddOptions) : JobPriority := options.priority.getD .medium

def jobData (jobId type : String) (payload : JsValue) (options : AddOptions) : JobData where
  id := jobId
  type := type
  payload := payload
  priority := options.priorityOr
  retryCount := 0
  maxRetries := orElse options.maxRetries 3
  timeout := orElse options.timeout 30000
  scheduledAt := options.scheduledAt
  metadata := options.metadata
  cronExpression := none

def bullOptions (jobId : String) (options : AddOptions) (delay : Rat) : BullOptions where
  jobId := jobId
  priority := getBullPriority options.priorityOr
  attempts := orElse options.maxRetries 3
  backoffDelay := 1000
  timeout := orElse options.timeout 30000
  delay := delay

/-- queue.add: a job with a delay waits it out first. -/
def queued (data : JobData) (options : BullOptions) : BullJob :=
  ⟨data, options, if 0 < options.delay then .delayed else .waiting, 0⟩

def addedJob (jobId type : String) (payload : JsValue) (options : AddOptions) : BullJob :=
  queued (jobData jobId type payload options) (bullOptions jobId options (orElse options.delay 0))

/-- Nothing is done with the expression but to keep it with the job. -/
def scheduledJob (jobId type : String) (payload : JsValue) (cronExpression : String)
    (options : AddOptions) : BullJob :=
  let given := { options with scheduledAt := none }
  queued { jobData jobId type payload given with cronExpression := some cronExpression }
    (bullOptions jobId options 0)

/-- payload.name, which throws on null and undefined. -/
def readProperty (payload : JsValue) (name : String) : Except String JsValue :=
  match payload with
  | .primitive .null => .error "Cannot read properties of null"
  | .primitive .undefined => .error "Cannot read properties of undefined"
  | .object members => .ok ((members.lookup (.ofString name)).getD (.primitive .undefined))
  | _ => .ok (.primitive .undefined)

def result (members : List (String × JsValue)) : JsValue :=
  .object (members.map fun m => (.ofString m.1, m.2))

def trueValue : JsValue := .primitive (.boolean true)

/-- payload.records || 0 -/
def recordsOrZero (records : JsValue) : JsValue :=
  match records with
  | .primitive .undefined | .primitive .null | .primitive (.boolean false)
  | .primitive (.string []) | .primitive (.number .nan) | .primitive (.bigint 0) =>
    .primitive (.number (.finite .zero))
  | .primitive (.number .negativeZero) => .primitive (.number (.finite .zero))
  | _ => records

/-- The number of the report comes from the clock. -/
def processJob (data : JobData) (reportId : String) : Except String JsValue :=
  match data.type with
  | "email" => (readProperty data.payload "to").map fun recipient =>
    result [("sent", trueValue), ("to", recipient)]
  | "webhook" => (readProperty data.payload "url").map fun url =>
    result [("delivered", trueValue), ("url", url)]
  | "report" => (readProperty data.payload "reportType").map fun _ =>
    result [("generated", trueValue), ("reportId", .primitive (.string (.ofString reportId)))]
  | "sync" => do
    let _ ← readProperty data.payload "source"
    let records ← readProperty data.payload "records"
    pure (result [("synced", trueValue), ("records", recordsOrZero records)])
  | type => .error ("Unknown job type: " ++ type)

inductive Processor where
  | job
  | highPriorityJob
  | lowPriorityJob
  | deadLetter
  deriving DecidableEq

/-- The queue a processor is declared for. -/
def Processor.queue : Processor → QueueName
  | .job => .default
  | .highPriorityJob => .highPriority
  | .lowPriorityJob => .lowPriority
  | .deadLetter => .deadLetter

/-- The processors among the providers of QueueModule; a queue without one is not worked on. -/
def providers : List Processor := [.job, .deadLetter]

def hasProcessor (queue : QueueName) : Bool := queue ∈ providers.map Processor.queue

/-- The dead letter processor only writes to the log. -/
def handle (queue : QueueName) (data : JobData) (reportId : String) : Except String JsValue :=
  if queue = .deadLetter then .ok (.primitive .undefined) else processJob data reportId

/-- The queues a lookup goes through. -/
def lookedThrough : List QueueName := [.default, .highPriority, .lowPriority]

inductive Purpose where
  | getJobStatus
  | cancelJob
  deriving DecidableEq

/-- The await a lookup stands at. -/
inductive Stage where
  | looking (purpose : Purpose) (jobId : String) (rest : List QueueName)
  | found (purpose : Purpose) (jobId : String) (queue : QueueName)

structure QueueService where
  jobs : InsertionMap (QueueName × String) BullJob
  tasks : InsertionMap Nat Stage

/-- Calls of the service, the awaits of its lookups, and what Bull and the processors do. -/
inductive QueueInput where
  | addJob (jobId type : String) (payload : JsValue) (options : AddOptions)
  | scheduleJob (jobId type : String) (payload : JsValue) (cronExpression : String)
      (options : AddOptions)
  | begin (task : Nat) (purpose : Purpose) (jobId : String)
  | turn (task : Nat)
  | promote (queue : QueueName) (jobId : String)
  | start (queue : QueueName) (jobId : String)
  | finish (queue : QueueName) (jobId reportId : String)

inductive QueueAnswer where
  | added (jobId : String)
  | nothing
  | status (jobId : String) (status : Option JobStatus)
  | cancelled (jobId : String) (success : Bool)
  | threw (message : String)
  deriving DecidableEq

/-- The state of a job that is gone is none of these, and its status is PENDING. -/
def statusOf : Option BullState → JobStatus
  | none | some .waiting | some .delayed => .pending
  | some .active => .processing
  | some .completed => .completed
  | some .failed => .failed

namespace QueueService

def initial : QueueService := ⟨.empty, .empty⟩

def writeJob (service : QueueService) (queue : QueueName) (jobId : String) (job : BullJob) :
    QueueService :=
  { service with jobs := service.jobs.set (queue, jobId) job }

def atStage (service : QueueService) (task : Nat) (stage : Stage) : QueueService :=
  { service with tasks := service.tasks.set task stage }

def withoutTask (service : QueueService) (task : Nat) : QueueService :=
  { service with tasks := service.tasks.delete task }

/-- queue.add, in the queue for the priority. -/
def enqueue (service : QueueService) (options : AddOptions) (jobId : String) (job : BullJob) :
    QueueService × QueueAnswer :=
  (service.writeJob (getQueueForPriority options.priorityOr) jobId job, .added jobId)

def notFound (purpose : Purpose) (jobId : String) : QueueAnswer :=
  match purpose with
  | .getJobStatus => .status jobId none
  | .cancelJob => .cancelled jobId false

/-- One await of a lookup. A job that is being processed is locked and cannot be removed. -/
def turn (service : QueueService) (task : Nat) : Stage → QueueService × QueueAnswer
  | .looking purpose jobId [] => (service.withoutTask task, notFound purpose jobId)
  | .looking purpose jobId (queue :: rest) =>
    match service.jobs.get (queue, jobId) with
    | some _ => (service.atStage task (.found purpose jobId queue), .nothing)
    | none => (service.atStage task (.looking purpose jobId rest), .nothing)
  | .found .getJobStatus jobId queue =>
    (service.withoutTask task,
      .status jobId (some (statusOf ((service.jobs.get (queue, jobId)).map BullJob.state))))
  | .found .cancelJob jobId queue =>
    if (service.jobs.get (queue, jobId)).map BullJob.state = some .active then
      (service.withoutTask task, .threw ("Could not remove job " ++ jobId))
    else
      ({ service.withoutTask task with jobs := service.jobs.delete (queue, jobId) },
        .cancelled jobId true)

/-- What becomes of a job that was processed: it is tried again while attempts are left. -/
def finished (queue : QueueName) (reportId : String) (job : BullJob) : BullJob :=
  match handle queue job.data reportId with
  | .ok _ => { job with state := .completed }
  | .error _ =>
    { job with
      attemptsMade := job.attemptsMade + 1
      state := if (job.attemptsMade + 1 : Rat) < job.options.attempts then .delayed else .failed }

/-- A job in the state moves on. -/
def advance (service : QueueService) (queue : QueueName) (jobId : String) (state : BullState)
    (next : BullJob → BullJob) : Option (QueueService × QueueAnswer) :=
  match service.jobs.get (queue, jobId) with
  | some job => if job.state = state then some (service.writeJob queue jobId (next job), .nothing)
    else none
  | none => none

def step (service : QueueService) : QueueInput → Option (QueueService × QueueAnswer)
  | .addJob jobId type payload options =>
    some (service.enqueue options jobId (addedJob jobId type payload options))
  | .scheduleJob jobId type payload cronExpression options =>
    some (service.enqueue options jobId (scheduledJob jobId type payload cronExpression options))
  | .begin task purpose jobId =>
    match service.tasks.get task with
    | some _ => none
    | none => some (service.atStage task (.looking purpose jobId lookedThrough), .nothing)
  | .turn task => (service.tasks.get task).map (service.turn task)
  | .promote queue jobId =>
    service.advance queue jobId .delayed fun job => { job with state := .waiting }
  | .start queue jobId =>
    if hasProcessor queue then
      service.advance queue jobId .waiting fun job => { job with state := .active }
    else none
  | .finish queue jobId reportId =>
    service.advance queue jobId .active (finished queue reportId)

def machine : Machine QueueService QueueInput QueueAnswer := ⟨initial, step⟩

end QueueService
end AstraPort.Queue
