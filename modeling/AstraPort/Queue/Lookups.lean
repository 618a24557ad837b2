import AstraPort.Queue.Jobs

/- What the statuses of jobs say, in every run: lookups go on while jobs are added, worked on and
   removed. -/
namespace AstraPort.Queue

abbrev QueueHistory := List (QueueInput × QueueAnswer)

/-- The queue a job was added to under an id, and the job as it was then. -/
def addedAs : QueueHistory → String → Option (QueueName × BullJob)
  | [], _ => none
  | (.addJob jobId type payload options, _) :: past, id =>
    if jobId = id then
      some (getQueueForPriority options.priorityOr, addedJob jobId type payload options)
    else addedAs past id
  | (.scheduleJob jobId type payload cronExpression options, _) :: past, id =>
    if jobId = id then
      some (getQueueForPriority options.priorityOr,
        scheduledJob jobId type payload cronExpression options)
    else addedAs past id
  | _ :: past, id => addedAs past id

/-- How often a processor was through with a job. -/
def processedTimes : QueueHistory → String → Nat
  | [], _ => 0
  | (.finish _ jobId _, _) :: past, id => processedTimes past id + if jobId = id then 1 else 0
  | _ :: past, id => processedTimes past id

def Removed (past : QueueHistory) (id : String) : Prop := ∃ e ∈ past, e.2 = .cancelled id true

/-- What had happened when a lookup was begun, and for which job it is. -/
def begunAt : QueueHistory → Nat → Option (String × QueueHistory)
  | [], _ => none
  | (.begin task _ jobId, _) :: past, own => if task = own then some (jobId, past) else begunAt past own
  | _ :: past, own => begunAt past own

/-- Ids are drawn for one job each. -/
def FreshIds : Machine.Permit QueueService QueueInput QueueAnswer := fun past _ input =>
  match input with
  | .addJob jobId _ _ _ => addedAs past jobId = none
  | .scheduleJob jobId _ _ _ _ => addedAs past jobId = none
  | _ => True

/-- Whether processing a job comes to its end without an error. -/
def succeeds (queue : QueueName) (data : JobData) : Bool := (handle queue data "").isOk

/-- How far a job has come that was processed n times. -/
inductive Progress (queue : QueueName) (first : BullJob) (n : Nat) : BullJob → Prop where
  | idle {state : BullState} (rests : state = .waiting ∨ state = .delayed)
    (tried : n = 0 ∨ hasProcessor queue = true ∧ succeeds queue first.data = false ∧
      (n : Rat) < first.options.attempts) : Progress queue first n ⟨first.data, first.options, state, n⟩
  | active (worked : hasProcessor queue = true) (tried : n = 0 ∨
      succeeds queue first.data = false ∧ (n : Rat) < first.options.attempts) :
    Progress queue first n ⟨first.data, first.options, .active, n⟩
  | completed (worked : hasProcessor queue = true) (own : succeeds queue first.data = true)
    (once : n = 1) : Progress queue first n ⟨first.data, first.options, .completed, 0⟩
  | failed (worked : hasProcessor queue = true) (own : succeeds queue first.data = false)
    (tries : n = max 1 ⌈first.options.attempts⌉₊) :
    Progress queue first n ⟨first.data, first.options, .failed, n⟩

section Processing
variable {queue : QueueName} {first job : BullJob} {n : Nat}

theorem processJob_isOk (data : JobData) (reportId other : String) :
    (processJob data reportId).isOk = (processJob data other).isOk := by
  unfold processJob
  split
  · rfl
  · rfl
  · cases readProperty data.payload "reportType" <;> rfl
  · rfl
  · rfl

theorem handle_isOk (queue : QueueName) (data : JobData) (reportId : String) :
    (handle queue data reportId).isOk = succeeds queue data := by
  unfold succeeds handle
  split
  · rfl
  · exact processJob_isOk data reportId ""

theorem Progress.kept (progress : Progress queue first n job) :
    job.data = first.data ∧ job.options = first.options := by
  cases progress <;> exact ⟨rfl, rfl⟩

theorem Progress.promoted (progress : Progress queue first n job) (state : job.state = .delayed) :
    Progress queue first n { job with state := .waiting } := by
  cases progress with
  | idle rests tried => exact .idle (.inl rfl) tried
  | active worked tried => cases state
  | completed worked own once => cases state
  | failed worked own tries => cases state

theorem Progress.started (progress : Progress queue first n job) (state : job.state = .waiting)
    (worked : hasProcessor queue = true) : Progress queue first n { job with state := .active } := by
  cases progress with
  | idle rests tried => exact .active worked (tried.imp_right And.right)
  | active worked tried => cases state
  | completed worked own once => cases state
  | failed worked own tries => cases state

theorem Progress.worked (progress : Progress queue first n job) (state : job.state = .active) :
    hasProcessor queue = true := by
  cases progress with
  | idle rests tried =>
    dsimp only at state
    rw [state] at rests
    obtain waiting | delayed := rests
    · cases waiting
    · cases delayed
  | active worked tried => exact worked
  | completed worked own once => exact worked
  | failed worked own tries => exact worked

/- A job is tried until its attempts are used up, and at least once. -/
theorem tries_used {attempts : Rat} (before : n = 0 ∨ (n : Rat) < attempts)
    (last : ¬ (n + 1 : Rat) < attempts) : n + 1 = max 1 ⌈attempts⌉₊ := by
  have upper : ⌈attempts⌉₊ ≤ n + 1 := Nat.ceil_le.mpr (by push_cast; exact le_of_not_gt last)
  obtain rfl | more := before
  · omega
  · have lower : n < ⌈attempts⌉₊ := Nat.lt_ceil.mpr more
    omega

theorem Progress.finished (progress : Progress queue first n job) (state : job.state = .active)
    (reportId : String) :
    Progress queue first (n + 1) (QueueService.finished queue reportId job) := by
  cases progress with
  | idle rests tried =>
    dsimp only at state
    rw [state] at rests
    obtain waiting | delayed := rests
    · cases waiting
    · cases delayed
  | completed worked own once => cases state
  | failed worked own tries => cases state
  | active worked tried =>
    have outcome := handle_isOk queue first.data reportId
    unfold QueueService.finished
    dsimp only
    cases ended : handle queue first.data reportId with
    | ok value =>
      have own : succeeds queue first.data = true := by rw [← outcome, ended]; rfl
      obtain rfl | ⟨fails, -⟩ := tried
      · exact .completed worked own rfl
      · cases own.symm.trans fails
    | error message =>
      have own : succeeds queue first.data = false := by rw [← outcome, ended]; rfl
      dsimp only
      split
      · rename_i left
        exact .idle (.inr rfl) (.inr ⟨worked, own, by push_cast; exact left⟩)
      · rename_i used
        exact .failed worked own (tries_used (tried.imp_right And.right) used)

end Processing

/-- Where a lookup stands: while it looks, the queues that are left have the job, unless it is
    removed; what it found had not been removed when it was begun. -/
def StageSound (past : QueueHistory) (task : Nat) : Stage → Prop
  | .looking _ id rest => ∃ before, begunAt past task = some (id, before) ∧
      ∀ queue first, addedAs before id = some (queue, first) →
        addedAs past id = some (queue, first) ∧ (Removed past id ∨ queue ∈ rest)
  | .found _ id queue => ∃ before, begunAt past task = some (id, before) ∧ ¬ Removed before id ∧
      ∃ first, addedAs past id = some (queue, first)

structure Tracked (past : QueueHistory) (service : QueueService) : Prop where
  /-- Jobs are where they were added, as far as they were processed. -/
  found : ∀ {queue id job}, service.jobs.get (queue, id) = some job →
    ∃ first, addedAs past id = some (queue, first) ∧ Progress queue first (processedTimes past id) job
  kept : ∀ {queue id first}, addedAs past id = some (queue, first) → ¬ Removed past id →
    service.jobs.get (queue, id) ≠ none
  gone : ∀ {id}, Removed past id → ∀ queue, service.jobs.get (queue, id) = none
  unknown : ∀ {id}, addedAs past id = none → processedTimes past id = 0 ∧ ¬ Removed past id
  /-- What is nobody's to work on is not worked on. -/
  idle : ∀ {queue id first}, addedAs past id = some (queue, first) → hasProcessor queue = false →
    processedTimes past id = 0
  stages : ∀ {task stage}, service.tasks.get task = some stage → StageSound past task stage

section Histories
variable {past : QueueHistory} {e : QueueInput × QueueAnswer} {id : String}

theorem Removed.later (removed : Removed past id) : Removed (e :: past) id := by
  obtain ⟨exchange, member, answer⟩ := removed
  exact ⟨exchange, List.mem_cons_of_mem _ member, answer⟩

theorem removed_cons : Removed (e :: past) id ↔ e.2 = .cancelled id true ∨ Removed past id := by
  simp [Removed]

theorem begunAt_earlier {task : Nat} {before : QueueHistory}
    (begun : begunAt past task = some (id, before)) : before ⊆ past := by
  induction past with
  | nil => cases begun
  | cons e past ih =>
    obtain ⟨input, answer⟩ := e
    cases input with
    | begin other purpose jobId =>
      rw [begunAt] at begun
      split at begun
      · cases begun
        exact List.subset_cons_self _ _
      · exact fun _ member => List.mem_cons_of_mem _ (ih begun member)
    | _ => exact fun _ member => List.mem_cons_of_mem _ (ih begun member)

theorem Removed.of_begun {task : Nat} {before : QueueHistory}
    (begun : begunAt past task = some (id, before)) (removed : Removed before id) :
    Removed past id := by
  obtain ⟨exchange, member, answer⟩ := removed
  exact ⟨exchange, begunAt_earlier begun member, answer⟩

/- Ids are added once, so what an id was added as stays. -/
theorem addedAs_later {past : QueueHistory} {e : QueueInput × QueueAnswer} {service : QueueService}
    (fresh : FreshIds past service e.1) {added : QueueName × BullJob}
    (before : addedAs past id = some added) : addedAs (e :: past) id = some added := by
  obtain ⟨input, answer⟩ := e
  cases input with
  | addJob jobId type payload options =>
    have apart : jobId ≠ id := by
      rintro rfl
      cases before.symm.trans fresh
    rw [addedAs, if_neg apart, before]
  | scheduleJob jobId type payload cronExpression options =>
    have apart : jobId ≠ id := by
      rintro rfl
      cases before.symm.trans fresh
    rw [addedAs, if_neg apart, before]
  | _ => exact before

/- No job is added to the queue of dead letters. -/
theorem added_lane {queue : QueueName} {first : BullJob}
    (added : addedAs past id = some (queue, first)) :
    queue = getQueueForPriority first.data.priority := by
  induction past with
  | nil => cases added
  | cons e past ih =>
    obtain ⟨input, answer⟩ := e
    cases input with
    | addJob jobId type payload options =>
      rw [addedAs] at added
      split at added
      · cases added
        rfl
      · exact ih added
    | scheduleJob jobId type payload cronExpression options =>
      rw [addedAs] at added
      split at added
      · cases added
        rfl
      · exact ih added
    | _ => exact ih added

end Histories

/-- An exchange that adds no job, is through with none, begins no lookup and removes nothing. -/
structure Quiet (past : QueueHistory) (e : QueueInput × QueueAnswer) : Prop where
  added : addedAs (e :: past) = addedAs past
  processed : processedTimes (e :: past) = processedTimes past
  begun : begunAt (e :: past) = begunAt past
  unremoved : ∀ id, e.2 ≠ .cancelled id true

section Steps
variable {past : QueueHistory} {service after : QueueService}

theorem Quiet.removed {e : QueueInput × QueueAnswer} (quiet : Quiet past e) (id : String) :
    Removed (e :: past) id ↔ Removed past id := by
  rw [removed_cons]
  exact or_iff_right (quiet.unremoved id)

theorem StageSound.later {e : QueueInput × QueueAnswer} {task : Nat} {stage : Stage}
    (sound : StageSound past task stage) (begun : begunAt (e :: past) task = begunAt past task)
    (added : ∀ id as, addedAs past id = some as → addedAs (e :: past) id = some as) :
    StageSound (e :: past) task stage := by
  cases stage with
  | looking purpose id rest =>
    obtain ⟨before, start, left⟩ := sound
    refine ⟨before, begun.trans start, ?_⟩
    intro queue first there
    obtain ⟨here, removed⟩ := left queue first there
    exact ⟨added _ _ here, removed.imp_left Removed.later⟩
  | found purpose id queue =>
    obtain ⟨before, start, there, first, here⟩ := sound
    exact ⟨before, begun.trans start, there, first, added _ _ here⟩

theorem StageSound.quiet {e : QueueInput × QueueAnswer} (quiet : Quiet past e) {task : Nat}
    {stage : Stage} (sound : StageSound past task stage) : StageSound (e :: past) task stage :=
  sound.later (congrFun quiet.begun task) fun _ _ here => by rw [quiet.added, here]

/- A quiet step in which at most one job is written, and one lookup moves on. -/
theorem Tracked.quiet (tracked : Tracked past service) {e : QueueInput × QueueAnswer}
    (quiet : Quiet past e)
    (found : ∀ {queue id job}, after.jobs.get (queue, id) = some job →
      ∃ first, addedAs past id = some (queue, first) ∧
        Progress queue first (processedTimes past id) job)
    (same : ∀ place, after.jobs.get place = none ↔ service.jobs.get place = none)
    (stages : ∀ {task stage}, after.tasks.get task = some stage →
      service.tasks.get task = some stage ∨ StageSound past task stage) :
    Tracked (e :: past) after where
  found held := by
    rw [quiet.added, quiet.processed]
    exact found held
  kept added there := by
    rw [quiet.added] at added
    rw [quiet.removed] at there
    rw [Ne, same]
    exact tracked.kept added there
  gone removed queue := (same _).mpr (tracked.gone ((quiet.removed _).mp removed) queue)
  unknown unadded := by
    rw [quiet.added] at unadded
    rw [quiet.processed, quiet.removed]
    exact tracked.unknown unadded
  idle added alone := by
    rw [quiet.added] at added
    rw [quiet.processed]
    exact tracked.idle added alone
  stages held := by
    obtain before | sound := stages held
    · exact (tracked.stages before).quiet quiet
    · exact sound.quiet quiet

/- A quiet step that leaves the jobs alone. -/
theorem Tracked.looked (tracked : Tracked past service) {e : QueueInput × QueueAnswer}
    (quiet : Quiet past e) (jobs : after.jobs = service.jobs)
    (stages : ∀ task stage, after.tasks.get task = some stage →
      service.tasks.get task = some stage ∨ StageSound past task stage) :
    Tracked (e :: past) after := by
  apply tracked.quiet quiet
  · intro queue id job held
    exact tracked.found (jobs ▸ held)
  · intro place
    rw [jobs]
  · exact fun held => stages _ _ held

theorem advance_some {queue : QueueName} {jobId : String} {state : BullState}
    {next : BullJob → BullJob} {answer : QueueAnswer}
    (moved : service.advance queue jobId state next = some (after, answer)) :
    ∃ job, service.jobs.get (queue, jobId) = some job ∧ job.state = state ∧
      after = service.writeJob queue jobId (next job) ∧ answer = .nothing := by
  rw [QueueService.advance] at moved
  cases held : service.jobs.get (queue, jobId) with
  | none =>
    rw [held] at moved
    cases moved
  | some job =>
    rw [held] at moved
    dsimp only at moved
    split at moved
    · rename_i own
      obtain ⟨rfl, rfl⟩ := Prod.mk.inj (Option.some.inj moved)
      exact ⟨job, rfl, own, rfl, rfl⟩
    · cases moved

theorem written_none {queue : QueueName} {jobId : String} {job other : BullJob}
    (held : service.jobs.get (queue, jobId) = some job) (place : QueueName × String) :
    (service.writeJob queue jobId other).jobs.get place = none ↔ service.jobs.get place = none := by
  by_cases same : place = (queue, jobId)
  · rw [same, held]
    simp [QueueService.writeJob]
  · rw [QueueService.writeJob, InsertionMap.get_set_ne _ _ same]

/- A job that is moved on without being processed. -/
theorem Tracked.advanced (tracked : Tracked past service) {e : QueueInput × QueueAnswer}
    (quiet : Quiet past e) {queue : QueueName} {jobId : String} {job next : BullJob}
    (held : service.jobs.get (queue, jobId) = some job)
    (progress : ∀ {first n}, Progress queue first n job → Progress queue first n next) :
    Tracked (e :: past) (service.writeJob queue jobId next) := by
  apply tracked.quiet quiet
  · intro other id job' found
    by_cases same : (other, id) = (queue, jobId)
    · obtain ⟨rfl, rfl⟩ := Prod.mk.inj same
      rw [QueueService.writeJob, InsertionMap.get_set_self] at found
      cases found
      obtain ⟨first, added, own⟩ := tracked.found held
      exact ⟨first, added, progress own⟩
    · rw [QueueService.writeJob, InsertionMap.get_set_ne _ _ same] at found
      exact tracked.found found
  · exact written_none held
  · exact fun found => .inl found

/- A job that is added; its id is new. -/
theorem Tracked.enqueued (tracked : Tracked past service) {e : QueueInput × QueueAnswer}
    {queue : QueueName} {jobId : String} {job : BullJob} (fresh : addedAs past jobId = none)
    (added : addedAs (e :: past) = fun id => if jobId = id then some (queue, job) else addedAs past id)
    (processed : processedTimes (e :: past) = processedTimes past)
    (begun : begunAt (e :: past) = begunAt past) (unremoved : ∀ id, e.2 ≠ .cancelled id true)
    (progress : Progress queue job 0 job) :
    Tracked (e :: past) (service.writeJob queue jobId job) := by
  have nowhere (place : QueueName) : service.jobs.get (place, jobId) = none := by
    cases held : service.jobs.get (place, jobId) with
    | none => rfl
    | some other =>
      obtain ⟨first, before, -⟩ := tracked.found held
      cases before.symm.trans fresh
  have removed (id : String) : Removed (e :: past) id ↔ Removed past id := by
    rw [removed_cons]
    exact or_iff_right (unremoved id)
  have old {id : String} (other : jobId ≠ id) : addedAs (e :: past) id = addedAs past id := by
    rw [added]
    exact if_neg other
  have own : addedAs (e :: past) jobId = some (queue, job) := by
    rw [added]
    exact if_pos rfl
  constructor
  · intro other id job' held
    rw [QueueService.writeJob] at held
    by_cases same : (other, id) = (queue, jobId)
    · obtain ⟨rfl, rfl⟩ := Prod.mk.inj same
      rw [InsertionMap.get_set_self] at held
      cases held
      refine ⟨job, own, ?_⟩
      rw [processed, (tracked.unknown fresh).1]
      exact progress
    · rw [InsertionMap.get_set_ne _ _ same] at held
      have apart : jobId ≠ id := by
        rintro rfl
        cases held.symm.trans (nowhere other)
      rw [old apart, processed]
      exact tracked.found held
  · intro other id first there kept
    by_cases same : jobId = id
    · rw [← same, own] at there
      cases there
      rw [← same, QueueService.writeJob, InsertionMap.get_set_self]
      simp
    · rw [old same] at there
      have apart : (other, id) ≠ (queue, jobId) := fun both => same (Prod.mk.inj both).2.symm
      rw [QueueService.writeJob, InsertionMap.get_set_ne _ _ apart]
      exact tracked.kept there fun gone => kept ((removed id).mpr gone)
  · intro id gone other
    have before := (removed id).mp gone
    have apart : jobId ≠ id := by
      rintro rfl
      exact (tracked.unknown fresh).2 before
    have apart' : (other, id) ≠ (queue, jobId) := fun both => apart (Prod.mk.inj both).2.symm
    rw [QueueService.writeJob, InsertionMap.get_set_ne _ _ apart']
    exact tracked.gone before other
  · intro id unadded
    have apart : jobId ≠ id := by
      rintro rfl
      cases own.symm.trans unadded
    rw [old apart] at unadded
    rw [processed, removed]
    exact tracked.unknown unadded
  · intro other id first there alone
    rw [processed]
    by_cases same : jobId = id
    · rw [← same]
      exact (tracked.unknown fresh).1
    · rw [old same] at there
      exact tracked.idle there alone
  · intro task stage held
    apply (tracked.stages held).later (congrFun begun task)
    intro id as before
    have apart : jobId ≠ id := by
      rintro rfl
      cases before.symm.trans fresh
    rw [old apart, before]

theorem queued_progress (queue : QueueName) (data : JobData) (options : BullOptions) :
    Progress queue (queued data options) 0 (queued data options) := by
  have rests : (queued data options).state = .waiting ∨ (queued data options).state = .delayed := by
    unfold queued
    dsimp only
    split
    · exact .inr rfl
    · exact .inl rfl
  exact .idle rests (.inl rfl)

theorem Tracked.begun (tracked : Tracked past service) (task : Nat) (purpose : Purpose)
    (jobId : String) : Tracked ((.begin task purpose jobId, .nothing) :: past)
      (service.atStage task (.looking purpose jobId lookedThrough)) := by
  have removed (id : String) :
      Removed ((.begin task purpose jobId, .nothing) :: past) id ↔ Removed past id := by
    rw [removed_cons]
    simp
  refine ⟨tracked.found, ?_, ?_, ?_, tracked.idle, ?_⟩
  · exact fun there kept => tracked.kept there fun gone => kept ((removed _).mpr gone)
  · exact fun gone => tracked.gone ((removed _).mp gone)
  · intro id unadded
    rw [removed]
    exact tracked.unknown unadded
  · intro other stage held
    rw [QueueService.atStage] at held
    by_cases same : other = task
    · rw [same, InsertionMap.get_set_self] at held
      cases held
      rw [same]
      refine ⟨past, if_pos rfl, ?_⟩
      intro queue first there
      refine ⟨there, .inr ?_⟩
      rw [added_lane there]
      cases first.data.priority <;> decide
    · rw [InsertionMap.get_set_ne _ _ same] at held
      apply (tracked.stages held).later
      · exact if_neg (Ne.symm same)
      · exact fun _ _ before => before

theorem Tracked.processed (tracked : Tracked past service) {queue : QueueName}
    {jobId reportId : String} {job : BullJob} (held : service.jobs.get (queue, jobId) = some job)
    (state : job.state = .active) : Tracked ((.finish queue jobId reportId, .nothing) :: past)
      (service.writeJob queue jobId (QueueService.finished queue reportId job)) := by
  obtain ⟨own, there, progress⟩ := tracked.found held
  have removed (id : String) :
      Removed ((.finish queue jobId reportId, .nothing) :: past) id ↔ Removed past id := by
    rw [removed_cons]
    simp
  constructor
  · intro other id job' found
    rw [processedTimes]
    by_cases same : (other, id) = (queue, jobId)
    · obtain ⟨rfl, rfl⟩ := Prod.mk.inj same
      rw [QueueService.writeJob, InsertionMap.get_set_self] at found
      cases found
      exact ⟨own, there, by rw [if_pos rfl]; exact progress.finished state reportId⟩
    · rw [QueueService.writeJob, InsertionMap.get_set_ne _ _ same] at found
      obtain ⟨first, added, reached⟩ := tracked.found found
      have apart : jobId ≠ id := by
        rintro rfl
        rw [there] at added
        cases added
        exact same rfl
      exact ⟨first, added, by rw [if_neg apart]; exact reached⟩
  · intro other id first added kept
    rw [Ne, written_none held]
    exact tracked.kept added fun gone => kept ((removed id).mpr gone)
  · intro id gone other
    exact (written_none held _).mpr (tracked.gone ((removed id).mp gone) other)
  · intro id unadded
    have apart : jobId ≠ id := by
      rintro rfl
      cases there.symm.trans unadded
    rw [processedTimes, if_neg apart, removed]
    exact tracked.unknown unadded
  · intro other id first added alone
    have apart : jobId ≠ id := by
      rintro rfl
      cases there.symm.trans added
      cases (progress.worked state).symm.trans alone
    rw [processedTimes, if_neg apart]
    exact tracked.idle added alone
  · intro task stage found
    exact (tracked.stages found).later rfl fun _ _ before => before

theorem Tracked.removed (tracked : Tracked past service) {task : Nat} {jobId : String}
    {queue : QueueName} {first : BullJob} (added : addedAs past jobId = some (queue, first)) :
    Tracked ((.turn task, .cancelled jobId true) :: past)
      { service.withoutTask task with jobs := service.jobs.delete (queue, jobId) } := by
  have gone (id : String) : Removed ((.turn task, .cancelled jobId true) :: past) id ↔
      jobId = id ∨ Removed past id := by
    rw [removed_cons]
    simp
  constructor
  · exact fun found => tracked.found (InsertionMap.get_of_delete found)
  · intro other id first' there kept
    rw [gone, not_or] at kept
    have apart : (other, id) ≠ (queue, jobId) := fun both => kept.1 (Prod.mk.inj both).2.symm
    dsimp only
    rw [InsertionMap.get_delete_ne _ apart]
    exact tracked.kept there kept.2
  · intro id taken other
    dsimp only
    obtain rfl | before := (gone id).mp taken
    · by_cases same : other = queue
      · rw [same, InsertionMap.get_delete_self]
      · rw [InsertionMap.get_delete_ne _ fun both => same (Prod.mk.inj both).1]
        cases held : service.jobs.get (other, jobId) with
        | none => rfl
        | some job =>
          obtain ⟨first', there, -⟩ := tracked.found held
          rw [added] at there
          cases there
          exact absurd rfl same
    · exact InsertionMap.get_delete_absent _ (tracked.gone before other)
  · intro id unadded
    have apart : jobId ≠ id := by
      rintro rfl
      cases added.symm.trans unadded
    obtain ⟨unprocessed, unremoved⟩ := tracked.unknown unadded
    exact ⟨unprocessed, fun taken => ((gone id).mp taken).elim apart unremoved⟩
  · exact tracked.idle
  · intro other stage held
    exact (tracked.stages (InsertionMap.get_of_delete held)).later rfl fun _ _ before => before

/- One await of a lookup. -/
theorem Tracked.turned (tracked : Tracked past service) {task : Nat} {stage : Stage}
    (at_ : service.tasks.get task = some stage) : Tracked
      ((.turn task, (service.turn task stage).2) :: past) (service.turn task stage).1 := by
  have quiet {answer : QueueAnswer} (other : ∀ id, answer ≠ .cancelled id true) :
      Quiet past (.turn task, answer) := ⟨rfl, rfl, rfl, other⟩
  have sound := tracked.stages at_
  have ended (other : Nat) (stage : Stage)
      (held : (service.withoutTask task).tasks.get other = some stage) :
      service.tasks.get other = some stage ∨ StageSound past other stage :=
    .inl (InsertionMap.get_of_delete held)
  have moved {next : Stage} (own : StageSound past task next) (other : Nat) (stage : Stage)
      (held : (service.atStage task next).tasks.get other = some stage) :
      service.tasks.get other = some stage ∨ StageSound past other stage := by
    rw [QueueService.atStage] at held
    by_cases same : other = task
    · rw [same, InsertionMap.get_set_self] at held
      cases held
      rw [same]
      exact .inr own
    · rw [InsertionMap.get_set_ne _ _ same] at held
      exact .inl held
  cases stage with
  | looking purpose jobId rest =>
    cases rest with
    | nil =>
      have other : ∀ id, QueueService.notFound purpose jobId ≠ .cancelled id true := by
        cases purpose <;> simp [QueueService.notFound]
      exact tracked.looked (quiet other) rfl ended
    | cons queue rest =>
      rw [QueueService.turn]
      obtain ⟨before, begun, left⟩ := sound
      cases held : service.jobs.get (queue, jobId) with
      | some job =>
        obtain ⟨first, added, -⟩ := tracked.found held
        have there : ¬ Removed before jobId := by
          intro removed
          cases held.symm.trans (tracked.gone (removed.of_begun begun) queue)
        exact tracked.looked (quiet (by simp)) rfl
          (moved (show StageSound past task (.found purpose jobId queue) from
            ⟨before, begun, there, first, added⟩))
      | none =>
        have own : StageSound past task (.looking purpose jobId rest) := by
          refine ⟨before, begun, ?_⟩
          intro lane first there
          obtain ⟨added, removed | next⟩ := left lane first there
          · exact ⟨added, .inl removed⟩
          · obtain rfl | later := List.mem_cons.mp next
            · exact ⟨added, .inl (by_contra fun kept => tracked.kept added kept held)⟩
            · exact ⟨added, .inr later⟩
        exact tracked.looked (quiet (by simp)) rfl (moved own)
  | found purpose jobId queue =>
    cases purpose with
    | getJobStatus => exact tracked.looked (quiet (by simp [QueueService.turn])) rfl ended
    | cancelJob =>
      rw [QueueService.turn]
      split
      · exact tracked.looked (quiet (by simp)) rfl ended
      · obtain ⟨before, begun, there, first, added⟩ := sound
        exact tracked.removed added

theorem Tracked.step (tracked : Tracked past service) {input : QueueInput} {answer : QueueAnswer}
    (fresh : FreshIds past service input) (moved : service.step input = some (after, answer)) :
    Tracked ((input, answer) :: past) after := by
  cases input with
  | addJob jobId type payload options =>
    obtain ⟨rfl, rfl⟩ := Prod.mk.inj (Option.some.inj moved)
    exact tracked.enqueued fresh rfl rfl rfl (by simp) (queued_progress _ _ _)
  | scheduleJob jobId type payload cronExpression options =>
    obtain ⟨rfl, rfl⟩ := Prod.mk.inj (Option.some.inj moved)
    exact tracked.enqueued fresh rfl rfl rfl (by simp) (queued_progress _ _ _)
  | begin task purpose jobId =>
    rw [QueueService.step] at moved
    split at moved
    · cases moved
    · obtain ⟨rfl, rfl⟩ := Prod.mk.inj (Option.some.inj moved)
      exact tracked.begun task purpose jobId
  | turn task =>
    obtain ⟨stage, at_, both⟩ := Option.map_eq_some_iff.mp moved
    obtain ⟨rfl, rfl⟩ := Prod.mk.inj both
    exact tracked.turned at_
  | promote queue jobId =>
    obtain ⟨job, held, state, rfl, rfl⟩ := advance_some moved
    exact tracked.advanced ⟨rfl, rfl, rfl, by simp⟩ held fun progress => progress.promoted state
  | start queue jobId =>
    rw [QueueService.step] at moved
    split at moved
    · rename_i worked
      obtain ⟨job, held, state, rfl, rfl⟩ := advance_some moved
      exact tracked.advanced ⟨rfl, rfl, rfl, by simp⟩ held fun progress =>
        progress.started state worked
    · cases moved
  | finish queue jobId reportId =>
    obtain ⟨job, held, state, rfl, rfl⟩ := advance_some moved
    exact tracked.processed held state

end Steps

theorem initial_tracked : Tracked [] QueueService.initial where
  found held := by cases held
  kept added := by cases added
  gone removed := by
    obtain ⟨e, member, -⟩ := removed
    cases member
  unknown _ := ⟨rfl, by simp [Removed]⟩
  idle _ _ := rfl
  stages held := by cases held

theorem run_tracked {past : QueueHistory} {service : QueueService}
    (run : QueueService.machine.Run FreshIds past service) : Tracked past service :=
  run.invariant Tracked initial_tracked fun _ tracked fresh moved => tracked.step fresh moved

/-- What an answer says of the job whose status was asked for, at the time of the answer. -/
structure StatusTrue (past : QueueHistory) (task : Nat) (id : String) (answer : Option JobStatus) :
    Prop where
  /-- A job that was added before the question is found, unless it is removed; one that was removed
      before it is not. -/
  found : ∃ before, begunAt past task = some (id, before) ∧
    (addedAs before id ≠ none → answer = none → Removed past id) ∧
    (Removed before id → answer = none)
  worked : ∀ status, answer = some status → status ≠ .pending →
    ∃ queue first, addedAs past id = some (queue, first) ∧ hasProcessor queue = true
  completed : answer = some .completed → ∃ queue first, addedAs past id = some (queue, first) ∧
    succeeds queue first.data = true ∧ processedTimes past id = 1
  failed : answer = some .failed → ∃ queue first, addedAs past id = some (queue, first) ∧
    succeeds queue first.data = false ∧
      processedTimes past id = max 1 ⌈first.options.attempts⌉₊

section Answers
variable {past : QueueHistory} {service after : QueueService} {task : Nat} {id : String}

/- The status of a job that is found, or that was removed meanwhile. -/
theorem Tracked.found_status (tracked : Tracked past service) {queue : QueueName}
    {before : QueueHistory} (begun : begunAt past task = some (id, before))
    (there : ¬ Removed before id) : StatusTrue past task id
      (some (statusOf ((service.jobs.get (queue, id)).map BullJob.state))) := by
  have looked : ∃ before, begunAt past task = some (id, before) ∧
      (addedAs before id ≠ none → some (statusOf ((service.jobs.get (queue, id)).map
        BullJob.state)) = none → Removed past id) ∧
      (Removed before id → some (statusOf ((service.jobs.get (queue, id)).map BullJob.state)) =
        none) :=
    ⟨before, begun, by simp, fun removed => absurd removed there⟩
  cases held : service.jobs.get (queue, id) with
  | none =>
    rw [held] at looked
    refine ⟨looked, ?_, by simp [statusOf], by simp [statusOf]⟩
    rintro status ⟨rfl⟩ other
    exact absurd rfl other
  | some job =>
    rw [held] at looked
    obtain ⟨first, added, progress⟩ := tracked.found held
    cases progress with
    | idle rests tried =>
      obtain rfl | rfl := rests
      all_goals
        refine ⟨looked, ?_, by simp [statusOf], by simp [statusOf]⟩
        rintro status ⟨rfl⟩ other
        exact absurd rfl other
    | active worked tried =>
      exact ⟨looked, fun _ _ _ => ⟨queue, first, added, worked⟩, by simp [statusOf],
        by simp [statusOf]⟩
    | completed worked own once =>
      exact ⟨looked, fun _ _ _ => ⟨queue, first, added, worked⟩,
        fun _ => ⟨queue, first, added, own, once⟩, by simp [statusOf]⟩
    | failed worked own tries =>
      exact ⟨looked, fun _ _ _ => ⟨queue, first, added, worked⟩, by simp [statusOf],
        fun _ => ⟨queue, first, added, own, tries⟩⟩

theorem Tracked.status_true (tracked : Tracked past service) {stage : Stage}
    (at_ : service.tasks.get task = some stage) {answer : Option JobStatus}
    (told : (service.turn task stage).2 = .status id answer) : StatusTrue past task id answer := by
  have sound := tracked.stages at_
  cases stage with
  | looking purpose jobId rest =>
    cases rest with
    | nil =>
      cases purpose with
      | cancelJob => cases told
      | getJobStatus =>
        cases told
        obtain ⟨before, begun, left⟩ := sound
        refine ⟨⟨before, begun, ?_, fun _ => rfl⟩, by simp, by simp, by simp⟩
        intro added _
        obtain ⟨⟨queue, first⟩, there⟩ := Option.ne_none_iff_exists'.mp added
        obtain ⟨-, removed | inside⟩ := left queue first there
        · exact removed
        · cases inside
    | cons queue rest =>
      rw [QueueService.turn] at told
      split at told
      · cases told
      · cases told
  | found purpose jobId queue =>
    obtain ⟨before, begun, there, -⟩ := sound
    cases purpose with
    | getJobStatus =>
      cases told
      exact tracked.found_status begun there
    | cancelJob =>
      rw [QueueService.turn] at told
      split at told
      · cases told
      · cases told

/- What an id was added as stays so for the rest of a run. -/
theorem added_before {past later earlier : QueueHistory} {e : QueueInput × QueueAnswer}
    (run : QueueService.machine.Run FreshIds past service) (split : past = later ++ e :: earlier)
    {added : QueueName × BullJob} (before : addedAs earlier id = some added) :
    addedAs past id = some added := by
  have kept := run.after split (fun later _ => addedAs (later ++ e :: earlier) id = some added)
    (fun _ fresh _ => addedAs_later fresh before) fun _ known fresh _ => addedAs_later fresh known
  rw [split]
  exact kept

end Answers

/-- In every run, whatever else goes on between the awaits of a lookup: a status is told of every job
    that was added before and is not removed, and of none that was removed before; COMPLETED is told
    of jobs that were processed once and without an error, and FAILED of those whose processing
    throws, after as many tries as they were given. -/
theorem statuses_true {past later earlier : QueueHistory} {service : QueueService} {task : Nat}
    {id : String} (run : QueueService.machine.Run FreshIds past service) {answer : Option JobStatus}
    (exchange : past = later ++ (.turn task, .status id answer) :: earlier) :
    StatusTrue earlier task id answer := by
  obtain ⟨before, after, reached, -, moved⟩ := run.exchange exchange
  obtain ⟨stage, at_, both⟩ := Option.map_eq_some_iff.mp moved
  exact (run_tracked reached).status_true at_ (Prod.mk.inj both).2

theorem run_with {past : QueueHistory} {service after : QueueService} (input : QueueInput)
    {answer : QueueAnswer} (run : QueueService.machine.Run FreshIds past service)
    (fresh : FreshIds past service input) (moved : service.step input = some (after, answer)) :
    QueueService.machine.Run FreshIds ((input, answer) :: past) after := run.next fresh moved

def urgentOptions : AddOptions := ⟨some .high, none, none, none, none, none⟩

def plainOptions : AddOptions := ⟨none, none, none, none, none, none⟩

/-- An email job that is worked on between the awaits of a lookup. -/
theorem email_status : ∃ past service answer,
    QueueService.machine.Run FreshIds ((.turn 0, .status "j" answer) :: past) service ∧
      answer = some .completed ∧ StatusTrue past 0 "j" answer := by
  have added := run_with (.addJob "j" "email" (.object []) plainOptions) Machine.Run.start rfl rfl
  have begun := run_with (.begin 0 .getJobStatus "j") added trivial rfl
  have started := run_with (.start .default "j") begun trivial rfl
  have found := run_with (.turn 0) started trivial rfl
  have finished := run_with (.finish .default "j" "") found trivial rfl
  have told := run_with (.turn 0) finished trivial rfl
  exact ⟨_, _, some .completed, told, rfl, @statuses_true _ [] _ _ _ _ told _ rfl⟩

/-- A job that is added with a high or a low priority is never processed: its queue has no processor,
    and all that is ever told of it is that it is pending. -/
theorem priority_lanes_stand_still {past : QueueHistory} {service : QueueService}
    (run : QueueService.machine.Run FreshIds past service) {id : String} {queue : QueueName}
    {first : BullJob} (added : addedAs past id = some (queue, first))
    (priority : first.data.priority ≠ .medium) :
    processedTimes past id = 0 ∧ ∀ later earlier task status,
      past = later ++ (.turn task, .status id (some status)) :: earlier → status = .pending := by
  have alone : hasProcessor queue = false := by
    rw [added_lane added]
    cases other : first.data.priority with
    | high => rfl
    | medium => exact absurd other priority
    | low => rfl
  refine ⟨(run_tracked run).idle added alone, ?_⟩
  intro later earlier task status exchange
  obtain ⟨before, after, reached, -, moved⟩ := run.exchange exchange
  obtain ⟨stage, at_, both⟩ := Option.map_eq_some_iff.mp moved
  have told := (run_tracked reached).status_true at_ (Prod.mk.inj both).2
  by_contra other
  obtain ⟨lane, own, there, worked⟩ := told.worked status rfl other
  cases (added_before run exchange there).symm.trans added
  cases worked.symm.trans alone

theorem urgent_job_stands_still : ∃ past service,
    QueueService.machine.Run FreshIds past service ∧ processedTimes past "j" = 0 ∧
      ∀ later earlier task status,
        past = later ++ (.turn task, .status "j" (some status)) :: earlier → status = .pending := by
  have added := run_with (.addJob "j" "email" (.object []) urgentOptions) Machine.Run.start rfl rfl
  have begun := run_with (.begin 0 .getJobStatus "j") added trivial rfl
  have first := run_with (.turn 0) begun trivial rfl
  have found := run_with (.turn 0) first trivial rfl
  have told := run_with (.turn 0) found trivial rfl
  exact ⟨_, _, told, priority_lanes_stand_still told rfl (by decide)⟩

end AstraPort.Queue
