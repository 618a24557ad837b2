import AstraPort.Files.Moves

/- Records and their blobs, which no transaction joins. Calls and passes of the collector come
   one after the other and any await of theirs may be rejected: a live record keeps its blob,
   and a file on which a pass fails stays on record until a pass takes both. -/
namespace AstraPort.Files

/-- Storage paths are compared literally, and the parts of an upload are at none of them. -/
structure StorageLayout.Literal {Path : Type} (layout : StorageLayout Path) : Prop where
  literal : ∀ {one other : String}, layout.fullPath one = layout.fullPath other → one = other
  parts_apart : ∀ {storagePath : String} {uploadId : Uuid},
    layout.tempPath uploadId ≠ layout.fullPath storagePath

namespace FilesService
variable {Path : Type} [DecidableEq Path]

/-- Rows of deleted files, as they are, each once. -/
structure Deletable (records : InsertionMap String FileRecord) (files : List FileRecord) : Prop where
  once : (files.map FileRecord.id).Nodup
  rows : ∀ file ∈ files, records.get file.id = some file
  deleted : ∀ file ∈ files, file.isDeleted = true

/-- What a call at an await relies on. -/
def StageSafe (layout : StorageLayout Path) (records : InsertionMap String FileRecord)
    (files : InsertionMap Path Bytes) : FilesStage Path → Prop
  | .append tempPath _ _ => ∃ uploadId, tempPath = layout.tempPath uploadId
  | .rename _ tempPath _ => ∃ uploadId, tempPath = layout.tempPath uploadId
  | .saveRecord _ draft => files.get (layout.fullPath draft.storagePath) ≠ none
  | .saveDeleted record => records.get record.id = some record
  | .delete file rest => Deletable records (file :: rest)
  | .remove file rest => Deletable records (file :: rest) ∧
      files.get (layout.fullPath file.storagePath) = none
  | _ => True

/-- The two stores: rows are under their ids and share no path, live ones have their blob. -/
structure Stored (layout : StorageLayout Path) (records : InsertionMap String FileRecord)
    (files : InsertionMap Path Bytes) : Prop where
  keyed : ∀ key record, records.get key = some record → record.id = key
  paths : ∀ key record other rival, records.get key = some record →
    records.get other = some rival → record.storagePath = rival.storagePath → key = other
  live : ∀ key record, records.get key = some record → record.isDeleted = false →
    files.get (layout.fullPath record.storagePath) ≠ none

structure Sound (layout : StorageLayout Path) (records : InsertionMap String FileRecord)
    (files : InsertionMap Path Bytes) (activeUploads : InsertionMap Uuid Path)
    (tasks : InsertionMap Nat (FilesTask Path)) : Prop where
  stored : Stored layout records files
  uploads : ∀ e ∈ activeUploads.entries, ∃ uploadId, e.2 = layout.tempPath uploadId
  stages : ∀ task running, tasks.get task = some running →
    StageSafe layout records files running.stage

def SoundService (layout : StorageLayout Path) (service : FilesService Path) : Prop :=
  Sound layout service.records service.files service.activeUploads service.tasks

section Stores
variable {layout : StorageLayout Path} {records : InsertionMap String FileRecord}
  {files : InsertionMap Path Bytes}

theorem Deletable.later {file : FileRecord} {rest : List FileRecord}
    (deletable : Deletable records (file :: rest)) : Deletable records rest where
  once := (List.nodup_cons.mp deletable.once).2
  rows other member := deletable.rows other (List.mem_cons_of_mem _ member)
  deleted other member := deletable.deleted other (List.mem_cons_of_mem _ member)

theorem Deletable.removed {file : FileRecord} {rest : List FileRecord}
    (deletable : Deletable records (file :: rest)) : Deletable (records.delete file.id) rest where
  once := (List.nodup_cons.mp deletable.once).2
  rows other member := by
    have ne : other.id ≠ file.id := fun same =>
      (List.nodup_cons.mp deletable.once).1 (same ▸ List.mem_map_of_mem member)
    rw [InsertionMap.get_delete_ne _ ne]
    exact deletable.rows other (List.mem_cons_of_mem _ member)
  deleted other member := deletable.deleted other (List.mem_cons_of_mem _ member)

theorem mem_expired {cutoff : Int} {file : FileRecord} : file ∈ expired records cutoff ↔
    file ∈ records.values ∧ file.isDeleted = true ∧ file.updatedAt < cutoff := by
  simp [expired]

theorem expired_deletable (stored : Stored layout records files) (cutoff : Int) :
    Deletable records (expired records cutoff) := by
  have row_of {file : FileRecord} (member : file ∈ expired records cutoff) :
      records.get file.id = some file := by
    obtain ⟨key, held⟩ := records.mem_values.mp (mem_expired.mp member).1
    rw [stored.keyed key file held]
    exact held
  refine ⟨?_, fun file member => row_of member, fun file member => (mem_expired.mp member).2.1⟩
  · have ids : records.values.map FileRecord.id = records.keys := by
      rw [InsertionMap.values, List.map_map, InsertionMap.keys]
      refine List.map_congr_left fun e entry => ?_
      exact stored.keyed e.1 e.2 (records.get_iff_mem.mpr entry)
    have once : (records.values.map FileRecord.id).Nodup := ids ▸ records.distinct
    exact once.sublist (List.filter_sublist.map _)

theorem Stored.written (stored : Stored layout records files) (path : Path) (data : Bytes) :
    Stored layout records (files.set path data) := by
  refine { stored with live := fun key record held undeleted => ?_ }
  rw [InsertionMap.get_set]
  split
  · exact Option.some_ne_none data
  · exact stored.live key record held undeleted

theorem Stored.unparted (stored : Stored layout records files) (literal : layout.Literal)
    (uploadId : Uuid) : Stored layout records (files.delete (layout.tempPath uploadId)) := by
  refine { stored with live := fun key record held undeleted => ?_ }
  rw [InsertionMap.get_delete_ne _ literal.parts_apart.symm]
  exact stored.live key record held undeleted

/- The blob of a deleted file is no live record's. -/
theorem Stored.blobDeleted (stored : Stored layout records files) (literal : layout.Literal)
    {file : FileRecord} (row : records.get file.id = some file) (deleted : file.isDeleted = true) :
    Stored layout records (files.delete (layout.fullPath file.storagePath)) := by
  refine { stored with live := fun key record held undeleted => ?_ }
  by_cases same : record.storagePath = file.storagePath
  · obtain rfl := stored.paths key record file.id file held row same
    obtain rfl := Option.some.inj (held.symm.trans row)
    rw [deleted] at undeleted
    cases undeleted
  · rw [InsertionMap.get_delete_ne _ fun paths => same (literal.literal paths)]
    exact stored.live key record held undeleted

theorem Stored.removed (stored : Stored layout records files) (id : String) :
    Stored layout (records.delete id) files := by
  refine ⟨fun key record held => ?_, fun key record other rival held held' same => ?_,
    fun key record held undeleted => ?_⟩
  · exact stored.keyed key record (InsertionMap.get_of_delete held)
  · exact stored.paths key record other rival (InsertionMap.get_of_delete held)
      (InsertionMap.get_of_delete held') same
  · exact stored.live key record (InsertionMap.get_of_delete held) undeleted

theorem path_untaken {id storagePath : String} (free : isPathTaken records id storagePath = false)
    {key : String} {record : FileRecord} (held : records.get key = some record) (ne : key ≠ id) :
    record.storagePath ≠ storagePath := by
  intro same
  have taken := List.any_eq_false.mp free (key, record) (records.get_iff_mem.mp held)
  simp [ne, same] at taken

/- An INSERT whose blob is there already, at a path of its own. -/
theorem Stored.inserted (stored : Stored layout records files) {draft : FileDraft}
    {recordId : String} {now : Int} {saved : InsertionMap String FileRecord} {record : FileRecord}
    (blob : files.get (layout.fullPath draft.storagePath) ≠ none)
    (inserted : insertRecord records draft recordId now = some (saved, record)) :
    Stored layout saved files := by
  obtain ⟨fresh, rfl, id, _, path, _⟩ := insertRecord_saved inserted
  have untaken : isPathTaken records recordId draft.storagePath = false := by
    unfold insertRecord at inserted
    split at inserted
    · cases inserted
    · rw [Option.ite_none_left_eq_some, not_or] at inserted
      simpa using inserted.1.2
  refine ⟨InsertionMap.get_set_all id stored.keyed, fun key row other rival held held' same => ?_,
    fun key row held undeleted => ?_⟩
  · rcases InsertionMap.get_set_cases held with ⟨rfl, rfl⟩ | ⟨ne, before⟩ <;>
      rcases InsertionMap.get_set_cases held' with ⟨rfl, rfl⟩ | ⟨ne', before'⟩
    · rfl
    · exact absurd (same.symm.trans path) (path_untaken untaken before' ne')
    · exact absurd (same.trans path) (path_untaken untaken before ne)
    · exact stored.paths key row other rival before before' same
  · rcases InsertionMap.get_set_cases held with ⟨rfl, rfl⟩ | ⟨_, before⟩
    · rw [path]
      exact blob
    · exact stored.live key row before undeleted

/- Marking a row that is as it was found: it keeps its id and its path. -/
theorem Stored.marked (stored : Stored layout records files) {record : FileRecord} {now : Int}
    {saved : InsertionMap String FileRecord} (row : records.get record.id = some record)
    (marked : markDeleted records record now = some saved) : Stored layout saved files := by
  simp only [markDeleted, row] at marked
  split at marked
  · exact Option.some.inj marked ▸ stored
  · obtain rfl := Option.some.inj marked
    have cases_of {key : String} {held_row : FileRecord}
        (held : (records.set record.id { record with isDeleted := true, updatedAt := now }).get key =
          some held_row) :
        (key = record.id ∧ held_row.isDeleted = true ∨ records.get key = some held_row) ∧
          ∃ old, records.get key = some old ∧ old.storagePath = held_row.storagePath ∧
            old.id = held_row.id := by
      rcases InsertionMap.get_set_cases held with ⟨rfl, rfl⟩ | ⟨_, before⟩
      · exact ⟨Or.inl ⟨rfl, rfl⟩, record, row, rfl, rfl⟩
      · exact ⟨Or.inr before, held_row, before, rfl, rfl⟩
    refine ⟨fun key row held => ?_, fun key row other rival held held' same => ?_,
      fun key row held undeleted => ?_⟩
    · obtain ⟨_, old, before, _, id⟩ := cases_of held
      exact id ▸ stored.keyed key old before
    · obtain ⟨_, old, before, path, _⟩ := cases_of held
      obtain ⟨_, old', before', path', _⟩ := cases_of held'
      exact stored.paths key old other old' before before' (path.trans (same.trans path'.symm))
    · rcases (cases_of held).1 with ⟨_, deleted⟩ | before
      · rw [deleted] at undeleted
        cases undeleted
      · exact stored.live key row before undeleted

end Stores

section Steps
variable {layout : StorageLayout Path} {records : InsertionMap String FileRecord}
  {files : InsertionMap Path Bytes} {activeUploads : InsertionMap Uuid Path}
  {tasks : InsertionMap Nat (FilesTask Path)} {timed : TimedFiles} {task : Nat}
  {userId : Option String}

/- A step that takes the one call under way to its next await. -/
theorem Sound.goesOn (stored : Stored layout records files)
    (uploads : ∀ e ∈ activeUploads.entries, ∃ uploadId, e.2 = layout.tempPath uploadId)
    (alone : ∀ e ∈ tasks.entries, e.1 = timed.call.task) (same : timed.call.task = task)
    {stage : FilesStage Path} (own : StageSafe layout records files stage) :
    Sound layout records files activeUploads (tasks.set task ⟨userId, stage⟩) :=
  ⟨stored, uploads, @goOn_stages Path tasks timed task userId
    (fun _ stage => StageSafe layout records files stage) alone same stage own⟩

theorem Sound.finishes (stored : Stored layout records files)
    (uploads : ∀ e ∈ activeUploads.entries, ∃ uploadId, e.2 = layout.tempPath uploadId)
    (alone : ∀ e ∈ tasks.entries, e.1 = timed.call.task) (same : timed.call.task = task) :
    Sound layout records files activeUploads (tasks.delete task) :=
  ⟨stored, uploads, @finish_stages Path tasks timed task
    (fun _ stage => StageSafe layout records files stage) alone same⟩

theorem SoundService.nextFile {service : FilesService Path}
    (stored : Stored layout service.records service.files)
    (uploads : ∀ e ∈ service.activeUploads.entries, ∃ uploadId, e.2 = layout.tempPath uploadId)
    (alone : ∀ e ∈ service.tasks.entries, e.1 = timed.call.task) (same : timed.call.task = task)
    {rest : List FileRecord} (deletable : Deletable service.records rest) :
    SoundService layout (service.nextFile task userId rest).1 := by
  cases rest with
  | nil => exact Sound.finishes stored uploads alone same
  | cons file rest => exact Sound.goesOn stored uploads alone same deletable

theorem afterCheck_safe (checked : Checked) : StageSafe layout records files (afterCheck checked) := by
  cases checked <;> trivial

theorem entry_safe {service : FilesService Path}
    (uploads : ∀ e ∈ service.activeUploads.entries, ∃ uploadId, e.2 = layout.tempPath uploadId)
    {stage : FilesStage Path} (entry : Entry service userId stage) :
    StageSafe layout service.records service.files stage := by
  cases entry with
  | checks user checked => trivial
  | appends session => exact uploads _ session
  | renames session for_user => exact uploads _ session
  | finds user fileId => trivial
  | collects cutoff => trivial

theorem SoundService.step {config : FilesConfig Path} {service after : FilesService Path}
    (literal : config.layout.Literal) (sound : SoundService config.layout service)
    (alone : ∀ e ∈ service.tasks.entries, e.1 = timed.call.task) {answer : FilesAnswer}
    (moved : FilesService.step config service timed = some (after, answer)) :
    SoundService config.layout after := by
  have move := step_moves moved
  generalize asked : timed.call = call at move
  generalize outcome : (after, answer) = result at move
  have own : timed.call.task = call.task := by rw [asked]
  have safe {task : Nat} {userId : Option String} {stage : FilesStage Path}
      (running : service.tasks.get task = some ⟨userId, stage⟩) :
      StageSafe config.layout service.records service.files stage := sound.stages task _ running
  obtain rfl : after = result.1 := congrArg Prod.fst outcome
  clear outcome
  have stored := sound.stored
  have uploads := sound.uploads
  cases move with
  | started free starts =>
    exact Sound.goesOn stored uploads alone own (entry_safe uploads (start_entry starts))
  | refused free => exact sound
  | failed running => exact Sound.finishes stored uploads alone own
  | rejected running refusing => exact Sound.finishes stored uploads alone own
  | allowed running there fits => exact Sound.goesOn stored uploads alone own (afterCheck_safe _)
  | noQuota running absent => exact Sound.goesOn stored uploads alone own trivial
  | created running absent =>
    unfold checkStorageQuota
    split
    · exact Sound.finishes stored uploads alone own
    · exact Sound.goesOn stored uploads alone own (afterCheck_safe _)
  | scanned running => exact Sound.goesOn stored uploads alone own trivial
  | optimized running => exact Sound.goesOn stored uploads alone own trivial
  | @uploaded task userId draft data running =>
    apply Sound.goesOn (stored.written _ data) uploads alone own
    simp [StageSafe]
  | opened running =>
    refine Sound.goesOn stored ?_ alone own trivial
    rintro ⟨key, tempPath⟩ member
    rcases (InsertionMap.set_entries_iff _ _ _ _ _).mp member with ⟨_, rfl⟩ | ⟨_, before⟩
    · exact ⟨_, rfl⟩
    · exact uploads _ before
  | initialized running => exact Sound.finishes (stored.written _ _) uploads alone own
  | appended running => exact Sound.finishes (stored.written _ _) uploads alone own
  | @renamed task userId uploadId tempPath draft data running there nameable =>
    obtain ⟨parts, rfl⟩ := safe running
    refine Sound.goesOn ((stored.unparted literal parts).written _ data) ?_ alone own ?_
    · intro e member
      exact uploads e (List.mem_filter.mp member).1
    · simp [StageSafe]
  | inserted running saved =>
    exact Sound.goesOn (stored.inserted (safe running) saved) uploads alone own trivial
  | uncharged running absent => exact Sound.finishes stored uploads alone own
  | charging running there => exact Sound.goesOn stored uploads alone own trivial
  | charged running charge => exact Sound.finishes stored uploads alone own
  | found running there owned =>
    apply Sound.goesOn stored uploads alone own
    simp only [StageSafe]
    rw [stored.keyed _ _ there]
    exact there
  | marked running saved => exact Sound.finishes (stored.marked (safe running) saved) uploads alone own
  | collecting running =>
    exact SoundService.nextFile stored uploads alone own (expired_deletable stored _)
  | @deleted task userId file rest running =>
    have deletable : Deletable service.records (file :: rest) := safe running
    refine Sound.goesOn (stored.blobDeleted literal (deletable.rows file List.mem_cons_self)
      (deletable.deleted file List.mem_cons_self)) uploads alone own ⟨deletable, ?_⟩
    simp
  | @skipped task userId stage file rest running at_file =>
    have deletable : Deletable service.records (file :: rest) := by
      rcases at_file with rfl | rfl
      · exact safe running
      · exact (safe running).1
    exact SoundService.nextFile stored uploads alone own deletable.later
  | @removed task userId file rest running =>
    have deletable : Deletable service.records (file :: rest) := (safe running).1
    have sound_stores : Stored config.layout (service.withRecords
        (service.records.delete file.id)).records service.files := stored.removed file.id
    exact SoundService.nextFile sound_stores uploads alone own deletable.removed

theorem sound_always {config : FilesConfig Path} (literal : config.layout.Literal)
    {past : List (TimedFiles × FilesAnswer)} {service : FilesService Path}
    (run : (machine config).Run OneAtATime past service) : SoundService config.layout service := by
  refine run.invariant (fun _ service => SoundService config.layout service) ?_ ?_
  · refine ⟨⟨?_, ?_, ?_⟩, ?_, ?_⟩ <;> simp [machine, initial, InsertionMap.empty, InsertionMap.get]
  · intro past service timed after answer _ sound alone moved
    exact sound.step literal alone moved

end Steps
section Passes
variable (config : FilesConfig Path)

/-- Turns of one call, each with what was answered to its await. -/
def TurnsOf (task : Nat) (turns : List (TimedFiles × FilesAnswer)) : Prop :=
  ∀ e ∈ turns, ∃ ok, e.1.call = .proceed task ok

def WithoutFailure (task : Nat) (turns : List (TimedFiles × FilesAnswer)) : Prop :=
  ∀ e ∈ turns, e.1.call = .proceed task true

def InPlace (service : FilesService Path) (file : FileRecord) : Prop :=
  service.records.get file.id = some file

def BothGone (service : FilesService Path) (file : FileRecord) : Prop :=
  service.records.get file.id = none ∧
    service.files.get (config.layout.fullPath file.storagePath) = none

/-- The newest turn of a history is one of a pass, begun at `now`, that fails on a file:
    storage.delete or the remove of the repository rejects. -/
def FailsOn (task : Nat) (now : Int) (file : FileRecord)
    (past : List (TimedFiles × FilesAnswer)) : Prop :=
  ∃ time answer turns first earlier before userId rest,
    past = (⟨time, .proceed task false⟩, answer) ::
      (turns ++ (⟨now, .cleanupDeletedFiles task⟩, first) :: earlier) ∧ TurnsOf task turns ∧
    (machine config).Run OneAtATime
      (turns ++ (⟨now, .cleanupDeletedFiles task⟩, first) :: earlier) before ∧
    (before.tasks.get task = some ⟨userId, .delete file rest⟩ ∨
      before.tasks.get task = some ⟨userId, .remove file rest⟩)

end Passes

section Turns
variable {config : FilesConfig Path} {service after : FilesService Path} {answer : FilesAnswer}
  {time : Int} {task : Nat} {userId : Option String} {ok : Bool}

theorem cleanup_started
    (moved : step config service ⟨time, .cleanupDeletedFiles task⟩ = some (after, answer)) :
    after = service.atStage task none (.findExpired (cutoffDate config.zone time)) := by
  simp only [step, FilesCall.task] at moved
  split at moved
  · rename_i running _
    cases stage : running.stage <;> rw [stage] at moved <;> cases moved
  · exact (congrArg Prod.fst (Option.some.inj moved)).symm

/-- A turn of the collector, by the stage it stands at and what its await answers. -/
inductive CollectorTurn (config : FilesConfig Path) (service : FilesService Path) (task : Nat)
    (userId : Option String) : Bool → FilesStage Path → FilesService Path → Prop where
  | unfound (cutoff : Int) :
      CollectorTurn config service task userId false (.findExpired cutoff)
        (service.withoutTask task)
  | found (cutoff : Int) : CollectorTurn config service task userId true (.findExpired cutoff)
      (service.nextFile task userId (expired service.records cutoff)).1
  | skipped {stage : FilesStage Path} (file : FileRecord) (rest : List FileRecord)
      (at_file : stage = .delete file rest ∨ stage = .remove file rest) :
      CollectorTurn config service task userId false stage (service.nextFile task userId rest).1
  | deleted (file : FileRecord) (rest : List FileRecord) :
      CollectorTurn config service task userId true (.delete file rest)
        ((service.withFiles (service.files.delete (config.layout.fullPath
          file.storagePath))).atStage task userId (.remove file rest))
  | removed (file : FileRecord) (rest : List FileRecord) :
      CollectorTurn config service task userId true (.remove file rest)
        ((service.withRecords (service.records.delete file.id)).nextFile task userId rest).1

/-- The files that a pass still has before it; none at the stages of other calls. -/
def ahead : FilesStage Path → Option (List FileRecord)
  | .findExpired _ => some []
  | .delete file rest => some (file :: rest)
  | .remove file rest => some (file :: rest)
  | _ => none

omit [DecidableEq Path] in
theorem ahead_at_file {stage : FilesStage Path} {file : FileRecord} {rest : List FileRecord}
    (at_file : stage = .delete file rest ∨ stage = .remove file rest) :
    ahead stage = some (file :: rest) := by
  rcases at_file with rfl | rfl <;> rfl

/- A rejection at a file: the pass goes on with the next one. -/
theorem CollectorTurn.skips {stage : FilesStage Path}
    (turn : CollectorTurn config service task userId false stage after) {file : FileRecord}
    {rest : List FileRecord} (at_file : stage = .delete file rest ∨ stage = .remove file rest) :
    after = (service.nextFile task userId rest).1 := by
  cases turn with
  | unfound cutoff => rcases at_file with here | here <;> cases here
  | skipped other later at_other =>
    have same := (ahead_at_file at_other).symm.trans (ahead_at_file at_file)
    rw [(List.cons.inj (Option.some.inj same)).2]

omit [DecidableEq Path] in
theorem atStage_task {stage : FilesStage Path} {running : FilesTask Path}
    (at_task : (service.atStage task userId stage).tasks.get task = some running) :
    running = ⟨userId, stage⟩ :=
  (Option.some.inj ((InsertionMap.get_set_self _ _ _).symm.trans at_task)).symm

theorem collector_turn {stage : FilesStage Path}
    (running : service.tasks.get task = some ⟨userId, stage⟩) (collecting : ahead stage ≠ none)
    {timed : TimedFiles} (asked : timed.call = .proceed task ok)
    (moved : step config service timed = some (after, answer)) :
    CollectorTurn config service task userId ok stage after := by
  obtain ⟨time, call⟩ := timed
  obtain rfl : call = .proceed task ok := asked
  have turned : service.proceed config task userId ok time stage = some (after, answer) := by
    simpa only [step, FilesCall.task, running, turn] using moved
  cases stage with
  | findExpired cutoff =>
    cases ok with
    | false =>
      obtain rfl := congrArg Prod.fst (Option.some.inj turned)
      exact .unfound cutoff
    | true =>
      obtain rfl := congrArg Prod.fst (Option.some.inj turned)
      exact .found cutoff
  | delete file rest =>
    cases ok with
    | false =>
      obtain rfl := congrArg Prod.fst (Option.some.inj turned)
      exact .skipped file rest (Or.inl rfl)
    | true =>
      obtain rfl := congrArg Prod.fst (Option.some.inj turned)
      exact .deleted file rest
  | remove file rest =>
    cases ok with
    | false =>
      obtain rfl := congrArg Prod.fst (Option.some.inj turned)
      exact .skipped file rest (Or.inr rfl)
    | true =>
      obtain rfl := congrArg Prod.fst (Option.some.inj turned)
      exact .removed file rest
  | _ => exact absurd rfl collecting

theorem proceed_runs {timed : TimedFiles} (asked : timed.call = .proceed task ok)
    (moved : step config service timed = some (after, answer)) :
    ∃ userId stage, service.tasks.get task = some ⟨userId, stage⟩ := by
  obtain ⟨time, call⟩ := timed
  obtain rfl : call = .proceed task ok := asked
  cases running : service.tasks.get task with
  | none => simp [step, FilesCall.task, running, start] at moved
  | some at_stage => exact ⟨at_stage.userId, at_stage.stage, rfl⟩

omit [DecidableEq Path] in
theorem nextFile_task (rest : List FileRecord) :
    (service.nextFile task userId rest).1.tasks.get task =
      (collect rest).map fun stage => ⟨userId, stage⟩ := by
  cases rest <;> simp [nextFile, collect, finish, withoutTask, goOn, atStage]

omit [DecidableEq Path] in
theorem nextFile_records (rest : List FileRecord) :
    (service.nextFile task userId rest).1.records = service.records := by
  cases rest <;> rfl

end Turns

section Histories
variable {config : FilesConfig Path} {service : FilesService Path}
  {past : List (TimedFiles × FilesAnswer)} {task : Nat} {now : Int} {file : FileRecord}

/-- A pass waits for its list of files, or all files ahead of it are past its cutoff date. -/
structure Expiring (cutoff : Int) (stage : FilesStage Path) : Prop where
  collecting : ahead stage ≠ none
  asked : ∀ date, stage = .findExpired date → date = cutoff
  expired : ∀ files ∈ ahead stage, ∀ one ∈ files, one.updatedAt < cutoff

omit [DecidableEq Path] in
theorem nextFile_expiring {cutoff : Int} {userId : Option String} {rest : List FileRecord}
    (before : ∀ one ∈ rest, one.updatedAt < cutoff) : ∀ running,
      (service.nextFile task userId rest).1.tasks.get task = some running →
      Expiring cutoff running.stage := by
  intro running at_task
  rw [nextFile_task] at at_task
  cases rest with
  | nil => cases at_task
  | cons file rest =>
    obtain rfl := Option.some.inj at_task
    exact ⟨by simp [ahead], by simp, fun files member => Option.some.inj member ▸ before⟩

theorem pass_expiring (run : (machine config).Run OneAtATime past service)
    {turns earlier : List (TimedFiles × FilesAnswer)} {first : FilesAnswer}
    (split : past = turns ++ (⟨now, .cleanupDeletedFiles task⟩, first) :: earlier)
    (own : TurnsOf task turns) : ∀ running, service.tasks.get task = some running →
      Expiring (cutoffDate config.zone now) running.stage := by
  refine run.after split (fun turns service => TurnsOf task turns → ∀ running,
    service.tasks.get task = some running → Expiring (cutoffDate config.zone now) running.stage)
    ?_ ?_ own
  · intro before after _ _ moved _ running at_task
    obtain rfl := cleanup_started moved
    obtain rfl := atStage_task at_task
    exact ⟨by simp [ahead], by simp, by simp [ahead]⟩
  · intro turns service timed after answer _ known _ moved own
    obtain ⟨ok, asked⟩ := own _ List.mem_cons_self
    obtain ⟨userId, stage, running⟩ := proceed_runs asked moved
    have expiring := known (fun e member => own e (List.mem_cons_of_mem _ member)) _ running
    cases collector_turn running expiring.collecting asked moved with
    | unfound cutoff => simp [withoutTask]
    | found cutoff =>
      refine nextFile_expiring fun one member => ?_
      exact expiring.asked cutoff rfl ▸ (mem_expired.mp member).2.2
    | skipped file rest at_file =>
      exact nextFile_expiring fun one member =>
        expiring.expired _ (ahead_at_file at_file) one (List.mem_cons_of_mem _ member)
    | deleted file rest =>
      intro running at_task
      obtain rfl := atStage_task at_task
      exact ⟨by simp [ahead], by simp, expiring.expired⟩
    | removed file rest =>
      exact nextFile_expiring fun one member =>
        expiring.expired _ rfl one (List.mem_cons_of_mem _ member)

/-- A pass has a file behind it. -/
structure PassedBy (file : FileRecord) (stage : FilesStage Path) : Prop where
  collecting : ahead stage ≠ none
  listed : ∀ cutoff, stage ≠ .findExpired cutoff
  behind : ∀ files ∈ ahead stage, file.id ∉ files.map FileRecord.id

omit [DecidableEq Path] in
theorem PassedBy.later {stage : FilesStage Path} (passed : PassedBy file stage)
    {other : FileRecord} {rest : List FileRecord} (held : ahead stage = some (other :: rest)) :
    file.id ≠ other.id ∧ file.id ∉ rest.map FileRecord.id := by
  have behind := passed.behind _ held
  rwa [List.map_cons, List.mem_cons, not_or] at behind

omit [DecidableEq Path] in
theorem nextFile_passed {userId : Option String} {rest : List FileRecord}
    (behind : file.id ∉ rest.map FileRecord.id) : ∀ running,
      (service.nextFile task userId rest).1.tasks.get task = some running →
      PassedBy file running.stage := by
  intro running at_task
  rw [nextFile_task] at at_task
  cases rest with
  | nil => cases at_task
  | cons other rest =>
    obtain rfl := Option.some.inj at_task
    exact ⟨by simp [ahead], by simp, fun files member => Option.some.inj member ▸ behind⟩

/- A pass that fails on a file has found it on record, deleted and past its cutoff date. -/
theorem FailsOn.found (literal : config.layout.Literal) (fails : FailsOn config task now file past) :
    ∃ turn prior before userId rest, past = turn :: prior ∧
      (machine config).Run OneAtATime prior before ∧ turn.1.call = .proceed task false ∧
      Deletable before.records (file :: rest) ∧ file.updatedAt < cutoffDate config.zone now ∧
      (before.tasks.get task = some ⟨userId, .delete file rest⟩ ∨
        before.tasks.get task = some ⟨userId, .remove file rest⟩) := by
  obtain ⟨time, answer, turns, first, earlier, before, userId, rest, rfl, own, run, at_file⟩ := fails
  have expiring := pass_expiring run rfl own
  refine ⟨_, _, before, userId, rest, rfl, run, rfl, ?_, ?_, at_file⟩
  · rcases at_file with running | running
    · exact (sound_always literal run).stages task _ running
    · exact ((sound_always literal run).stages task _ running).1
  · rcases at_file with running | running
    · exact (expiring _ running).expired _ rfl file List.mem_cons_self
    · exact (expiring _ running).expired _ rfl file List.mem_cons_self

/- To the end of the pass the record is in place. -/
theorem failed_in_place (literal : config.layout.Literal)
    (run : (machine config).Run OneAtATime past service)
    {later failed : List (TimedFiles × FilesAnswer)} (split : past = later ++ failed)
    (fails : FailsOn config task now file failed) (own : TurnsOf task later) :
    InPlace service file := by
  obtain ⟨turn, prior, before, userId, rest, rfl, reached, asked, deletable, _, at_file⟩ :=
    fails.found literal
  have all := run.after split (fun later service => TurnsOf task later → InPlace service file ∧
    ∀ running, service.tasks.get task = some running → PassedBy file running.stage) ?_ ?_
  · exact (all own).1
  · intro again after shorter _ moved _
    obtain rfl := shorter.state_unique reached
    obtain rfl : after = (again.nextFile task userId rest).1 := by
      rcases at_file with running | running
      · exact (collector_turn running (by simp [ahead]) asked moved).skips (Or.inl rfl)
      · exact (collector_turn running (by simp [ahead]) asked moved).skips (Or.inr rfl)
    refine ⟨?_, nextFile_passed (List.nodup_cons.mp deletable.once).1⟩
    rw [InPlace, nextFile_records]
    exact deletable.rows file List.mem_cons_self
  · intro later service timed after answer _ known _ moved own
    obtain ⟨ok, asked⟩ := own _ List.mem_cons_self
    obtain ⟨user, stage, running⟩ := proceed_runs asked moved
    obtain ⟨in_place, passed⟩ := known fun e member => own e (List.mem_cons_of_mem _ member)
    have passed := passed _ running
    cases collector_turn running passed.collecting asked moved with
    | unfound cutoff => exact absurd rfl (passed.listed cutoff)
    | found cutoff => exact absurd rfl (passed.listed cutoff)
    | skipped other rest at_other =>
      refine ⟨?_, nextFile_passed (passed.later (ahead_at_file at_other)).2⟩
      rw [InPlace, nextFile_records]
      exact in_place
    | deleted other rest =>
      refine ⟨in_place, fun running at_task => ?_⟩
      obtain rfl := atStage_task at_task
      exact ⟨by simp [ahead], by simp, passed.behind⟩
    | removed other rest =>
      have behind := passed.later rfl
      refine ⟨?_, nextFile_passed behind.2⟩
      rw [InPlace, nextFile_records]
      exact (InsertionMap.get_delete_ne _ behind.1).trans in_place

/- One step keeps a deleted row as it is, or takes it away where the blob is gone. -/
theorem row_kept (sound : SoundService config.layout service) {timed : TimedFiles}
    {after : FilesService Path} {answer : FilesAnswer} (in_place : InPlace service file)
    (deleted : file.isDeleted = true) (moved : step config service timed = some (after, answer)) :
    InPlace after file ∨ BothGone config after file := by
  have move := step_moves moved
  generalize timed.call = call at move
  generalize outcome : (after, answer) = result at move
  obtain rfl : after = result.1 := congrArg Prod.fst outcome
  clear outcome moved
  cases move with
  | created running absent =>
    unfold checkStorageQuota
    split <;> exact Or.inl in_place
  | @inserted task userId recordId origin draft records record running saved =>
    obtain ⟨fresh, rfl, _⟩ := insertRecord_saved saved
    have ne : file.id ≠ recordId := by
      rintro rfl
      rw [InPlace, fresh] at in_place
      cases in_place
    exact Or.inl ((InsertionMap.get_set_ne _ _ ne).trans in_place)
  | @marked task userId record records running saved =>
    have row : service.records.get record.id = some record := sound.stages task _ running
    left
    by_cases same : record.id = file.id
    · have held : service.records.get record.id = some file := by
        rw [same]
        exact in_place
      obtain rfl := Option.some.inj (row.symm.trans held)
      simp only [markDeleted, row, deleted, if_true, Option.some.injEq] at saved
      exact saved ▸ in_place
    · simp only [markDeleted, row] at saved
      split at saved
      · exact Option.some.inj saved ▸ in_place
      · exact Option.some.inj saved ▸ (InsertionMap.get_set_ne _ _ (Ne.symm same)).trans in_place
  | collecting running => exact Or.inl (by rw [InPlace, nextFile_records]; exact in_place)
  | skipped running at_file => exact Or.inl (by rw [InPlace, nextFile_records]; exact in_place)
  | @removed task userId other rest running =>
    obtain ⟨deletable, gone⟩ := sound.stages task _ running
    by_cases same : other.id = file.id
    · have held : service.records.get other.id = some file := by
        rw [same]
        exact in_place
      obtain rfl : other = file :=
        Option.some.inj ((deletable.rows other List.mem_cons_self).symm.trans held)
      refine Or.inr ⟨?_, ?_⟩
      · rw [nextFile_records]
        exact InsertionMap.get_delete_self _ _
      · rw [nextFile_files]
        exact gone
    · apply Or.inl
      rw [InPlace, nextFile_records]
      exact (InsertionMap.get_delete_ne _ (Ne.symm same)).trans in_place
  | _ => exact Or.inl in_place

/- From the failure on, the record is in place until a moment at which both are gone. -/
theorem failed_stays (literal : config.layout.Literal)
    (run : (machine config).Run OneAtATime past service)
    {later failed : List (TimedFiles × FilesAnswer)} (split : past = later ++ failed)
    (fails : FailsOn config task now file failed) :
    InPlace service file ∨ ∃ recent older then_, later = recent ++ older ∧
      (machine config).Run OneAtATime (older ++ failed) then_ ∧ BothGone config then_ file := by
  obtain ⟨turn, prior, before, userId, rest, rfl, reached, asked, deletable, _, at_file⟩ :=
    fails.found literal
  have deleted := deletable.deleted file List.mem_cons_self
  refine run.after split (fun later service => InPlace service file ∨
    ∃ recent older then_, later = recent ++ older ∧
      (machine config).Run OneAtATime (older ++ turn :: prior) then_ ∧ BothGone config then_ file)
    ?_ ?_
  · intro again after shorter alone moved
    obtain rfl := shorter.state_unique reached
    rcases row_kept (sound_always literal shorter) (deletable.rows file List.mem_cons_self) deleted
      moved with kept | gone
    · exact Or.inl kept
    · exact Or.inr ⟨[], [], after, rfl, shorter.next alone moved, gone⟩
  · intro later service timed after answer shorter known alone moved
    rcases known with in_place | ⟨recent, older, then_, split, old_run, gone⟩
    · rcases row_kept (sound_always literal shorter) in_place deleted moved with kept | gone
      · exact Or.inl kept
      · exact Or.inr ⟨[], _, after, rfl, shorter.next alone moved, gone⟩
    · exact Or.inr ⟨_ :: recent, older, then_, by rw [split, List.cons_append], old_run, gone⟩

/-- How far a pass has come with a file that it is to remove. -/
structure Removing (config : FilesConfig Path) (cutoff : Int) (file : FileRecord)
    (service : FilesService Path) (stage : FilesStage Path) : Prop where
  collecting : ahead stage ≠ none
  asked : ∀ date, stage = .findExpired date → date = cutoff ∧ InPlace service file
  ahead_or_gone : ∀ files ∈ ahead stage, (∀ date, stage ≠ .findExpired date) →
    InPlace service file ∧ file ∈ files ∨ BothGone config service file

/- Where the pass ends, nothing is left of the file. -/
def RemovingOrGone (config : FilesConfig Path) (cutoff : Int) (file : FileRecord) (task : Nat)
    (service : FilesService Path) : Prop :=
  (∀ running, service.tasks.get task = some running →
    Removing config cutoff file service running.stage) ∧
  (service.tasks.get task = none → BothGone config service file)

omit [DecidableEq Path] in
theorem nextFile_inPlace {userId : Option String} {rest : List FileRecord} :
    InPlace (service.nextFile task userId rest).1 file ↔ InPlace service file := by
  rw [InPlace, InPlace, nextFile_records]

theorem nextFile_bothGone {userId : Option String} {rest : List FileRecord} :
    BothGone config (service.nextFile task userId rest).1 file ↔ BothGone config service file := by
  rw [BothGone, BothGone, nextFile_records, nextFile_files]

theorem nextFile_removing {cutoff : Int} {userId : Option String} {rest : List FileRecord}
    (before : InPlace service file ∧ file ∈ rest ∨ BothGone config service file) :
    RemovingOrGone config cutoff file task (service.nextFile task userId rest).1 := by
  constructor
  · intro running at_task
    rw [nextFile_task] at at_task
    cases rest with
    | nil => cases at_task
    | cons other rest =>
      obtain rfl := Option.some.inj at_task
      refine ⟨by simp [ahead], by simp, fun files member _ => ?_⟩
      rw [nextFile_inPlace, nextFile_bothGone]
      exact Option.some.inj member ▸ before
  · intro finished
    rw [nextFile_task] at finished
    cases rest with
    | nil =>
      rw [nextFile_bothGone]
      exact before.resolve_left fun listed => List.not_mem_nil listed.2
    | cons other rest => cases finished

/- A pass without failure removes what it finds. -/
theorem pass_removes (literal : config.layout.Literal)
    (run : (machine config).Run OneAtATime past service)
    {turns earlier : List (TimedFiles × FilesAnswer)} {first : FilesAnswer}
    (split : past = turns ++ (⟨now, .cleanupDeletedFiles task⟩, first) :: earlier)
    (clean : WithoutFailure task turns) {before : FilesService Path}
    (began : (machine config).Run OneAtATime earlier before) (in_place : InPlace before file)
    (deleted : file.isDeleted = true) (old : file.updatedAt < cutoffDate config.zone now) :
    RemovingOrGone config (cutoffDate config.zone now) file task service := by
  refine run.after split (fun turns service => WithoutFailure task turns →
    RemovingOrGone config (cutoffDate config.zone now) file task service) ?_ ?_ clean
  · intro again after shorter _ moved _
    obtain rfl := shorter.state_unique began
    obtain rfl := cleanup_started moved
    constructor
    · intro running at_task
      obtain rfl := atStage_task at_task
      exact ⟨by simp [ahead], fun date same => ⟨(FilesStage.findExpired.inj same).symm, in_place⟩,
        fun files _ other => absurd rfl (other _)⟩
    · simp [atStage]
  · intro turns service timed after answer shorter known _ moved clean
    have asked := clean _ List.mem_cons_self
    obtain ⟨userId, stage, running⟩ := proceed_runs asked moved
    have removing := (known fun e member => clean e (List.mem_cons_of_mem _ member)).1 _ running
    have safe := (sound_always literal shorter).stages task _ running
    cases collector_turn running removing.collecting asked moved with
    | found cutoff =>
      obtain ⟨rfl, in_place⟩ := removing.asked cutoff rfl
      have listed : file ∈ expired service.records (cutoffDate config.zone now) := by
        exact mem_expired.mpr ⟨service.records.mem_values.mpr ⟨file.id, in_place⟩, deleted, old⟩
      exact nextFile_removing (Or.inl ⟨in_place, listed⟩)
    | deleted other rest =>
      constructor
      · intro running at_task
        obtain rfl := atStage_task at_task
        refine ⟨by simp [ahead], by simp, fun files member _ => ?_⟩
        rcases removing.ahead_or_gone _ rfl (by simp) with listed | gone
        · exact Or.inl (Option.some.inj member ▸ listed)
        · exact Or.inr ⟨gone.1, InsertionMap.get_delete_absent _ gone.2⟩
      · simp [atStage]
    | removed other rest =>
      obtain ⟨deletable, blob_gone⟩ := safe
      apply nextFile_removing
      rcases removing.ahead_or_gone _ rfl (by simp) with ⟨in_place, listed⟩ | gone
      · rcases List.mem_cons.mp listed with rfl | later
        · exact Or.inr ⟨InsertionMap.get_delete_self _ _, blob_gone⟩
        · exact Or.inl ⟨deletable.removed.rows file later, later⟩
      · exact Or.inr ⟨InsertionMap.get_delete_absent _ gone.1, gone.2⟩

section Ending

def OnlyTask (task : Nat) (service : FilesService Path) : Prop :=
  ∀ e ∈ service.tasks.entries, e.1 = task

omit [DecidableEq Path] in
theorem OnlyTask.atStage (only : OnlyTask task service) (userId : Option String)
    (stage : FilesStage Path) : OnlyTask task (service.atStage task userId stage) := by
  rintro ⟨key, running⟩ member
  rcases (InsertionMap.set_entries_iff _ _ _ _ _).mp member with ⟨rfl, _⟩ | ⟨_, before⟩
  · rfl
  · exact only _ before

omit [DecidableEq Path] in
theorem OnlyTask.nextFile (only : OnlyTask task service) (userId : Option String)
    (rest : List FileRecord) : OnlyTask task (service.nextFile task userId rest).1 := by
  cases rest with
  | nil => exact fun e member => only e (List.mem_filter.mp member).1
  | cons file rest => exact only.atStage userId _

variable {userId : Option String}

theorem step_proceeds {stage : FilesStage Path}
    (running : service.tasks.get task = some ⟨userId, stage⟩) (time : Int) :
    step config service ⟨time, .proceed task true⟩ =
      service.proceed config task userId true time stage := by
  simp only [step, FilesCall.task, running, turn]

/- The induction is on the files still ahead: two turns for each. -/
theorem rest_collected (rest : List FileRecord)
    (run : (machine config).Run OneAtATime past service) (only : OnlyTask task service)
    (next : service.tasks.get task = (collect rest).map fun stage => ⟨userId, stage⟩) :
    ∃ more after, WithoutFailure task more ∧ (machine config).Run OneAtATime (more ++ past) after ∧
      after.tasks.get task = none := by
  induction rest generalizing past service with
  | nil => exact ⟨[], service, fun e member => absurd member List.not_mem_nil, run, next⟩
  | cons file rest ih =>
    have at_delete : service.tasks.get task = some ⟨userId, .delete file rest⟩ := next
    let blob_gone := service.withFiles (service.files.delete (config.layout.fullPath file.storagePath))
    have deletes : step config service ⟨0, .proceed task true⟩ =
        some (blob_gone.goOn task userId (.remove file rest)) := step_proceeds at_delete 0
    have removes : OnlyTask task (blob_gone.atStage task userId (.remove file rest)) :=
      OnlyTask.atStage (fun e member => only e member) userId _
    have at_remove : (blob_gone.atStage task userId (.remove file rest)).tasks.get task =
        some ⟨userId, .remove file rest⟩ := InsertionMap.get_set_self _ _ _
    let row_gone := (blob_gone.atStage task userId (.remove file rest)).withRecords
      (service.records.delete file.id)
    have removed : step config (blob_gone.atStage task userId (.remove file rest))
        ⟨0, .proceed task true⟩ = some (row_gone.nextFile task userId rest) :=
      step_proceeds at_remove 0
    have still : OnlyTask task row_gone := removes
    have permitted : OneAtATime past service ⟨0, .proceed task true⟩ := only
    have first := run.next permitted deletes
    have again : OneAtATime ((⟨0, .proceed task true⟩, ⟨userId, .waiting⟩) :: past)
        (blob_gone.atStage task userId (.remove file rest)) ⟨0, .proceed task true⟩ := removes
    have second := first.next again removed
    obtain ⟨more, after, clean, reached, finished⟩ := ih second (still.nextFile userId rest)
      (nextFile_task rest)
    refine ⟨more ++ [_, _], after, ?_, by simpa using reached, finished⟩
    intro e member
    rcases List.mem_append.mp member with later | now
    · exact clean e later
    · rcases List.mem_pair.mp now with rfl | rfl <;> rfl

/- Between calls a pass can begin, and when nothing rejects it comes to its end. -/
theorem clean_pass_ends (run : (machine config).Run OneAtATime past service)
    (idle : service.tasks.entries = []) (task : Nat) (time : Int) :
    ∃ turns first after, WithoutFailure task turns ∧ (machine config).Run OneAtATime
      (turns ++ (⟨time, .cleanupDeletedFiles task⟩, first) :: past) after ∧
      after.tasks.get task = none := by
  have nobody : OnlyTask task service := by
    intro e member
    simp [idle] at member
  have free : service.tasks.get task = none := by simp [InsertionMap.get, idle]
  let cutoff := cutoffDate config.zone time
  have begins : step config service ⟨time, .cleanupDeletedFiles task⟩ =
      some (service.goOn task none (.findExpired cutoff)) := by
    simp only [step, FilesCall.task, free]
    rfl
  have permitted : OneAtATime past service ⟨time, .cleanupDeletedFiles task⟩ := nobody
  have at_find : (service.atStage task none (.findExpired cutoff)).tasks.get task =
      some ⟨none, .findExpired cutoff⟩ := InsertionMap.get_set_self _ _ _
  have finds : step config (service.atStage task none (.findExpired cutoff))
      ⟨0, .proceed task true⟩ = some ((service.atStage task none (.findExpired cutoff)).nextFile
        task none (expired service.records cutoff)) := step_proceeds at_find 0
  have only : OnlyTask task (service.atStage task none (.findExpired cutoff)) :=
    nobody.atStage none _
  have again : OneAtATime ((⟨time, .cleanupDeletedFiles task⟩, ⟨none, .waiting⟩) :: past)
      (service.atStage task none (.findExpired cutoff)) ⟨0, .proceed task true⟩ := only
  obtain ⟨more, after, clean, reached, finished⟩ := rest_collected (expired service.records cutoff)
    ((run.next permitted begins).next again finds) (only.nextFile none _) (nextFile_task _)
  refine ⟨more ++ [_], _, after, ?_, by simpa using reached, finished⟩
  intro e member
  rcases List.mem_append.mp member with later | first
  · exact clean e later
  · obtain rfl := List.mem_singleton.mp first
    rfl

end Ending

/-- In every run every live record has its blob. A file on which a pass fails is on record, as it
    was, to the end of that pass and until a moment at which record and blob are both gone; a
    pass whose cutoff date is no earlier, and in which nothing rejects, removes both; and
    between calls such a pass is always to be had. -/
theorem live_files_never_dangle (literal : config.layout.Literal)
    (run : (machine config).Run OneAtATime past service) :
    (∀ key record, service.records.get key = some record → record.isDeleted = false →
      service.files.get (config.layout.fullPath record.storagePath) ≠ none) ∧
    (∀ later failed task now file, past = later ++ failed → FailsOn config task now file failed →
      (TurnsOf task later → InPlace service file) ∧
      (InPlace service file ∨ ∃ recent older then_, later = recent ++ older ∧
        (machine config).Run OneAtATime (older ++ failed) then_ ∧ BothGone config then_ file) ∧
      ∀ turns next nextTask first between before,
        later = turns ++ (⟨next, .cleanupDeletedFiles nextTask⟩, first) :: between →
        WithoutFailure nextTask turns → service.tasks.get nextTask = none →
        cutoffDate config.zone now ≤ cutoffDate config.zone next →
        (machine config).Run OneAtATime (between ++ failed) before → InPlace before file →
        BothGone config service file) ∧
    (service.tasks.entries = [] → ∀ task time, ∃ turns first after, WithoutFailure task turns ∧
      (machine config).Run OneAtATime
        (turns ++ (⟨time, .cleanupDeletedFiles task⟩, first) :: past) after ∧
      after.tasks.get task = none) := by
  refine ⟨(sound_always literal run).stored.live, ?_, clean_pass_ends run⟩
  intro later failed task now file split fails
  refine ⟨failed_in_place literal run split fails, failed_stays literal run split fails, ?_⟩
  intro turns next nextTask first between before parts clean finished later_cutoff began in_place
  obtain ⟨turn, prior, _, _, _, rfl, _, _, deletable, old, _⟩ := fails.found literal
  have whole : past = turns ++ (⟨next, .cleanupDeletedFiles nextTask⟩, first) ::
      (between ++ turn :: prior) := by
    rw [split, parts, List.append_assoc, List.cons_append]
  exact (pass_removes literal run whole clean began in_place
    (deletable.deleted file List.mem_cons_self) (lt_of_lt_of_le old later_cutoff)).2 finished

end Histories

/-- Storage with the paths as keys and the parts of uploads beside them. -/
def keyedStorage : FilesConfig (String ⊕ Uuid) :=
  ⟨⟨Sum.inl, fun _ => true, Sum.inr⟩, "s3", none, Staking.Zone.utc⟩

theorem keyedStorage_literal : keyedStorage.layout.Literal where
  literal same := Sum.inl.inj same
  parts_apart same := by cases same

def daysLater (days : Int) : Int := days * millisPerDay

/-- Alice's upload, its deletion on the first day, and a pass of the 31st that has found it. -/
def untilDelete : List TimedFiles :=
  [⟨0, .uploadFile 0 "alice" "a.txt" "text/plain" [1, 2]⟩, ⟨1, .proceed 0 true⟩, ⟨2, .proceed 0 true⟩,
   ⟨3, .scanned 0 none⟩, ⟨4, .optimized 0 none alicesFile⟩, ⟨5, .proceed 0 true⟩,
   ⟨6, .inserted 0 (some "record-1")⟩, ⟨7, .proceed 0 true⟩, ⟨8, .proceed 0 true⟩,
   ⟨10, .deleteFile 1 "alice" "record-1"⟩, ⟨11, .proceed 1 true⟩, ⟨12, .proceed 1 true⟩,
   ⟨daysLater 31, .cleanupDeletedFiles 2⟩, ⟨daysLater 31, .proceed 2 true⟩]

def alicesRow : FileRecord where
  id := "record-1"
  userId := "alice"
  originalName := "a.txt"
  mimeType := "text/plain"
  size := 2
  storageProvider := "s3"
  storagePath := "users/alice/7c9e6679-7425-40de-944b-e07fc1f90ae7.txt"
  cdnUrl := none
  isCompressed := false
  isScanned := true
  isInfected := false
  isDeleted := true
  updatedAt := 12

/-- The pass of the next day, with the answers to its turns, newest first. -/
def nextDay : List (TimedFiles × FilesAnswer) :=
  [(⟨daysLater 32, .proceed 3 true⟩, ⟨none, .collected⟩),
   (⟨daysLater 32, .proceed 3 true⟩, ⟨none, .waiting⟩),
   (⟨daysLater 32, .proceed 3 true⟩, ⟨none, .waiting⟩)]

/-- storage.delete rejects on the 31st day: the row stays, and a day later both are gone. -/
theorem live_files_never_dangle_retried :
    ∃ failed finished : Moment (FilesService (String ⊕ Uuid)) TimedFiles FilesAnswer,
      (machine keyedStorage).Run OneAtATime failed.past failed.state ∧
      (machine keyedStorage).Run OneAtATime finished.past finished.state ∧
      finished.past = nextDay ++ (⟨daysLater 32, .cleanupDeletedFiles 3⟩, ⟨none, .waiting⟩) :: failed.past ∧
      InPlace failed.state alicesRow ∧ BothGone keyedStorage finished.state alicesRow := by
  have seen : ∃ found ∈ (machine keyedStorage).play OneAtATime ⟨[], initial⟩ untilDelete,
      found.past.take 2 = [(⟨daysLater 31, .proceed 2 true⟩, ⟨none, .waiting⟩),
        (⟨daysLater 31, .cleanupDeletedFiles 2⟩, ⟨none, .waiting⟩)] ∧
      found.state.tasks.get 2 = some ⟨none, .delete alicesRow []⟩ ∧
      ∃ failed ∈ (machine keyedStorage).play OneAtATime found [⟨daysLater 31, .proceed 2 false⟩],
        failed.past = (⟨daysLater 31, .proceed 2 false⟩, ⟨none, .collected⟩) :: found.past ∧
        ∃ finished ∈ (machine keyedStorage).play OneAtATime failed
            [⟨daysLater 32, .cleanupDeletedFiles 3⟩, ⟨daysLater 32, .proceed 3 true⟩,
             ⟨daysLater 32, .proceed 3 true⟩, ⟨daysLater 32, .proceed 3 true⟩],
          finished.past = nextDay ++
            (⟨daysLater 32, .cleanupDeletedFiles 3⟩, ⟨none, .waiting⟩) :: failed.past ∧
          finished.state.tasks.get 3 = none := by
    decide +kernel
  obtain ⟨found, played, newest, at_delete, failed, failing, failed_past, finished, passed,
    finished_past, ended⟩ := seen
  have run_found := Machine.play_run played
  have run_failed : (machine keyedStorage).Run OneAtATime failed.past failed.state :=
    run_found.trans (Machine.play_reaches failing)
  have run_finished : (machine keyedStorage).Run OneAtATime finished.past finished.state :=
    run_failed.trans (Machine.play_reaches passed)
  have parts : found.past = [(⟨daysLater 31, .proceed 2 true⟩, ⟨none, .waiting⟩)] ++
      (⟨daysLater 31, .cleanupDeletedFiles 2⟩, ⟨none, .waiting⟩) :: found.past.drop 2 := by
    have whole := List.take_append_drop 2 found.past
    rw [newest] at whole
    exact whole.symm
  have fails : FailsOn keyedStorage 2 (daysLater 31) alicesRow failed.past := by
    refine ⟨_, _, _, _, _, found.state, none, [], failed_past.trans (by rw [← parts]), ?_, ?_,
      Or.inl at_delete⟩
    · intro e member
      obtain rfl := List.mem_singleton.mp member
      exact ⟨true, rfl⟩
    · rw [← parts]
      exact run_found
  have in_place := ((live_files_never_dangle keyedStorage_literal run_failed).2.1 [] failed.past 2
    (daysLater 31) alicesRow rfl fails).1 fun e member => absurd member List.not_mem_nil
  have collected := ((live_files_never_dangle keyedStorage_literal run_finished).2.1 _ failed.past 2
    (daysLater 31) alicesRow (by rw [finished_past, ← List.append_cons]) fails).2.2 nextDay
    (daysLater 32) 3 ⟨none, .waiting⟩ [] failed.state rfl (by unfold WithoutFailure; decide) ended
    (by decide) run_failed in_place
  exact ⟨failed, finished, run_failed, run_finished, finished_past, in_place, collected⟩

end FilesService
end AstraPort.Files
