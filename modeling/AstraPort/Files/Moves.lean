import AstraPort.Files.Service

/- What single steps of the service can do. -/
namespace AstraPort.Files
namespace FilesService
variable {Path : Type}

def withFiles (service : FilesService Path) (files : InsertionMap Path Bytes) :
    FilesService Path := { service with files := files }

def withRecords (service : FilesService Path) (records : InsertionMap String FileRecord) :
    FilesService Path := { service with records := records }

def withQuotas (service : FilesService Path) (quotas : InsertionMap String StorageQuota) :
    FilesService Path := { service with quotas := quotas }

def withUploads (service : FilesService Path) (activeUploads : InsertionMap Uuid Path) :
    FilesService Path := { service with activeUploads := activeUploads }

def expired (records : InsertionMap String FileRecord) (cutoff : Int) : List FileRecord :=
  records.values.filter fun file => file.isDeleted ∧ file.updatedAt < cutoff

/-- A user's quota when there is none yet. -/
def freshQuota : StorageQuota := ⟨0, defaultMaxBytes⟩

theorem bigint_eq {x : Rat} {n : Int} (whole : bigint x = some n) : (n : Rat) = x := by
  rw [bigint, Option.ite_none_right_eq_some] at whole
  rw [← Option.some.inj whole.2]
  exact Rat.coe_int_num_of_den_eq_one whole.1.1

/- An INSERT that is not rejected adds the row that the draft describes. -/
theorem insertRecord_saved {records saved : InsertionMap String FileRecord} {draft : FileDraft}
    {recordId : String} {now : Int} {record : FileRecord}
    (inserted : insertRecord records draft recordId now = some (saved, record)) :
    records.get recordId = none ∧ saved = records.set recordId record ∧ record.id = recordId ∧
      record.userId = draft.userId ∧ record.storagePath = draft.storagePath ∧
      (record.size : Rat) = draft.size := by
  unfold insertRecord at inserted
  split at inserted
  · cases inserted
  · rename_i size whole
    rw [Option.ite_none_left_eq_some, not_or, Option.not_isSome_iff_eq_none] at inserted
    obtain ⟨⟨fresh, _⟩, added⟩ := inserted
    obtain ⟨rfl, rfl⟩ := Prod.mk.inj (Option.some.inj added)
    exact ⟨fresh, rfl, rfl, rfl, rfl, bigint_eq whole⟩

/-- The stage at which a call enters, and the user it is made for. -/
inductive Entry (service : FilesService Path) : Option String → FilesStage Path → Prop where
  | checks (userId : String) (checked : Checked) : Entry service (some userId) (.findQuota checked)
  | appends {userId : String} {upload : Uuid × Path} {partNumber : Option Int} {data : Bytes}
      (session : upload ∈ service.activeUploads.entries) :
      Entry service (some userId) (.append upload.2 partNumber data)
  | renames {userId : String} {upload : Uuid × Path} {draft : FileDraft}
      (session : upload ∈ service.activeUploads.entries) (for_user : draft.userId = userId) :
      Entry service (some userId) (.rename upload.1 upload.2 draft)
  | finds (userId fileId : String) : Entry service (some userId) (.findFile fileId)
  | collects (cutoff : Int) : Entry service none (.findExpired cutoff)

theorem start_entry {config : FilesConfig Path} {service : FilesService Path} {now : Int}
    {call : FilesCall} {userId : Option String} {stage : FilesStage Path}
    (starts : service.start config now call = some (userId, .ok stage)) :
    Entry service userId stage := by
  have open_session {uploadId : String} {upload : Uuid × Path}
      (found : service.findUpload uploadId = some upload) :
      upload ∈ service.activeUploads.entries := List.mem_of_find?_eq_some found
  cases call with
  | uploadFile task user originalName mimeType buffer =>
    simp only [start] at starts
    split at starts <;> cases starts
    exact .checks user _
  | initializeChunkedUpload task user originalName mimeType totalSize =>
    simp only [start] at starts
    split at starts <;> cases starts
    exact .checks user _
  | uploadChunk task user uploadId partNumber buffer =>
    simp only [start] at starts
    split at starts <;> cases starts
    rename_i found
    exact .appends (open_session found)
  | completeChunkedUpload task user uploadId storagePath originalName mimeType totalSize =>
    simp only [start] at starts
    split at starts <;> cases starts
    rename_i found
    exact .renames (open_session found) rfl
  | deleteFile task user fileId =>
    cases starts
    exact .finds user fileId
  | cleanupDeletedFiles task =>
    cases starts
    exact .collects _
  | _ => cases starts

theorem nextFile_files (service : FilesService Path) (task : Nat) (userId : Option String)
    (rest : List FileRecord) : (service.nextFile task userId rest).1.files = service.files := by
  cases rest <;> rfl

theorem nextFile_quotas (service : FilesService Path) (task : Nat) (userId : Option String)
    (rest : List FileRecord) : (service.nextFile task userId rest).1.quotas = service.quotas := by
  cases rest <;> rfl

/-- Requests and passes of the collector one after the other: while one is under way only its
    own turns come. -/
def OneAtATime : Machine.Permit (FilesService Path) TimedFiles FilesAnswer :=
  fun _ service timed => ∀ e ∈ service.tasks.entries, e.1 = timed.call.task

instance (past : List (TimedFiles × FilesAnswer)) (service : FilesService Path)
    (timed : TimedFiles) : Decidable (OneAtATime past service timed) :=
  inferInstanceAs (Decidable (∀ e ∈ service.tasks.entries, e.1 = timed.call.task))

section Alone
variable {tasks : InsertionMap Nat (FilesTask Path)} {timed : TimedFiles} {task : Nat}
  {userId : Option String} {good : Option String → FilesStage Path → Prop}

theorem others_idle (alone : ∀ e ∈ tasks.entries, e.1 = timed.call.task) {other : Nat}
    (ne : other ≠ timed.call.task) : tasks.get other = none := by
  rw [InsertionMap.get_none_iff, InsertionMap.keys, List.mem_map]
  rintro ⟨e, member, same⟩
  exact ne (same ▸ alone e member)

/- Before a step of the one call under way what holds of its stage holds of all, and after. -/
theorem own_stages (alone : ∀ e ∈ tasks.entries, e.1 = timed.call.task)
    (same : timed.call.task = task) {stage : FilesStage Path}
    (running : tasks.get task = some ⟨userId, stage⟩) (own : good userId stage) :
    ∀ other running, tasks.get other = some running → good running.userId running.stage := by
  subst same
  intro other running_other at_task
  by_cases same : other = timed.call.task
  · rw [same, running] at at_task
    obtain rfl := Option.some.inj at_task
    exact own
  · rw [others_idle alone same] at at_task
    cases at_task

theorem goOn_stages (alone : ∀ e ∈ tasks.entries, e.1 = timed.call.task)
    (same : timed.call.task = task) {stage : FilesStage Path} (own : good userId stage) :
    ∀ other running, (tasks.set task ⟨userId, stage⟩).get other = some running →
      good running.userId running.stage := by
  subst same
  intro other running at_task
  rcases InsertionMap.get_set_cases at_task with ⟨_, rfl⟩ | ⟨ne, before⟩
  · exact own
  · rw [others_idle alone ne] at before
    cases before

theorem finish_stages (alone : ∀ e ∈ tasks.entries, e.1 = timed.call.task)
    (same : timed.call.task = task) : ∀ other running,
      (tasks.delete task).get other = some running → good running.userId running.stage := by
  subst same
  intro other running at_task
  by_cases own : other = timed.call.task
  · subst own
    simp at at_task
  · rw [InsertionMap.get_delete_ne _ own, others_idle alone own] at at_task
    cases at_task

theorem nextFile_stages {changed : FilesService Path}
    (alone : ∀ e ∈ changed.tasks.entries, e.1 = timed.call.task) (same : timed.call.task = task)
    {rest : List FileRecord}
    (own : ∀ file later, rest = file :: later → good userId (.delete file later)) :
    ∀ other running, (changed.nextFile task userId rest).1.tasks.get other = some running →
      good running.userId running.stage := by
  cases rest with
  | nil => exact finish_stages alone same
  | cons file rest => exact goOn_stages alone same (own file rest rfl)

end Alone

variable [DecidableEq Path]

/-- The awaits at which a running call may turn out to be refused. -/
def mayRefuse : FilesStage Path → Bool
  | .findQuota _ => true
  | .scanBuffer _ _ _ => true
  | .findFile _ => true
  | _ => false

/-- Everything a step can do. -/
inductive Move (config : FilesConfig Path) (service : FilesService Path) (now : Int) :
    FilesCall → FilesService Path × FilesAnswer → Prop where
  | started {call : FilesCall} {userId : Option String} {stage : FilesStage Path}
      (free : service.tasks.get call.task = none)
      (starts : service.start config now call = some (userId, .ok stage)) :
      Move config service now call (service.goOn call.task userId stage)
  | refused {call : FilesCall} {userId : Option String} {error : FilesError}
      (free : service.tasks.get call.task = none) :
      Move config service now call (service, ⟨userId, .refused error⟩)
  | failed {call : FilesCall} {userId : Option String} {stage : FilesStage Path}
      (running : service.tasks.get call.task = some ⟨userId, stage⟩) :
      Move config service now call (service.finish call.task userId .failed)
  | rejected {call : FilesCall} {userId : Option String} {stage : FilesStage Path}
      {error : FilesError} (running : service.tasks.get call.task = some ⟨userId, stage⟩)
      (refusing : mayRefuse stage = true) :
      Move config service now call (service.finish call.task userId (.refused error))
  | allowed {task : Nat} {userId : Option String} {checked : Checked} {quota : StorageQuota}
      (running : service.tasks.get task = some ⟨userId, .findQuota checked⟩)
      (found : service.quotas.get (userId.getD "") = some quota)
      (fits : exceeds quota checked.additionalBytes = false) :
      Move config service now (.proceed task true)
        (service.goOn task userId (afterCheck checked))
  | noQuota {task : Nat} {userId : Option String} {checked : Checked}
      (running : service.tasks.get task = some ⟨userId, .findQuota checked⟩)
      (absent : service.quotas.get (userId.getD "") = none) :
      Move config service now (.proceed task true)
        (service.goOn task userId (.createQuota checked))
  | created {task : Nat} {userId : Option String} {checked : Checked}
      (running : service.tasks.get task = some ⟨userId, .createQuota checked⟩)
      (absent : service.quotas.get (userId.getD "") = none) :
      Move config service now (.proceed task true)
        ((service.withQuotas (service.quotas.set (userId.getD "") freshQuota)).checkStorageQuota
          task userId freshQuota checked)
  | scanned {task : Nat} {userId : Option String}
      {reply : Option (Option Bool × Option (List String))} {originalName mimeType : String}
      {buffer : Bytes}
      (running : service.tasks.get task = some ⟨userId, .scanBuffer originalName mimeType buffer⟩) :
      Move config service now (.scanned task reply)
        (service.goOn task userId (.optimizeImage originalName mimeType buffer))
  | optimized {task : Nat} {userId : Option String} {output : Option Bytes} {fileId : Uuid}
      {originalName mimeType : String} {buffer : Bytes}
      (running : service.tasks.get task = some ⟨userId, .optimizeImage originalName mimeType
        buffer⟩) :
      Move config service now (.optimized task output fileId)
        (service.store config task userId output fileId originalName mimeType buffer)
  | uploaded {task : Nat} {userId : Option String} {draft : FileDraft} {data : Bytes}
      (running : service.tasks.get task = some ⟨userId, .upload draft data⟩) :
      Move config service now (.proceed task true)
        ((service.withFiles (service.files.set (config.layout.fullPath draft.storagePath)
          data)).goOn task userId (.saveRecord .uploadFile draft))
  | opened {task : Nat} {userId : Option String} {fileId uploadId : Uuid} {originalName : String}
      (running : service.tasks.get task = some ⟨userId, .initializeMultipartUpload originalName⟩) :
      Move config service now (.allocated task fileId uploadId)
        (service.openUpload config task userId fileId uploadId originalName)
  | initialized {task : Nat} {userId : Option String} {uploadId : Uuid} {storagePath : String}
      (running : service.tasks.get task = some ⟨userId, .createTemp uploadId storagePath⟩) :
      Move config service now (.proceed task true)
        ((service.withFiles (service.files.set (config.layout.tempPath uploadId) [])).finish task
          userId (.initialized uploadId storagePath))
  | appended {task : Nat} {userId : Option String} {tempPath : Path} {partNumber : Option Int}
      {data : Bytes}
      (running : service.tasks.get task = some ⟨userId, .append tempPath partNumber data⟩) :
      Move config service now (.proceed task true)
        ((service.withFiles (service.files.set tempPath
          ((service.files.get tempPath).getD [] ++ data))).finish task userId (.chunked partNumber))
  | renamed {task : Nat} {userId : Option String} {uploadId : Uuid} {tempPath : Path}
      {draft : FileDraft} {data : Bytes}
      (running : service.tasks.get task = some ⟨userId, .rename uploadId tempPath draft⟩)
      (there : service.files.get tempPath = some data)
      (nameable : config.layout.nameable draft.storagePath = true) :
      Move config service now (.proceed task true)
        (((service.withFiles ((service.files.delete tempPath).set
          (config.layout.fullPath draft.storagePath) data)).withUploads
          (service.activeUploads.delete uploadId)).goOn task userId
          (.saveRecord .completeChunkedUpload draft))
  | inserted {task : Nat} {userId : Option String} {recordId : String} {origin : Origin}
      {draft : FileDraft} {records : InsertionMap String FileRecord} {record : FileRecord}
      (running : service.tasks.get task = some ⟨userId, .saveRecord origin draft⟩)
      (saved : insertRecord service.records draft recordId now = some (records, record)) :
      Move config service now (.inserted task (some recordId))
        ((service.withRecords records).goOn task userId (.findCharge origin record draft.size))
  | uncharged {task : Nat} {userId : Option String} {origin : Origin} {record : FileRecord}
      {bytesAdded : Rat}
      (running : service.tasks.get task = some ⟨userId, .findCharge origin record bytesAdded⟩)
      (absent : service.quotas.get (userId.getD "") = none) :
      Move config service now (.proceed task true)
        (service.finish task userId (ended origin record))
  | charging {task : Nat} {userId : Option String} {origin : Origin} {record : FileRecord}
      {bytesAdded : Rat} {quota : StorageQuota}
      (running : service.tasks.get task = some ⟨userId, .findCharge origin record bytesAdded⟩)
      (found : service.quotas.get (userId.getD "") = some quota) :
      Move config service now (.proceed task true)
        (service.goOn task userId (.saveCharge origin record quota bytesAdded))
  | charged {task : Nat} {userId : Option String} {origin : Origin} {record : FileRecord}
      {quota : StorageQuota} {bytesAdded : Rat} {usedBytes : Int}
      (running : service.tasks.get task = some ⟨userId, .saveCharge origin record quota
        bytesAdded⟩) (charge : bigint (quota.usedBytes + bytesAdded) = some usedBytes) :
      Move config service now (.proceed task true)
        ((service.withQuotas (service.quotas.set (userId.getD "")
          { quota with usedBytes := usedBytes })).finish task userId (ended origin record))
  | found {task : Nat} {userId : Option String} {fileId : String} {file : FileRecord}
      (running : service.tasks.get task = some ⟨userId, .findFile fileId⟩)
      (there : service.records.get fileId = some file) (owned : file.userId = userId.getD "") :
      Move config service now (.proceed task true)
        (service.goOn task userId (.saveDeleted file))
  | marked {task : Nat} {userId : Option String} {record : FileRecord}
      {records : InsertionMap String FileRecord}
      (running : service.tasks.get task = some ⟨userId, .saveDeleted record⟩)
      (saved : markDeleted service.records record now = some records) :
      Move config service now (.proceed task true)
        ((service.withRecords records).finish task userId .deleted)
  | collecting {task : Nat} {userId : Option String} {cutoff : Int}
      (running : service.tasks.get task = some ⟨userId, .findExpired cutoff⟩) :
      Move config service now (.proceed task true)
        (service.nextFile task userId (expired service.records cutoff))
  | deleted {task : Nat} {userId : Option String} {file : FileRecord} {rest : List FileRecord}
      (running : service.tasks.get task = some ⟨userId, .delete file rest⟩) :
      Move config service now (.proceed task true)
        ((service.withFiles (service.files.delete (config.layout.fullPath
          file.storagePath))).goOn task userId (.remove file rest))
  | skipped {task : Nat} {userId : Option String} {stage : FilesStage Path} {file : FileRecord}
      {rest : List FileRecord} (running : service.tasks.get task = some ⟨userId, stage⟩)
      (at_file : stage = .delete file rest ∨ stage = .remove file rest) :
      Move config service now (.proceed task false) (service.nextFile task userId rest)
  | removed {task : Nat} {userId : Option String} {file : FileRecord} {rest : List FileRecord}
      (running : service.tasks.get task = some ⟨userId, .remove file rest⟩) :
      Move config service now (.proceed task true)
        ((service.withRecords (service.records.delete file.id)).nextFile task userId rest)

section Inversion
variable {config : FilesConfig Path} {service : FilesService Path} {now : Int}
  {after : FilesService Path × FilesAnswer}

theorem proceed_moves {task : Nat} {userId : Option String} {ok : Bool} {stage : FilesStage Path}
    (running : service.tasks.get task = some ⟨userId, stage⟩)
    (moved : service.proceed config task userId ok now stage = some after) :
    Move config service now (.proceed task ok) after := by
  have fails (same : some (service.finish task userId .failed) = some after) :
      Move config service now (.proceed task ok) after := by
    obtain rfl := Option.some.inj same
    exact .failed running
  cases stage with
  | findQuota checked =>
    cases ok with
    | false => exact fails moved
    | true =>
      simp only [proceed, if_true] at moved
      split at moved
      · rename_i quota there
        obtain rfl := Option.some.inj moved
        unfold checkStorageQuota
        split
        · exact .rejected running rfl
        · rename_i fits
          exact .allowed running there (by simpa using fits)
      · rename_i absent
        exact Option.some.inj moved ▸ .noQuota running absent
  | createQuota checked =>
    simp only [proceed] at moved
    split at moved
    · rename_i accepted
      obtain ⟨rfl, absent⟩ := accepted
      exact Option.some.inj moved ▸ .created running absent
    · exact fails moved
  | upload draft data =>
    cases ok with
    | false => exact fails moved
    | true => exact Option.some.inj moved ▸ .uploaded running
  | createTemp uploadId storagePath =>
    cases ok with
    | false => exact fails moved
    | true => exact Option.some.inj moved ▸ .initialized running
  | append tempPath partNumber data =>
    cases ok with
    | false => exact fails moved
    | true => exact Option.some.inj moved ▸ .appended running
  | rename uploadId tempPath draft =>
    simp only [proceed] at moved
    split at moved
    · rename_i data there
      split at moved
      · rename_i accepted
        obtain ⟨rfl, nameable⟩ := accepted
        exact Option.some.inj moved ▸ .renamed running there nameable
      · exact fails moved
    · exact fails moved
  | findCharge origin record bytesAdded =>
    cases ok with
    | false => exact fails moved
    | true =>
      simp only [proceed, if_true] at moved
      split at moved
      · rename_i quota there
        exact Option.some.inj moved ▸ .charging running there
      · rename_i absent
        exact Option.some.inj moved ▸ .uncharged running absent
  | saveCharge origin record quota bytesAdded =>
    simp only [proceed] at moved
    split at moved
    · rename_i usedBytes charge
      cases ok with
      | false => exact fails moved
      | true => exact Option.some.inj moved ▸ .charged running charge
    · exact fails moved
  | findFile fileId =>
    cases ok with
    | false => exact fails moved
    | true =>
      simp only [proceed, if_true] at moved
      split at moved
      · rename_i file there
        split at moved
        · obtain rfl := Option.some.inj moved
          exact .rejected running rfl
        · rename_i owned
          exact Option.some.inj moved ▸ .found running there (not_not.mp owned)
      · obtain rfl := Option.some.inj moved
        exact .rejected running rfl
  | saveDeleted record =>
    simp only [proceed] at moved
    split at moved
    · rename_i records saved
      cases ok with
      | false => exact fails moved
      | true => exact Option.some.inj moved ▸ .marked running saved
    · exact fails moved
  | findExpired cutoff =>
    cases ok with
    | false => exact fails moved
    | true => exact Option.some.inj moved ▸ .collecting running
  | delete file rest =>
    cases ok with
    | false => exact Option.some.inj moved ▸ .skipped running (Or.inl rfl)
    | true => exact Option.some.inj moved ▸ .deleted running
  | remove file rest =>
    cases ok with
    | false => exact Option.some.inj moved ▸ .skipped running (Or.inr rfl)
    | true => exact Option.some.inj moved ▸ .removed running
  | scanBuffer originalName mimeType buffer => cases moved
  | optimizeImage originalName mimeType buffer => cases moved
  | initializeMultipartUpload originalName => cases moved
  | saveRecord origin draft => cases moved

theorem turn_moves {call : FilesCall} {userId : Option String} {stage : FilesStage Path}
    (running : service.tasks.get call.task = some ⟨userId, stage⟩)
    (moved : service.turn config call.task userId now call stage = some after) :
    Move config service now call after := by
  cases call with
  | proceed task ok => exact proceed_moves running moved
  | inserted task recordId =>
    cases stage with
    | saveRecord origin draft =>
      simp only [turn] at moved
      split at moved
      · rename_i records record saved
        obtain ⟨id, rfl, inserted⟩ := Option.bind_eq_some_iff.mp saved
        exact Option.some.inj moved ▸ .inserted running inserted
      · obtain rfl := Option.some.inj moved
        exact .failed running
    | _ => cases moved
  | scanned task reply =>
    cases stage with
    | scanBuffer originalName mimeType buffer =>
      simp only [turn] at moved
      split at moved
      · obtain rfl := Option.some.inj moved
        exact .rejected running rfl
      · exact Option.some.inj moved ▸ .scanned running
    | _ => cases moved
  | optimized task output fileId =>
    cases stage with
    | optimizeImage originalName mimeType buffer =>
      exact Option.some.inj moved ▸ .optimized running
    | _ => cases moved
  | allocated task fileId uploadId =>
    cases stage with
    | initializeMultipartUpload originalName => exact Option.some.inj moved ▸ .opened running
    | _ => cases moved
  | uploadFile => cases stage <;> cases moved
  | initializeChunkedUpload => cases stage <;> cases moved
  | uploadChunk => cases stage <;> cases moved
  | completeChunkedUpload => cases stage <;> cases moved
  | deleteFile => cases stage <;> cases moved
  | cleanupDeletedFiles => cases stage <;> cases moved

theorem step_moves {timed : TimedFiles} (moved : step config service timed = some after) :
    Move config service timed.now timed.call after := by
  simp only [step] at moved
  split at moved
  · rename_i task running
    exact turn_moves running moved
  · rename_i free
    split at moved
    · rename_i userId stage starts
      exact Option.some.inj moved ▸ .started free starts
    · rename_i userId error starts
      exact Option.some.inj moved ▸ .refused free
    · cases moved

end Inversion

/-- A deployment, and the ids of a chunked upload in it. -/
def uploadsHere : FilesConfig (List String) :=
  ⟨localLayout ["srv", "uploads"], "local", none, Staking.Zone.utc⟩

def alicesFile : Uuid :=
  ⟨"7c9e6679-7425-40de-944b-e07fc1f90ae7", by decide +kernel, by simp [isUuidCharacter]⟩

def alicesUpload : Uuid :=
  ⟨"16fd2706-8baf-433b-82eb-8c7fada847da", by decide +kernel, by simp [isUuidCharacter]⟩

end FilesService
end AstraPort.Files
