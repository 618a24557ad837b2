import AstraPort.Files.Moves

/- Used bytes against the rows of a user. What a save adds to the rows its charge adds to the
   quota; but the collector takes rows away without giving their bytes back, and who has no
   quota row is not charged. -/
namespace AstraPort.Files
namespace FilesService
variable {Path : Type}

def sizeFor (userId : String) (record : FileRecord) : Int :=
  if record.userId = userId then record.size else 0

/-- The size of the rows of a user, deleted ones included. -/
def storedBytes (records : InsertionMap String FileRecord) (userId : String) : Int :=
  records.total fun _ record => sizeFor userId record

/-- The used bytes of a user; none are used without a quota row. -/
def usedBytes (quotas : InsertionMap String StorageQuota) (userId : String) : Int :=
  ((quotas.get userId).map StorageQuota.usedBytes).getD 0

section Conditions
variable [DecidableEq Path] (config : FilesConfig Path)

/-- Between requests the used bytes of every user are the size of the user's rows. -/
def AccountingExact (permit : Machine.Permit (FilesService Path) TimedFiles FilesAnswer) : Prop :=
  ∀ past service, (machine config).Run permit past service → service.tasks.entries = [] →
    ∀ userId, usedBytes service.quotas userId = storedBytes service.records userId

/-- No repository and no file system call rejects. -/
def WithoutFailures : Machine.Permit (FilesService Path) TimedFiles FilesAnswer :=
  fun past service timed => OneAtATime past service timed ∧
    (match timed.call with
      | .proceed _ ok => ok = true
      | _ => True) ∧
    ∀ result ∈ step config service timed, result.2.reply ≠ .failed

instance (past : List (TimedFiles × FilesAnswer)) (service : FilesService Path)
    (timed : TimedFiles) : Decidable (WithoutFailures config past service timed) := by
  unfold WithoutFailures
  have : Decidable (match timed.call with
      | .proceed _ ok => ok = true
      | _ => True) := by split <;> infer_instance
  infer_instance

/-- A charge does not fail; the collector removes no row that takes up space; and a complete
    call of a user without a quota row saves nothing that does. -/
def NothingLost (service : FilesService Path) (timed : TimedFiles) (userId : Option String) :
    FilesStage Path → Prop
  | .findCharge origin record _ =>
      (∀ result ∈ step config service timed, result.2.reply ≠ .failed) ∧
      (origin = .completeChunkedUpload → service.quotas.get (userId.getD "") = none →
        record.size = 0)
  | .saveCharge _ _ _ _ => ∀ result ∈ step config service timed, result.2.reply ≠ .failed
  | .remove file _ => timed.call = .proceed timed.call.task true → file.size = 0
  | _ => True

def RowsStayCharged : Machine.Permit (FilesService Path) TimedFiles FilesAnswer :=
  fun past service timed => OneAtATime past service timed ∧
    ∀ task ∈ service.tasks.get timed.call.task,
      NothingLost config service timed task.userId task.stage

end Conditions

/-- What a call has added to the rows and not yet to the quota. -/
def FilesStage.owed : FilesStage Path → Int
  | .findCharge _ record _ => record.size
  | .saveCharge _ record _ _ => record.size
  | _ => 0

def owedBy (userId : String) (running : FilesTask Path) : Int :=
  if running.userId.getD "" = userId then FilesStage.owed running.stage else 0

def owedBytes (tasks : InsertionMap Nat (FilesTask Path)) (userId : String) : Int :=
  tasks.total fun _ running => owedBy userId running

/-- A row that is still there has the size it was found with. -/
def SameSize (records : InsertionMap String FileRecord) (file : FileRecord) : Prop :=
  ∀ row, records.get file.id = some row → row.size = file.size

/-- What a call at an await knows of the rows. -/
def StageBalanced (records : InsertionMap String FileRecord)
    (quotas : InsertionMap String StorageQuota) (userId : Option String) :
    FilesStage Path → Prop
  | .scanBuffer _ _ _ => quotas.get (userId.getD "") ≠ none
  | .optimizeImage _ _ _ => quotas.get (userId.getD "") ≠ none
  | .upload draft _ => draft.userId = userId.getD "" ∧ quotas.get (userId.getD "") ≠ none
  | .rename _ _ draft => draft.userId = userId.getD ""
  | .saveRecord origin draft => draft.userId = userId.getD "" ∧
      (origin = .uploadFile → quotas.get (userId.getD "") ≠ none)
  | .findCharge origin record bytesAdded => bytesAdded = record.size ∧
      (origin = .uploadFile → quotas.get (userId.getD "") ≠ none)
  | .saveCharge _ record quota bytesAdded => bytesAdded = record.size ∧
      quotas.get (userId.getD "") = some quota
  | .saveDeleted record => records.get record.id = some record
  | .delete file rest => ∀ one ∈ file :: rest, SameSize records one
  | .remove file rest => ∀ one ∈ file :: rest, SameSize records one
  | _ => True

/-- The rows of a user are the used bytes and what a call still owes. -/
structure Balanced (records : InsertionMap String FileRecord)
    (quotas : InsertionMap String StorageQuota) (tasks : InsertionMap Nat (FilesTask Path)) :
    Prop where
  keyed : ∀ key record, records.get key = some record → record.id = key
  sums : ∀ userId, storedBytes records userId = usedBytes quotas userId + owedBytes tasks userId
  stages : ∀ task running, tasks.get task = some running →
    StageBalanced records quotas running.userId running.stage

section Steps
variable {records : InsertionMap String FileRecord} {quotas : InsertionMap String StorageQuota}
  {tasks : InsertionMap Nat (FilesTask Path)} {timed : TimedFiles} {task : Nat}
  {userId : Option String} {stage next : FilesStage Path}

variable (next) in
theorem owed_set (running : tasks.get task = some ⟨userId, stage⟩) (user : String) :
    owedBytes (tasks.set task ⟨userId, next⟩) user + owedBy user ⟨userId, stage⟩ =
      owedBytes tasks user + owedBy user ⟨userId, next⟩ :=
  tasks.total_set_present _ _ running

theorem owed_start (free : tasks.get task = none) (user : String) :
    owedBytes (tasks.set task ⟨userId, next⟩) user =
      owedBytes tasks user + owedBy user ⟨userId, next⟩ :=
  tasks.total_set_fresh _ _ free

theorem owed_delete (running : tasks.get task = some ⟨userId, stage⟩) (user : String) :
    owedBytes (tasks.delete task) user + owedBy user ⟨userId, stage⟩ = owedBytes tasks user :=
  tasks.total_delete _ running

theorem owedBy_nothing (owes : FilesStage.owed stage = 0) (user : String) :
    owedBy user ⟨userId, stage⟩ = 0 := by
  simp [owedBy, owes]

/- A call that adds nothing goes on, or ends. -/
theorem Balanced.goesOn (balanced : Balanced records quotas tasks)
    (alone : ∀ e ∈ tasks.entries, e.1 = timed.call.task) (same : timed.call.task = task)
    (running : tasks.get task = some ⟨userId, stage⟩)
    (owes : FilesStage.owed next = FilesStage.owed stage)
    (own : StageBalanced records quotas userId next) :
    Balanced records quotas (tasks.set task ⟨userId, next⟩) where
  keyed := balanced.keyed
  sums := by
    intro user
    have owed_after := owed_set next running user
    simp only [owedBy, owes] at owed_after
    rw [balanced.sums user]
    omega
  stages := goOn_stages alone same own

theorem Balanced.finishes (balanced : Balanced records quotas tasks)
    (alone : ∀ e ∈ tasks.entries, e.1 = timed.call.task) (same : timed.call.task = task)
    (running : tasks.get task = some ⟨userId, stage⟩) (owes : FilesStage.owed stage = 0) :
    Balanced records quotas (tasks.delete task) where
  keyed := balanced.keyed
  sums := by
    intro user
    have owed_after := owed_delete running user
    rw [owedBy_nothing owes] at owed_after
    rw [balanced.sums user]
    omega
  stages := finish_stages alone same

theorem Balanced.starts (balanced : Balanced records quotas tasks)
    (alone : ∀ e ∈ tasks.entries, e.1 = timed.call.task) (same : timed.call.task = task)
    (free : tasks.get task = none) (owes : FilesStage.owed next = 0)
    (own : StageBalanced records quotas userId next) :
    Balanced records quotas (tasks.set task ⟨userId, next⟩) where
  keyed := balanced.keyed
  sums := by
    intro user
    rw [owed_start free, owedBy_nothing owes, balanced.sums user]
    omega
  stages := goOn_stages alone same own

theorem Balanced.nextFile (balanced : Balanced records quotas tasks)
    (alone : ∀ e ∈ tasks.entries, e.1 = timed.call.task) (same : timed.call.task = task)
    (running : tasks.get task = some ⟨userId, stage⟩) (owes : FilesStage.owed stage = 0)
    {rest : List FileRecord} (sizes : ∀ one ∈ rest, SameSize records one)
    {service : FilesService Path} (at_state : service.records = records ∧ service.quotas = quotas ∧
      service.tasks = tasks) :
    Balanced (service.nextFile task userId rest).1.records
      (service.nextFile task userId rest).1.quotas (service.nextFile task userId rest).1.tasks := by
  obtain ⟨rfl, rfl, rfl⟩ := at_state
  cases rest with
  | nil => exact balanced.finishes alone same running owes
  | cons file rest => exact balanced.goesOn alone same running owes.symm sizes

theorem stored_set {key : String} (fresh : records.get key = none) (record : FileRecord)
    (user : String) :
    storedBytes (records.set key record) user = storedBytes records user + sizeFor user record :=
  records.total_set_fresh _ _ fresh

/- Marking a row as deleted changes nobody's bytes. -/
theorem stored_marked {saved : InsertionMap String FileRecord} {record : FileRecord} {now : Int}
    (there : records.get record.id = some record)
    (marked : markDeleted records record now = some saved) :
    (∀ user, storedBytes saved user = storedBytes records user) ∧
      ((∀ key row, records.get key = some row → row.id = key) →
        ∀ key row, saved.get key = some row → row.id = key) := by
  simp only [markDeleted, there] at marked
  split at marked
  · obtain rfl := Option.some.inj marked
    exact ⟨fun _ => rfl, fun keyed => keyed⟩
  · obtain rfl := Option.some.inj marked
    refine ⟨fun user => ?_, fun keyed => InsertionMap.get_set_all rfl keyed⟩
    · have written := records.total_set_present (fun _ record => sizeFor user record)
        { record with isDeleted := true, updatedAt := now } there
      simp only [sizeFor] at written
      simp only [storedBytes, sizeFor]
      omega

/- Removing a row without size changes nobody's bytes. -/
theorem stored_removed {file : FileRecord} (sizes : SameSize records file)
    (nothing : file.size = 0) (user : String) :
    storedBytes (records.delete file.id) user = storedBytes records user := by
  cases found : records.get file.id with
  | none => rw [InsertionMap.delete_absent records found]
  | some row =>
    have removed := records.total_delete (fun _ record => sizeFor user record) found
    have no_size : sizeFor user row = 0 := by
      rw [sizeFor, sizes row found, nothing, ite_self]
    simp only [no_size] at removed
    simp only [storedBytes]
    omega

theorem used_created (absent : quotas.get (userId.getD "") = none) (user : String) :
    usedBytes (quotas.set (userId.getD "") freshQuota) user = usedBytes quotas user := by
  simp only [usedBytes, InsertionMap.get_set]
  split
  · rename_i same
    rw [same, absent]
    rfl
  · rfl

theorem used_charged {quota : StorageQuota} (written : StorageQuota)
    (found : quotas.get (userId.getD "") = some quota) (user : String) :
    usedBytes (quotas.set (userId.getD "") written) user =
      usedBytes quotas user + if userId.getD "" = user then written.usedBytes - quota.usedBytes
        else 0 := by
  simp only [usedBytes, InsertionMap.get_set]
  by_cases same : user = userId.getD ""
  · subst same
    simp [found]
  · simp [same, Ne.symm same]

variable {config : FilesConfig Path} {past : List (TimedFiles × FilesAnswer)}
  {service : FilesService Path} {answer : FilesAnswer}

theorem entry_balanced (entry : Entry service userId stage) :
    FilesStage.owed stage = 0 ∧ StageBalanced records quotas userId stage := by
  cases entry with
  | checks user checked => exact ⟨rfl, trivial⟩
  | appends session => exact ⟨rfl, trivial⟩
  | renames session for_user => exact ⟨rfl, for_user⟩
  | finds user fileId => exact ⟨rfl, trivial⟩
  | collects cutoff => exact ⟨rfl, trivial⟩

variable (records) in
theorem afterCheck_balanced (checked : Checked) {quota : StorageQuota}
    (found : quotas.get (userId.getD "") = some quota) :
    FilesStage.owed (afterCheck checked : FilesStage Path) = 0 ∧
      StageBalanced records quotas userId (afterCheck checked : FilesStage Path) := by
  cases checked with
  | upload originalName mimeType buffer =>
    refine ⟨rfl, ?_⟩
    simp [afterCheck, StageBalanced, found]
  | chunkedUpload originalName mimeType totalSize => exact ⟨rfl, trivial⟩

theorem mayRefuse_owes (refusing : mayRefuse stage = true) : FilesStage.owed stage = 0 := by
  cases stage <;> first | rfl | cases refusing

/- The rows found by the collector have the sizes they are found with. -/
theorem Balanced.expired (balanced : Balanced records quotas tasks) (cutoff : Int) :
    ∀ one ∈ FilesService.expired records cutoff, SameSize records one := by
  intro one member row found
  obtain ⟨key, there⟩ := (InsertionMap.mem_values records).mp (List.mem_of_mem_filter member)
  obtain rfl := balanced.keyed key one there
  rw [Option.some.inj (found.symm.trans there)]

variable [DecidableEq Path]

theorem Balanced.step (balanced : Balanced service.records service.quotas service.tasks)
    (permitted : RowsStayCharged config past service timed) {after : FilesService Path}
    (moved : FilesService.step config service timed = some (after, answer)) :
    Balanced after.records after.quotas after.tasks := by
  obtain ⟨alone, kept⟩ := permitted
  have at_stage {userId : Option String} {stage : FilesStage Path}
      (running : service.tasks.get timed.call.task = some ⟨userId, stage⟩) :
      NothingLost config service timed userId stage := kept _ running
  have move := step_moves moved
  generalize asked : timed.call = call at move
  generalize outcome : (after, answer) = result at move
  have own : timed.call.task = call.task := by rw [asked]
  have stage_of {task : Nat} {userId : Option String} {stage : FilesStage Path}
      (running : service.tasks.get task = some ⟨userId, stage⟩) :
      StageBalanced service.records service.quotas userId stage := balanced.stages task _ running
  rw [outcome] at moved
  obtain rfl : after = result.1 := congrArg Prod.fst outcome
  clear outcome
  cases move with
  | started free starts =>
    obtain ⟨owes, good⟩ := entry_balanced (start_entry starts)
    exact balanced.starts alone own free owes good
  | refused free => exact balanced
  | @failed call userId stage running =>
    apply balanced.finishes alone own running
    have lost := at_stage (own ▸ running)
    cases stage with
    | findCharge origin record bytesAdded => exact absurd rfl (lost.1 _ moved)
    | saveCharge origin record quota bytesAdded => exact absurd rfl (lost _ moved)
    | _ => rfl
  | rejected running refusing =>
    exact balanced.finishes alone own running (mayRefuse_owes refusing)
  | @allowed task userId checked quota running there fits =>
    obtain ⟨owes, good⟩ := afterCheck_balanced service.records checked there
    exact balanced.goesOn alone own running owes good
  | noQuota running absent => exact balanced.goesOn alone own running rfl trivial
  | @created task userId checked running absent =>
    have opened : Balanced service.records (service.quotas.set (userId.getD "") freshQuota)
        service.tasks := by
      refine ⟨balanced.keyed, fun user => ?_, own_stages alone own running trivial⟩
      rw [used_created absent, balanced.sums user]
    unfold checkStorageQuota
    split
    · exact opened.finishes alone own running rfl
    · obtain ⟨owes, good⟩ := afterCheck_balanced service.records checked
        (InsertionMap.get_set_self service.quotas (userId.getD "") freshQuota)
      exact opened.goesOn alone own running owes good
  | @scanned task userId reply originalName mimeType buffer running =>
    have has_row : service.quotas.get (userId.getD "") ≠ none := stage_of running
    exact balanced.goesOn alone own running rfl has_row
  | @optimized task userId output fileId originalName mimeType buffer running =>
    have has_row : service.quotas.get (userId.getD "") ≠ none := stage_of running
    exact balanced.goesOn alone own running rfl ⟨rfl, has_row⟩
  | @uploaded task userId draft data running =>
    obtain ⟨for_user, has_row⟩ := stage_of running
    exact balanced.goesOn alone own running rfl ⟨for_user, fun _ => has_row⟩
  | opened running => exact balanced.goesOn alone own running rfl trivial
  | initialized running => exact balanced.finishes alone own running rfl
  | appended running => exact balanced.finishes alone own running rfl
  | @renamed task userId uploadId tempPath draft data running there nameable =>
    have for_user : draft.userId = userId.getD "" := stage_of running
    exact balanced.goesOn alone own running rfl ⟨for_user, nofun⟩
  | @inserted task userId recordId origin draft records record running saved =>
    obtain ⟨for_user, has_row⟩ := stage_of running
    obtain ⟨fresh, rfl, keyed, user_of, _, size_of⟩ := insertRecord_saved saved
    refine ⟨InsertionMap.get_set_all keyed balanced.keyed, fun user => ?_, ?_⟩
    · have owed_after := owed_set (.findCharge origin record draft.size) running user
      rw [owedBy_nothing rfl] at owed_after
      simp only [owedBy, FilesStage.owed] at owed_after
      simp only [goOn, atStage, withRecords, stored_set fresh, sizeFor, user_of, for_user,
        balanced.sums user]
      omega
    · exact goOn_stages alone own ⟨size_of.symm, has_row⟩
  | @uncharged task userId origin record bytesAdded running absent =>
    obtain ⟨_, has_row⟩ := stage_of running
    have lost : NothingLost config service timed userId (.findCharge origin record bytesAdded) :=
      at_stage (by rw [own]; exact running)
    apply balanced.finishes alone own running
    cases origin with
    | uploadFile => exact absurd absent (has_row rfl)
    | completeChunkedUpload => exact lost.2 rfl absent
  | @charging task userId origin record bytesAdded quota running there =>
    obtain ⟨size_of, _⟩ := stage_of running
    exact balanced.goesOn alone own running rfl ⟨size_of, there⟩
  | @charged task userId origin record quota bytesAdded written running charge =>
    obtain ⟨size_of, there⟩ := stage_of running
    have added : written - quota.usedBytes = record.size := by
      have exactly := bigint_eq charge
      rw [size_of] at exactly
      have whole : written = quota.usedBytes + record.size := by exact_mod_cast exactly
      omega
    refine ⟨balanced.keyed, fun user => ?_, finish_stages alone own⟩
    have owed_after := owed_delete running user
    have used_after := used_charged { quota with usedBytes := written } there user
    simp only [added] at used_after
    simp only [owedBy, FilesStage.owed] at owed_after
    simp only [finish, withoutTask, withQuotas, balanced.sums user, used_after]
    omega
  | @found task userId fileId file running there owned =>
    obtain rfl := balanced.keyed fileId file there
    exact balanced.goesOn alone own running rfl there
  | @marked task userId record records running saved =>
    have there : service.records.get record.id = some record := stage_of running
    obtain ⟨same_bytes, still_keyed⟩ := stored_marked there saved
    have ended := balanced.finishes alone own running rfl
    refine ⟨still_keyed balanced.keyed, fun user => ?_, finish_stages alone own⟩
    simp only [finish, withoutTask, withRecords, same_bytes user]
    exact ended.sums user
  | @collecting task userId cutoff running =>
    exact balanced.nextFile alone own running rfl (balanced.expired cutoff) ⟨rfl, rfl, rfl⟩
  | @deleted task userId file rest running =>
    have sizes : ∀ one ∈ file :: rest, SameSize service.records one := stage_of running
    exact balanced.goesOn alone own running rfl sizes
  | @skipped task userId stage file rest running at_file =>
    have sizes : ∀ one ∈ file :: rest, SameSize service.records one := by
      rcases at_file with rfl | rfl <;> exact stage_of running
    have owes : FilesStage.owed stage = 0 := by rcases at_file with rfl | rfl <;> rfl
    exact balanced.nextFile alone own running owes
      (fun one member => sizes one (List.mem_cons_of_mem _ member)) ⟨rfl, rfl, rfl⟩
  | @removed task userId file rest running =>
    have sizes : ∀ one ∈ file :: rest, SameSize service.records one := stage_of running
    have kept : NothingLost config service timed userId (.remove file rest) :=
      at_stage (by rw [own]; exact running)
    have no_size : file.size = 0 := kept (by rw [asked]; rfl)
    have removed : Balanced (service.records.delete file.id) service.quotas service.tasks := by
      refine ⟨fun key row found => ?_, fun user => ?_, own_stages alone own running ?_⟩
      · exact balanced.keyed key row (InsertionMap.get_of_delete found)
      · rw [stored_removed (sizes file List.mem_cons_self) no_size, balanced.sums user]
      · exact fun one member row found =>
          sizes one member row (InsertionMap.get_of_delete found)
    exact removed.nextFile alone own running rfl
      (fun one member row found => sizes one (List.mem_cons_of_mem _ member) row
        (InsertionMap.get_of_delete found)) ⟨rfl, rfl, rfl⟩

end Steps

/-- A file is uploaded, deleted, and collected after thirty-one days. -/
def collectedFile : List TimedFiles :=
  [⟨0, .uploadFile 1 "alice" "x.txt" "text/plain" [1]⟩, ⟨1, .proceed 1 true⟩,
    ⟨2, .proceed 1 true⟩, ⟨3, .scanned 1 none⟩, ⟨4, .optimized 1 none alicesFile⟩,
    ⟨5, .proceed 1 true⟩, ⟨6, .inserted 1 (some "r1")⟩, ⟨7, .proceed 1 true⟩,
    ⟨8, .proceed 1 true⟩, ⟨9, .deleteFile 2 "alice" "r1"⟩, ⟨10, .proceed 2 true⟩,
    ⟨11, .proceed 2 true⟩, ⟨2678400000, .cleanupDeletedFiles 3⟩, ⟨2678400001, .proceed 3 true⟩,
    ⟨2678400002, .proceed 3 true⟩, ⟨2678400003, .proceed 3 true⟩]

end FilesService
end AstraPort.Files
