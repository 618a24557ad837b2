import AstraPort.Files.Moves

/- Who writes where. Uploads write below names that were drawn for them, and the parts of a
   chunked upload have names of their own; but the path that a complete call renames the parts
   to is the client's. -/
namespace AstraPort.Files

/-- Paths made up for different file ids are different files, and none is a file of parts. -/
structure StorageLayout.Separates {Path : Type} (layout : StorageLayout Path) : Prop where
  by_id : ∀ {userId other originalName otherName : String} {fileId otherId : Uuid},
    layout.fullPath (storagePathFor userId originalName fileId) =
      layout.fullPath (storagePathFor other otherName otherId) → fileId = otherId
  parts : ∀ (uploadId fileId : Uuid) (userId originalName : String),
    layout.tempPath uploadId ≠ layout.fullPath (storagePathFor userId originalName fileId)

section Local

theorem Uuid.text_inj {one other : Uuid} (same : one.text = other.text) : one = other := by
  cases one
  cases other
  cases same
  rfl

theorem Uuid.no_slash (uuid : Uuid) : '/' ∉ uuid.text.toList := by
  intro member
  exact absurd (uuid.proper '/' member) (by decide)

theorem Uuid.first (uuid : Uuid) : ∃ c rest, uuid.text.toList = c :: rest := by
  cases chars : uuid.text.toList with
  | nil =>
    have whole := uuid.whole
    rw [← String.length_toList, chars] at whole
    cases whole
  | cons c rest => exact ⟨c, rest, rfl⟩

/- The name of a file made up for an id is a name, and starts with the id. -/
theorem fileName_one (fileId : Uuid) (originalName : String) :
    '/' ∉ (fileId.text ++ extname originalName).toList := by
  rw [String.toList_append, List.mem_append, not_or]
  exact ⟨fileId.no_slash, extname_one originalName⟩

theorem fileName_named (fileId : Uuid) (originalName : String) :
    fileId.text ++ extname originalName ≠ "" ∧ fileId.text ++ extname originalName ≠ "." ∧
      fileId.text ++ extname originalName ≠ ".." := by
  have long : 36 ≤ (fileId.text ++ extname originalName).length := by
    rw [String.length_append, fileId.whole]
    omega
  refine ⟨?_, ?_, ?_⟩ <;> (intro same; rw [same] at long; exact absurd long (by decide))

theorem fullPath_storagePathFor (storageDir : List String) (userId originalName : String)
    (fileId : Uuid) : (localLayout storageDir).fullPath (storagePathFor userId originalName fileId) =
      joinPath storageDir ("users/" ++ userId) ++ [fileId.text ++ extname originalName] :=
  joinPath_name storageDir ("users/" ++ userId) (fileName_one fileId originalName)
    (fileName_named fileId originalName)

theorem tempPath_eq (storageDir : List String) (uploadId : Uuid) :
    (localLayout storageDir).tempPath uploadId = storageDir ++ ["temp_" ++ uploadId.text] := by
  have one : '/' ∉ ("temp_" ++ uploadId.text).toList := by
    rw [String.toList_append, List.mem_append, not_or]
    exact ⟨by decide, uploadId.no_slash⟩
  have long : 36 ≤ ("temp_" ++ uploadId.text).length := by
    rw [String.length_append, uploadId.whole]
    omega
  have named : ∀ short : String, short.length < 36 → "temp_" ++ uploadId.text ≠ short := by
    rintro _ short rfl
    omega
  simp [localLayout, joinPath, pathSegments_name one, resolveSegment, named "" (by decide),
    named "." (by decide), named ".." (by decide)]

theorem localLayout_separates (storageDir : List String) :
    (localLayout storageDir).Separates where
  by_id := by
    intro userId other originalName otherName fileId otherId same
    rw [fullPath_storagePathFor, fullPath_storagePathFor] at same
    have names := (List.append_inj' same rfl).2
    rw [List.cons.injEq, ← String.toList_inj, String.toList_append, String.toList_append] at names
    have ids := (List.append_inj names.1 (by
      rw [String.length_toList, String.length_toList, fileId.whole, otherId.whole])).1
    exact Uuid.text_inj (String.toList_inj.mp ids)
  parts := by
    intro uploadId fileId userId originalName same
    rw [tempPath_eq, fullPath_storagePathFor] at same
    have names := (List.append_inj' same rfl).2
    rw [List.cons.injEq, ← String.toList_inj, String.toList_append, String.toList_append] at names
    obtain ⟨c, rest, chars⟩ := fileId.first
    rw [chars] at names
    have first : 't' = c := (List.cons.inj names.1).1
    exact absurd (fileId.proper c (by rw [chars]; exact List.mem_cons_self))
      (by rw [← first]; decide)

end Local

/-- The id drawn for a new file. -/
def FilesCall.fileId : FilesCall → Option Uuid
  | .optimized _ _ fileId => some fileId
  | .allocated _ fileId _ => some fileId
  | _ => none

/-- The storage path that an answer gives to its user. -/
def FilesReply.allocates : FilesReply → Option String
  | .uploaded record => some record.storagePath
  | .initialized _ storagePath => some storagePath
  | _ => none

namespace FilesService
variable {Path : Type}

abbrev History := List (TimedFiles × FilesAnswer)

section Conditions
variable [DecidableEq Path] (config : FilesConfig Path)

/-- No operation of a user changes the file at a path allocated to another user. -/
def FilesIsolated (permit : Machine.Permit (FilesService Path) TimedFiles FilesAnswer) : Prop :=
  ∀ past service, (machine config).Run permit past service →
    ∀ timed after answer, permit past service timed →
      step config service timed = some (after, answer) →
      ∀ e ∈ past, ∀ storagePath ∈ e.2.reply.allocates, ∀ user owner,
        answer.userId = some user → e.2.userId = some owner → user ≠ owner →
        after.files.get (config.layout.fullPath storagePath) =
          service.files.get (config.layout.fullPath storagePath)

/-- uuid never draws an id twice. -/
def FreshIds : Machine.Permit (FilesService Path) TimedFiles FilesAnswer :=
  fun past _ timed => ∀ fileId ∈ timed.call.fileId, ∀ e ∈ past, e.1.call.fileId ≠ some fileId

instance (past : History) (service : FilesService Path) (timed : TimedFiles) :
    Decidable (FreshIds past service timed) := by
  unfold FreshIds
  infer_instance

/-- A complete call that renames its parts does so to no path allocated to another user. -/
def RenamesOwn (past : History) (service : FilesService Path) (timed : TimedFiles)
    (userId : Option String) : FilesStage Path → Prop
  | .rename _ tempPath draft => timed.call = .proceed timed.call.task true →
      service.files.get tempPath ≠ none → config.layout.nameable draft.storagePath = true →
      ∀ e ∈ past, ∀ storagePath ∈ e.2.reply.allocates, e.2.userId ≠ userId →
        config.layout.fullPath draft.storagePath ≠ config.layout.fullPath storagePath
  | _ => True

def CompletesOwnPaths : Machine.Permit (FilesService Path) TimedFiles FilesAnswer :=
  fun past service timed => FreshIds past service timed ∧
    ∀ task ∈ service.tasks.get timed.call.task,
      RenamesOwn config past service timed task.userId task.stage

end Conditions

/-- A path that was made up for a user. -/
def Issued (past : History) (userId : Option String) (storagePath : String) : Prop :=
  ∃ e ∈ past, ∃ fileId ∈ e.1.call.fileId, e.2.userId = userId ∧
    ∃ user originalName, storagePath = storagePathFor user originalName fileId

/-- What a call at an await is about to write, and for whom. -/
def StageLocated (layout : StorageLayout Path) (past : History) (userId : Option String) :
    FilesStage Path → Prop
  | .upload draft _ => Issued past userId draft.storagePath
  | .saveRecord .uploadFile draft => Issued past userId draft.storagePath
  | .findCharge .uploadFile record _ => Issued past userId record.storagePath
  | .saveCharge .uploadFile record _ _ => Issued past userId record.storagePath
  | .createTemp _ storagePath => Issued past userId storagePath
  | .append tempPath _ _ => ∃ uploadId, tempPath = layout.tempPath uploadId
  | .rename _ tempPath _ => ∃ uploadId, tempPath = layout.tempPath uploadId
  | .findExpired _ => userId = none
  | .delete _ _ => userId = none
  | .remove _ _ => userId = none
  | _ => True

structure Located (layout : StorageLayout Path) (past : History) (service : FilesService Path) :
    Prop where
  stages : ∀ task running, service.tasks.get task = some running →
    StageLocated layout past running.userId running.stage
  uploads : ∀ e ∈ service.activeUploads.entries, ∃ uploadId, e.2 = layout.tempPath uploadId
  answers : ∀ e ∈ past, ∀ storagePath ∈ e.2.reply.allocates, Issued past e.2.userId storagePath
  drawn_once : ∀ e ∈ past, ∀ other ∈ past, ∀ fileId, e.1.call.fileId = some fileId →
    other.1.call.fileId = some fileId → e.2.userId = other.2.userId

section Steps
variable {config : FilesConfig Path} {past : History} {service : FilesService Path}
  {timed : TimedFiles} {answer : FilesAnswer}

theorem Issued.later {userId : Option String} {storagePath : String}
    (issued : Issued past userId storagePath) (e : TimedFiles × FilesAnswer) :
    Issued (e :: past) userId storagePath := by
  obtain ⟨old, member, rest⟩ := issued
  exact ⟨old, List.mem_cons_of_mem _ member, rest⟩

theorem StageLocated.later {layout : StorageLayout Path} {userId : Option String}
    {stage : FilesStage Path} (located : StageLocated layout past userId stage)
    (e : TimedFiles × FilesAnswer) : StageLocated layout (e :: past) userId stage := by
  cases stage with
  | upload draft data => exact Issued.later located e
  | saveRecord origin draft =>
    cases origin with
    | uploadFile => exact Issued.later located e
    | completeChunkedUpload => trivial
  | findCharge origin record bytesAdded =>
    cases origin with
    | uploadFile => exact Issued.later located e
    | completeChunkedUpload => trivial
  | saveCharge origin record quota bytesAdded =>
    cases origin with
    | uploadFile => exact Issued.later located e
    | completeChunkedUpload => trivial
  | createTemp uploadId storagePath => exact Issued.later located e
  | _ => exact located

/- Two users are never given the same file. -/
theorem Located.apart (located : Located config.layout past service)
    (separates : config.layout.Separates) {userId other : Option String}
    {storagePath otherPath : String} (issued : Issued past userId storagePath)
    (another : Issued past other otherPath) (users : userId ≠ other) :
    config.layout.fullPath storagePath ≠ config.layout.fullPath otherPath := by
  obtain ⟨e, member, fileId, drawn, rfl, user, originalName, rfl⟩ := issued
  obtain ⟨e', member', otherId, drawn', rfl, user', otherName, rfl⟩ := another
  intro same
  obtain rfl := separates.by_id same
  exact users (located.drawn_once e member e' member' fileId drawn drawn')

theorem Issued.parts (separates : config.layout.Separates) {userId : Option String}
    {storagePath : String} (issued : Issued past userId storagePath) (uploadId : Uuid) :
    config.layout.tempPath uploadId ≠ config.layout.fullPath storagePath := by
  obtain ⟨_, _, fileId, _, _, user, originalName, rfl⟩ := issued
  exact separates.parts uploadId fileId user originalName

/- A step of one call: the stage it comes to, and what it answers. -/
theorem Located.keep (located : Located config.layout past service) {after : FilesService Path}
    (others : ∀ other, other ≠ timed.call.task → after.tasks.get other = service.tasks.get other)
    (own : ∀ running, after.tasks.get timed.call.task = some running →
      StageLocated config.layout ((timed, answer) :: past) running.userId running.stage)
    (uploads : ∀ e ∈ after.activeUploads.entries, ∃ uploadId, e.2 = config.layout.tempPath uploadId)
    (gives : ∀ storagePath ∈ answer.reply.allocates, Issued past answer.userId storagePath)
    (fresh : FreshIds past service timed) :
    Located config.layout ((timed, answer) :: past) after where
  stages := by
    intro task running at_task
    by_cases same : task = timed.call.task
    · subst same
      exact own running at_task
    · rw [others task same] at at_task
      exact (located.stages task running at_task).later _
  uploads := uploads
  answers := by
    intro e member storagePath given
    rcases List.mem_cons.mp member with rfl | before
    · exact (gives storagePath given).later _
    · exact (located.answers e before storagePath given).later _
  drawn_once := by
    intro e member other other_member fileId drawn drawn'
    rcases List.mem_cons.mp member with rfl | before
    · rcases List.mem_cons.mp other_member with rfl | other_before
      · rfl
      · exact absurd drawn' (fresh fileId drawn other other_before)
    · rcases List.mem_cons.mp other_member with rfl | other_before
      · exact absurd drawn (fresh fileId drawn' e before)
      · exact located.drawn_once e before other other_before fileId drawn drawn'

/- A step that takes a call to its next await. -/
theorem Located.goesOn (located : Located config.layout past service)
    {changed : FilesService Path} {task : Nat} {userId : Option String} {stage : FilesStage Path}
    (same : timed.call.task = task) (same_tasks : changed.tasks = service.tasks)
    (uploads : ∀ e ∈ changed.activeUploads.entries,
      ∃ uploadId, e.2 = config.layout.tempPath uploadId)
    (at_stage : StageLocated config.layout
      ((timed, (changed.goOn task userId stage).2) :: past) userId stage)
    (fresh : FreshIds past service timed) :
    Located config.layout ((timed, (changed.goOn task userId stage).2) :: past)
      (changed.goOn task userId stage).1 := by
  subst same
  refine located.keep (fun other ne => ?_) (fun running at_task => ?_) uploads nofun fresh
  · rw [← same_tasks]
    exact InsertionMap.get_set_ne _ _ ne
  · simp only [goOn, atStage, InsertionMap.get_set_self, Option.some.injEq] at at_task
    exact at_task ▸ at_stage

/- A step that ends a call. -/
theorem Located.finishes (located : Located config.layout past service)
    {changed : FilesService Path} {task : Nat} {userId : Option String} {reply : FilesReply}
    (same : timed.call.task = task) (same_tasks : changed.tasks = service.tasks)
    (same_uploads : changed.activeUploads = service.activeUploads)
    (gives : ∀ storagePath ∈ reply.allocates, Issued past userId storagePath)
    (fresh : FreshIds past service timed) :
    Located config.layout ((timed, (changed.finish task userId reply).2) :: past)
      (changed.finish task userId reply).1 := by
  subst same
  refine located.keep (fun other ne => ?_) (fun running at_task => ?_) ?_ gives fresh
  · rw [← same_tasks]
    exact InsertionMap.get_delete_ne _ ne
  · simp [finish, withoutTask] at at_task
  · intro e member
    apply located.uploads e
    rw [← same_uploads]
    exact member

theorem Located.nextFile (located : Located config.layout past service)
    {changed : FilesService Path} {task : Nat} {userId : Option String} {rest : List FileRecord}
    (same : timed.call.task = task) (same_tasks : changed.tasks = service.tasks)
    (same_uploads : changed.activeUploads = service.activeUploads) (collector : userId = none)
    (fresh : FreshIds past service timed) :
    Located config.layout ((timed, (changed.nextFile task userId rest).2) :: past)
      (changed.nextFile task userId rest).1 := by
  cases rest with
  | nil => exact located.finishes same same_tasks same_uploads nofun fresh
  | cons file rest =>
    exact located.goesOn same same_tasks (same_uploads ▸ located.uploads) collector fresh

/- What checkStorageQuota leads to says nothing of paths. -/
theorem afterCheck_located {layout : StorageLayout Path} {userId : Option String}
    (checked : Checked) : StageLocated layout past userId (afterCheck checked) := by
  cases checked <;> trivial

/- The first stage of a call knows a session by the file of its parts. -/
theorem Located.starts (located : Located config.layout past service)
    {userId : Option String} {stage : FilesStage Path} (entry : Entry service userId stage) :
    StageLocated config.layout past userId stage := by
  cases entry with
  | checks user checked => trivial
  | appends session => exact located.uploads _ session
  | renames session for_user => exact located.uploads _ session
  | finds user fileId => trivial
  | collects cutoff => rfl

theorem ended_allocates {origin : Origin} {record : FileRecord} {storagePath : String}
    (given : storagePath ∈ (ended origin record).allocates) :
    origin = .uploadFile ∧ record.storagePath = storagePath := by
  cases origin with
  | uploadFile => exact ⟨rfl, Option.some.inj given⟩
  | completeChunkedUpload => cases given

variable [DecidableEq Path]

theorem Located.step (located : Located config.layout past service)
    (fresh : FreshIds past service timed) {after : FilesService Path}
    (moved : FilesService.step config service timed = some (after, answer)) :
    Located config.layout ((timed, answer) :: past) after := by
  have move := step_moves moved
  generalize asked : timed.call = call at move
  generalize outcome : (after, answer) = result at move
  have own : timed.call.task = call.task := by rw [asked]
  have stage_of {task : Nat} {userId : Option String} {stage : FilesStage Path}
      (running : service.tasks.get task = some ⟨userId, stage⟩) :
      StageLocated config.layout past userId stage := located.stages task _ running
  obtain rfl : after = result.1 := congrArg Prod.fst outcome
  obtain rfl : answer = result.2 := congrArg Prod.snd outcome
  clear outcome
  cases move with
  | started free starts =>
    have entered := located.starts (start_entry starts)
    exact located.goesOn own rfl located.uploads (entered.later _) fresh
  | refused free =>
    refine located.keep (fun _ _ => rfl) (fun running at_task => ?_) located.uploads nofun fresh
    exact (located.stages _ running at_task).later _
  | failed running => exact located.finishes own rfl rfl nofun fresh
  | rejected running refusing => exact located.finishes own rfl rfl nofun fresh
  | allowed running there fits =>
    exact located.goesOn own rfl located.uploads (afterCheck_located _) fresh
  | noQuota running absent => exact located.goesOn own rfl located.uploads trivial fresh
  | created running absent =>
    unfold checkStorageQuota
    split
    · exact located.finishes own rfl rfl nofun fresh
    · exact located.goesOn own rfl located.uploads (afterCheck_located _) fresh
  | scanned running => exact located.goesOn own rfl located.uploads trivial fresh
  | optimized running =>
    refine located.goesOn own rfl located.uploads ?_ fresh
    exact ⟨_, List.mem_cons_self, _, by rw [asked]; rfl, rfl, _, _, rfl⟩
  | uploaded running =>
    exact located.goesOn own rfl located.uploads (Issued.later (stage_of running) _) fresh
  | opened running =>
    refine located.goesOn own rfl ?_ ?_ fresh
    · rintro ⟨key, tempPath⟩ member
      rcases (InsertionMap.set_entries_iff _ _ _ _ _).mp member with ⟨_, rfl⟩ | ⟨_, before⟩
      · exact ⟨_, rfl⟩
      · exact located.uploads _ before
    · exact ⟨_, List.mem_cons_self, _, by rw [asked]; rfl, rfl, _, _, rfl⟩
  | initialized running =>
    refine located.finishes own rfl rfl ?_ fresh
    intro storagePath given
    obtain rfl := Option.some.inj given
    exact stage_of running
  | appended running => exact located.finishes own rfl rfl nofun fresh
  | renamed running there nameable =>
    refine located.goesOn own rfl ?_ trivial fresh
    intro e member
    exact located.uploads e (List.mem_filter.mp member).1
  | @inserted task userId recordId origin draft records record running saved =>
    refine located.goesOn own rfl located.uploads ?_ fresh
    cases origin with
    | uploadFile =>
      obtain ⟨_, _, _, _, same_path, _⟩ := insertRecord_saved saved
      exact Issued.later (same_path ▸ stage_of running) _
    | completeChunkedUpload => trivial
  | @uncharged task userId origin record bytesAdded running absent =>
    refine located.finishes own rfl rfl ?_ fresh
    intro storagePath given
    obtain ⟨rfl, rfl⟩ := ended_allocates given
    exact stage_of running
  | @charging task userId origin record bytesAdded quota running there =>
    refine located.goesOn own rfl located.uploads ?_ fresh
    cases origin with
    | uploadFile => exact Issued.later (stage_of running) _
    | completeChunkedUpload => trivial
  | charged running charge =>
    refine located.finishes own rfl rfl ?_ fresh
    intro storagePath given
    obtain ⟨rfl, rfl⟩ := ended_allocates given
    exact stage_of running
  | found running there owned => exact located.goesOn own rfl located.uploads trivial fresh
  | marked running saved => exact located.finishes own rfl rfl nofun fresh
  | collecting running => exact located.nextFile own rfl rfl (stage_of running) fresh
  | deleted running =>
    exact located.goesOn own rfl located.uploads (stage_of running) fresh
  | skipped running at_file =>
    refine located.nextFile own rfl rfl ?_ fresh
    rcases at_file with rfl | rfl <;> exact stage_of running
  | removed running => exact located.nextFile own rfl rfl (stage_of running) fresh

theorem located_always
    (run : (machine config).Run (CompletesOwnPaths config) past service) :
    Located config.layout past service := by
  refine run.invariant (Located config.layout) ⟨?_, ?_, ?_, ?_⟩ ?_
  · intro task running at_task
    simp [machine, initial] at at_task
  · intro e member
    simp [machine, initial, InsertionMap.empty] at member
  · simp
  · simp
  · intro past service timed after answer _ located permitted moved
    exact located.step permitted.1 moved

/- A step for a user leaves the files of others alone. -/
theorem Located.undisturbed (located : Located config.layout past service)
    (separates : config.layout.Separates)
    (onto_own : ∀ task ∈ service.tasks.get timed.call.task,
      RenamesOwn config past service timed task.userId task.stage)
    {after : FilesService Path}
    (moved : FilesService.step config service timed = some (after, answer))
    {e : TimedFiles × FilesAnswer} (member : e ∈ past) {storagePath : String}
    (given : storagePath ∈ e.2.reply.allocates) {user : String}
    (for_user : answer.userId = some user) (others : answer.userId ≠ e.2.userId) :
    after.files.get (config.layout.fullPath storagePath) =
      service.files.get (config.layout.fullPath storagePath) := by
  have issued := located.answers e member storagePath given
  have move := step_moves moved
  generalize asked : timed.call = call at move
  generalize outcome : (after, answer) = result at move
  have stage_of {task : Nat} {userId : Option String} {stage : FilesStage Path}
      (running : service.tasks.get task = some ⟨userId, stage⟩) :
      StageLocated config.layout past userId stage := located.stages task _ running
  obtain rfl : after = result.1 := congrArg Prod.fst outcome
  obtain rfl : answer = result.2 := congrArg Prod.snd outcome
  clear outcome
  cases move with
  | started free starts => rfl
  | refused free => rfl
  | failed running => rfl
  | rejected running refusing => rfl
  | allowed running there fits => rfl
  | noQuota running absent => rfl
  | created running absent =>
    unfold checkStorageQuota
    split <;> rfl
  | scanned running => rfl
  | optimized running => rfl
  | uploaded running =>
    have elsewhere := located.apart separates issued (stage_of running) others.symm
    exact InsertionMap.get_set_ne _ _ elsewhere
  | opened running => rfl
  | initialized running =>
    exact InsertionMap.get_set_ne _ _ (issued.parts separates _).symm
  | appended running =>
    obtain ⟨uploadId, rfl⟩ := stage_of running
    exact InsertionMap.get_set_ne _ _ (issued.parts separates uploadId).symm
  | @renamed task userId uploadId tempPath draft data running there nameable =>
    obtain ⟨partsId, rfl⟩ := stage_of running
    have onto : RenamesOwn config past service timed userId (.rename uploadId
      (config.layout.tempPath partsId) draft) := onto_own _ (by rw [asked]; exact running)
    have not_onto := onto (by rw [asked]; rfl) (by rw [there]; exact Option.some_ne_none data)
      nameable e member storagePath given others.symm
    apply (InsertionMap.get_set_ne _ _ not_onto.symm).trans
    exact InsertionMap.get_delete_ne _ (issued.parts separates partsId).symm
  | inserted running saved => rfl
  | uncharged running absent => rfl
  | charging running there => rfl
  | charged running charge => rfl
  | found running there owned => rfl
  | marked running saved => rfl
  | collecting running => rw [nextFile_files]
  | @deleted task userId file rest running =>
    have collector : userId = none := stage_of running
    rw [collector] at for_user
    cases for_user
  | skipped running at_file => rw [nextFile_files]
  | removed running =>
    rw [nextFile_files]
    rfl

end Steps

/-- No operation of a user changes the file at a path allocated to another user, in every run in
which no complete call renames its parts to such a path. -/
theorem own_completes_isolate (storageDir : List String) (storageProvider : String)
    (cdnBaseUrl : Option String) (zone : Staking.Zone) :
    FilesIsolated ⟨localLayout storageDir, storageProvider, cdnBaseUrl, zone⟩
      (CompletesOwnPaths ⟨localLayout storageDir, storageProvider, cdnBaseUrl, zone⟩) := by
  intro past service run timed after answer permitted moved e member storagePath given user owner
    for_user of_owner differ
  refine (located_always run).undisturbed (localLayout_separates storageDir) permitted.2 moved
    member given for_user ?_
  rw [for_user, of_owner]
  exact fun same => differ (Option.some.inj same)

def bobsFile : Uuid :=
  ⟨"0f8fad5b-d9cb-469f-a165-70867728950e", by decide +kernel, by simp [isUuidCharacter]⟩

def bobsPath : String := "users/bob/0f8fad5b-d9cb-469f-a165-70867728950e.txt"

/-- Bob uploads a file; Alice opens an upload of her own and completes it to his path. -/
def overwritten : List TimedFiles :=
  [⟨0, .uploadFile 1 "bob" "notes.txt" "text/plain" [1]⟩, ⟨1, .proceed 1 true⟩,
    ⟨2, .proceed 1 true⟩, ⟨3, .scanned 1 none⟩, ⟨4, .optimized 1 none bobsFile⟩,
    ⟨5, .proceed 1 true⟩, ⟨6, .inserted 1 (some "r1")⟩, ⟨7, .proceed 1 true⟩,
    ⟨8, .proceed 1 true⟩, ⟨9, .initializeChunkedUpload 2 "alice" "x.txt" "text/plain" 1⟩,
    ⟨10, .proceed 2 true⟩, ⟨11, .proceed 2 true⟩, ⟨12, .allocated 2 alicesFile alicesUpload⟩,
    ⟨13, .proceed 2 true⟩,
    ⟨14, .completeChunkedUpload 3 "alice" "16fd2706-8baf-433b-82eb-8c7fada847da" bobsPath "x.txt"
      "text/plain" 1⟩]

def ofAlice : TimedFiles := ⟨15, .proceed 3 true⟩

/-- The next turn is Alice's and changes the file at the path allocated to Bob. -/
def changesBobsFile (moment : Moment (FilesService (List String)) TimedFiles FilesAnswer) : Bool :=
  match step uploadsHere moment.state ofAlice with
  | some (after, answer) => decide (answer.userId = some "alice" ∧
      after.files.get (uploadsHere.layout.fullPath bobsPath) ≠
        moment.state.files.get (uploadsHere.layout.fullPath bobsPath) ∧
      ∃ e ∈ moment.past, e.2.userId = some "bob" ∧ e.2.reply.allocates = some bobsPath)
  | none => false

theorem complete_overwrites_other_user : ¬ FilesIsolated uploadsHere FreshIds := by
  intro isolated
  have seen : ((machine uploadsHere).play FreshIds ⟨[], initial⟩ overwritten).any
      changesBobsFile = true := by decide +kernel
  obtain ⟨moment, played, changes⟩ := (Option.any_eq_true _ _).mp seen
  unfold changesBobsFile at changes
  split at changes
  · rename_i after answer moved
    obtain ⟨for_alice, changed, e, member, of_bob, given⟩ := of_decide_eq_true changes
    exact changed (isolated moment.past moment.state (Machine.play_run played) ofAlice after answer
      nofun moved e member bobsPath given "alice" "bob" for_alice of_bob (by decide))
  · cases changes

end FilesService
end AstraPort.Files
