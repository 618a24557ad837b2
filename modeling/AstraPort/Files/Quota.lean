import AstraPort.Files.Moves

/- Used bytes against the limit. An upload is checked and charged with the length of its own
   buffer; a chunked upload is checked with the size told at its start and charged with the
   size told at its end. -/
namespace AstraPort.Files
namespace FilesService
variable {Path : Type}

section Conditions
variable [DecidableEq Path] (config : FilesConfig Path)

/-- No user has used more bytes than the quota allows. -/
def QuotaHolds (permit : Machine.Permit (FilesService Path) TimedFiles FilesAnswer) : Prop :=
  ∀ past service, (machine config).Run permit past service →
    ∀ userId quota, service.quotas.get userId = some quota → quota.usedBytes ≤ quota.maxBytes

end Conditions

/-- The size that a complete call charges fits into the quota it is added to. -/
def ChargeFits (timed : TimedFiles) : FilesStage Path → Prop
  | .saveCharge .completeChunkedUpload _ quota bytesAdded =>
      timed.call = .proceed timed.call.task true → exceeds quota bytesAdded = false
  | _ => True

instance (timed : TimedFiles) (stage : FilesStage Path) : Decidable (ChargeFits timed stage) := by
  unfold ChargeFits
  split <;> infer_instance

def CompletesFit : Machine.Permit (FilesService Path) TimedFiles FilesAnswer :=
  fun past service timed => OneAtATime past service timed ∧
    ∀ task ∈ service.tasks.get timed.call.task, ChargeFits timed task.stage

instance (past : List (TimedFiles × FilesAnswer)) (service : FilesService Path)
    (timed : TimedFiles) : Decidable (CompletesFit past service timed) := by
  unfold CompletesFit
  infer_instance

/-- The quota of a user takes that many more bytes. -/
def Room (quotas : InsertionMap String StorageQuota) (userId : Option String) (bytes : Rat) :
    Prop :=
  ∃ quota, quotas.get (userId.getD "") = some quota ∧ exceeds quota bytes = false

/-- An upload that has passed its check has room for what it is about to charge. -/
def StageRoom (quotas : InsertionMap String StorageQuota) (userId : Option String) :
    FilesStage Path → Prop
  | .scanBuffer _ _ buffer => Room quotas userId buffer.length
  | .optimizeImage _ _ buffer => Room quotas userId buffer.length
  | .upload draft _ => Room quotas userId draft.size
  | .saveRecord .uploadFile draft => Room quotas userId draft.size
  | .findCharge .uploadFile _ bytesAdded => Room quotas userId bytesAdded
  | .saveCharge .uploadFile _ quota bytesAdded => exceeds quota bytesAdded = false
  | _ => True

structure Within (service : FilesService Path) : Prop where
  limits : ∀ userId quota, service.quotas.get userId = some quota →
    quota.usedBytes ≤ quota.maxBytes
  stages : ∀ task running, service.tasks.get task = some running →
    StageRoom service.quotas running.userId running.stage

section Steps
variable {config : FilesConfig Path} {past : List (TimedFiles × FilesAnswer)}
  {service : FilesService Path} {timed : TimedFiles} {answer : FilesAnswer}

theorem exceeds_less {quota : StorageQuota} {bytes fewer : Rat}
    (fits : exceeds quota bytes = false) (less : fewer ≤ bytes) : exceeds quota fewer = false := by
  simp only [exceeds, decide_eq_false_iff_not, not_lt] at fits ⊢
  linarith

theorem Room.less {quotas : InsertionMap String StorageQuota} {userId : Option String}
    {bytes fewer : Rat} (room : Room quotas userId bytes) (less : fewer ≤ bytes) :
    Room quotas userId fewer := by
  obtain ⟨quota, found, fits⟩ := room
  exact ⟨quota, found, exceeds_less fits less⟩

/- The optimized image is never the larger one. -/
theorem optimizeImage_length (output : Option Bytes) (buffer : Bytes) (mimeType : String) :
    (optimizeImage output buffer mimeType).1.length ≤ buffer.length := by
  unfold optimizeImage
  split
  · exact Nat.le_refl _
  · split
    · split
      · rename_i smaller
        exact Nat.le_of_lt smaller
      · exact Nat.le_refl _
    · exact Nat.le_refl _

theorem afterCheck_room {quotas : InsertionMap String StorageQuota} {userId : Option String}
    {quota : StorageQuota} {checked : Checked} (found : quotas.get (userId.getD "") = some quota)
    (fits : exceeds quota checked.additionalBytes = false) :
    StageRoom quotas userId (afterCheck checked : FilesStage Path) := by
  cases checked with
  | upload originalName mimeType buffer => exact ⟨quota, found, fits⟩
  | chunkedUpload originalName mimeType totalSize => trivial

theorem entry_room {quotas : InsertionMap String StorageQuota} {userId : Option String}
    {stage : FilesStage Path} (entry : Entry service userId stage) :
    StageRoom quotas userId stage := by
  cases entry <;> trivial

/- Writing one quota that holds keeps all of them. -/
theorem Within.set (within : Within service) {userId : String} {written : StorageQuota}
    (holds : written.usedBytes ≤ written.maxBytes) : ∀ other quota,
      (service.quotas.set userId written).get other = some quota →
      quota.usedBytes ≤ quota.maxBytes := by
  exact InsertionMap.get_set_all holds within.limits

variable [DecidableEq Path]

theorem Within.step (within : Within service) (permitted : CompletesFit past service timed)
    {after : FilesService Path}
    (moved : FilesService.step config service timed = some (after, answer)) : Within after := by
  obtain ⟨alone, charge_fits⟩ := permitted
  have move := step_moves moved
  generalize asked : timed.call = call at move
  generalize outcome : (after, answer) = result at move
  have own : timed.call.task = call.task := by rw [asked]
  have stage_of {task : Nat} {userId : Option String} {stage : FilesStage Path}
      (running : service.tasks.get task = some ⟨userId, stage⟩) :
      StageRoom service.quotas userId stage := within.stages task _ running
  obtain rfl : after = result.1 := congrArg Prod.fst outcome
  clear outcome
  cases move with
  | started free starts =>
    exact ⟨within.limits, goOn_stages alone own (entry_room (start_entry starts))⟩
  | refused free => exact within
  | failed running => exact ⟨within.limits, finish_stages alone own⟩
  | rejected running refusing => exact ⟨within.limits, finish_stages alone own⟩
  | allowed running there fits =>
    exact ⟨within.limits, goOn_stages alone own (afterCheck_room there fits)⟩
  | noQuota running absent => exact ⟨within.limits, goOn_stages alone own trivial⟩
  | @created task userId checked running absent =>
    have holds : freshQuota.usedBytes ≤ freshQuota.maxBytes := by decide
    unfold checkStorageQuota
    split
    · exact ⟨within.set holds, finish_stages alone own⟩
    · rename_i fits
      exact ⟨within.set holds, goOn_stages alone own
        (afterCheck_room (InsertionMap.get_set_self _ _ _) (by simpa using fits))⟩
  | @scanned task userId reply originalName mimeType buffer running =>
    have room : Room service.quotas userId buffer.length := stage_of running
    exact ⟨within.limits, goOn_stages alone own room⟩
  | @optimized task userId output fileId originalName mimeType buffer running =>
    have room : Room service.quotas userId (optimizeImage output buffer mimeType).1.length :=
      Room.less (stage_of running) (by exact_mod_cast optimizeImage_length output buffer mimeType)
    exact ⟨within.limits, goOn_stages alone own room⟩
  | @uploaded task userId draft data running =>
    have room : Room service.quotas userId draft.size := stage_of running
    exact ⟨within.limits, goOn_stages alone own room⟩
  | opened running => exact ⟨within.limits, goOn_stages alone own trivial⟩
  | initialized running => exact ⟨within.limits, finish_stages alone own⟩
  | appended running => exact ⟨within.limits, finish_stages alone own⟩
  | renamed running there nameable =>
    exact ⟨within.limits, goOn_stages alone own trivial⟩
  | @inserted task userId recordId origin draft records record running saved =>
    refine ⟨within.limits, goOn_stages alone own ?_⟩
    cases origin with
    | uploadFile =>
      have room : Room service.quotas userId draft.size := stage_of running
      exact room
    | completeChunkedUpload => trivial
  | uncharged running absent => exact ⟨within.limits, finish_stages alone own⟩
  | @charging task userId origin record bytesAdded quota running there =>
    refine ⟨within.limits, goOn_stages alone own ?_⟩
    cases origin with
    | uploadFile =>
      obtain ⟨checked, found, fits⟩ := stage_of running
      obtain rfl := Option.some.inj (there.symm.trans found)
      exact fits
    | completeChunkedUpload => trivial
  | @charged task userId origin record quota bytesAdded usedBytes running charge =>
    have fits : exceeds quota bytesAdded = false := by
      cases origin with
      | uploadFile => exact stage_of running
      | completeChunkedUpload =>
        have its_own : ChargeFits timed (.saveCharge .completeChunkedUpload record quota
          bytesAdded : FilesStage Path) := charge_fits _ (by rw [asked]; exact running)
        exact its_own (by rw [asked]; rfl)
    have holds : usedBytes ≤ quota.maxBytes := by
      have charged := bigint_eq charge
      simp only [exceeds, decide_eq_false_iff_not, not_lt, ← charged] at fits
      exact_mod_cast fits
    let written : StorageQuota := { quota with usedBytes := usedBytes }
    exact ⟨within.set (show written.usedBytes ≤ written.maxBytes from holds),
      finish_stages alone own⟩
  | found running there owned => exact ⟨within.limits, goOn_stages alone own trivial⟩
  | marked running saved => exact ⟨within.limits, finish_stages alone own⟩
  | collecting running =>
    refine ⟨?_, nextFile_stages alone own fun _ _ _ => trivial⟩
    rw [nextFile_quotas]
    exact within.limits
  | deleted running => exact ⟨within.limits, goOn_stages alone own trivial⟩
  | skipped running at_file =>
    refine ⟨?_, nextFile_stages alone own fun _ _ _ => trivial⟩
    rw [nextFile_quotas]
    exact within.limits
  | @removed task userId file rest running =>
    have still_alone : OneAtATime past (service.withRecords (service.records.delete file.id))
      timed := alone
    refine ⟨?_, nextFile_stages still_alone own fun _ _ _ => trivial⟩
    rw [nextFile_quotas]
    exact within.limits

end Steps

/-- Told as one byte at the start and as six gibibytes at the end. -/
def sixGibibytes : List TimedFiles :=
  [⟨0, .initializeChunkedUpload 1 "alice" "x.txt" "text/plain" 1⟩, ⟨1, .proceed 1 true⟩,
    ⟨2, .proceed 1 true⟩, ⟨3, .allocated 1 alicesFile alicesUpload⟩, ⟨4, .proceed 1 true⟩,
    ⟨5, .completeChunkedUpload 2 "alice" "16fd2706-8baf-433b-82eb-8c7fada847da"
      "users/alice/7c9e6679-7425-40de-944b-e07fc1f90ae7.txt" "x.txt" "text/plain" 6442450944⟩,
    ⟨6, .proceed 2 true⟩, ⟨7, .inserted 2 (some "r1")⟩, ⟨8, .proceed 2 true⟩, ⟨9, .proceed 2 true⟩]

end FilesService
end AstraPort.Files
