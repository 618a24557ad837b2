import AstraPort.Files.Paths
import AstraPort.Staking.EmergencyUnstake

/- FilesService over its repositories and the local storage provider, with the garbage
   collector, as a machine. A call moves from await to await, so calls interleave at each of
   them; a command of the file system takes effect at one instant. Paths are what a storage
   layout makes of them. -/
namespace AstraPort.Files
open Staking (Zone)

abbrev Bytes := List UInt8

inductive FilesError where
  | badRequest (message : String)
  | notFound (message : String)
  | forbidden (message : String)
  | internalServerError (message : String)
  deriving DecidableEq

def isUuidCharacter (c : Char) : Bool := c ∈ "0123456789abcdef-".toList

/-- The text of a v4 UUID. -/
structure Uuid where
  text : String
  whole : text.length = 36
  proper : ∀ c ∈ text.toList, isUuidCharacter c = true
  deriving DecidableEq

/-- Where a provider keeps the file of a storage path and the parts of an upload; `nameable`
    says that a file can have the path. -/
structure StorageLayout (Path : Type) where
  fullPath : String → Path
  nameable : String → Bool
  tempPath : Uuid → Path

def localLayout (storageDir : List String) : StorageLayout (List String) where
  fullPath filePath := joinPath storageDir filePath
  nameable filePath := !endsWithSlash filePath
  tempPath uploadId := joinPath storageDir ("temp_" ++ uploadId.text)

structure FilesConfig (Path : Type) where
  layout : StorageLayout Path
  storageProvider : String
  cdnBaseUrl : Option String
  zone : Zone

structure StorageQuota where
  usedBytes : Int
  maxBytes : Int
  deriving DecidableEq

/-- A record as it is created; saving adds the id, makes the size a bigint and stamps it. -/
structure FileDraft where
  userId : String
  originalName : String
  mimeType : String
  size : Rat
  storageProvider : String
  storagePath : String
  cdnUrl : Option String
  isCompressed : Bool
  isScanned : Bool
  deriving DecidableEq

structure FileRecord where
  id : String
  userId : String
  originalName : String
  mimeType : String
  size : Int
  storageProvider : String
  storagePath : String
  cdnUrl : Option String
  isCompressed : Bool
  isScanned : Bool
  isInfected : Bool
  isDeleted : Bool
  updatedAt : Int
  deriving DecidableEq

/-- What a call goes on with once the quota allows it. -/
inductive Checked where
  | upload (originalName mimeType : String) (buffer : Bytes)
  | chunkedUpload (originalName mimeType : String) (totalSize : Rat)
  deriving DecidableEq

def Checked.additionalBytes : Checked → Rat
  | .upload _ _ buffer => buffer.length
  | .chunkedUpload _ _ totalSize => totalSize

/-- The operation that saves a record. -/
inductive Origin where
  | uploadFile
  | completeChunkedUpload
  deriving DecidableEq

/-- The await a call stands at. -/
inductive FilesStage (Path : Type) where
  | findQuota (checked : Checked)
  | createQuota (checked : Checked)
  | scanBuffer (originalName mimeType : String) (buffer : Bytes)
  | optimizeImage (originalName mimeType : String) (buffer : Bytes)
  | upload (draft : FileDraft) (data : Bytes)
  | initializeMultipartUpload (originalName : String)
  | createTemp (uploadId : Uuid) (storagePath : String)
  | append (tempPath : Path) (partNumber : Option Int) (data : Bytes)
  | rename (uploadId : Uuid) (tempPath : Path) (draft : FileDraft)
  | saveRecord (origin : Origin) (draft : FileDraft)
  | findCharge (origin : Origin) (record : FileRecord) (bytesAdded : Rat)
  | saveCharge (origin : Origin) (record : FileRecord) (quota : StorageQuota) (bytesAdded : Rat)
  | findFile (fileId : String)
  | saveDeleted (record : FileRecord)
  | findExpired (cutoffDate : Int)
  | delete (file : FileRecord) (rest : List FileRecord)
  | remove (file : FileRecord) (rest : List FileRecord)
  deriving DecidableEq

/-- A call with the user it is made for; the collector has none. -/
structure FilesTask (Path : Type) where
  userId : Option String
  stage : FilesStage Path
  deriving DecidableEq

structure FilesService (Path : Type) where
  records : InsertionMap String FileRecord
  quotas : InsertionMap String StorageQuota
  files : InsertionMap Path Bytes
  activeUploads : InsertionMap Uuid Path
  tasks : InsertionMap Nat (FilesTask Path)

/-- A call that awaits a repository or the file system goes on with `ok`, or with the id of the
    inserted record; scanned, optimized and allocated bring what clamscan, sharp and uuid return. -/
inductive FilesCall where
  | uploadFile (task : Nat) (userId originalName mimeType : String) (buffer : Bytes)
  | initializeChunkedUpload (task : Nat) (userId originalName mimeType : String) (totalSize : Rat)
  | uploadChunk (task : Nat) (userId uploadId : String) (partNumber : Option Int) (buffer : Bytes)
  | completeChunkedUpload (task : Nat) (userId uploadId storagePath originalName mimeType : String)
      (totalSize : Rat)
  | deleteFile (task : Nat) (userId fileId : String)
  | cleanupDeletedFiles (task : Nat)
  | proceed (task : Nat) (ok : Bool)
  | inserted (task : Nat) (recordId : Option String)
  | scanned (task : Nat) (reply : Option (Option Bool × Option (List String)))
  | optimized (task : Nat) (output : Option Bytes) (fileId : Uuid)
  | allocated (task : Nat) (fileId uploadId : Uuid)
  deriving DecidableEq

def FilesCall.task : FilesCall → Nat
  | .uploadFile task _ _ _ _ => task
  | .initializeChunkedUpload task _ _ _ _ => task
  | .uploadChunk task _ _ _ _ => task
  | .completeChunkedUpload task _ _ _ _ _ _ => task
  | .deleteFile task _ _ => task
  | .cleanupDeletedFiles task => task
  | .proceed task _ => task
  | .inserted task _ => task
  | .scanned task _ => task
  | .optimized task _ _ => task
  | .allocated task _ _ => task

structure TimedFiles where
  now : Int
  call : FilesCall
  deriving DecidableEq

/- `failed` is the rejection of a repository or of the file system. -/
inductive FilesReply where
  | waiting
  | uploaded (record : FileRecord)
  | initialized (uploadId : Uuid) (storagePath : String)
  | chunked (partNumber : Option Int)
  | completed (record : FileRecord)
  | deleted
  | collected
  | refused (error : FilesError)
  | failed
  deriving DecidableEq

/-- What a step shows, and for whom it is made. -/
structure FilesAnswer where
  userId : Option String
  reply : FilesReply
  deriving DecidableEq

namespace FileValidatorService

def allowedMimeTypes : List String :=
  ["image/jpeg", "image/png", "image/webp", "image/gif", "application/pdf", "text/plain",
   "application/msword", "application/vnd.openxmlformats-officedocument.wordprocessingml.document",
   "application/vnd.ms-excel", "application/vnd.openxmlformats-officedocument.spreadsheetml.sheet"]

def maxSizeBytes : Nat := 100 * 1024 * 1024

def maxChunkSize : Nat := 10 * 1024 * 1024

/-- The error of a refused file. -/
def validateFile (mimeType : String) (size : Rat) : Option FilesError :=
  if mimeType ∉ allowedMimeTypes then
    some (.badRequest ("File type " ++ mimeType ++ " is not supported."))
  else if maxSizeBytes < size then
    some (.badRequest "File size exceeds the maximum limit of 100 MB.")
  else none

def validateChunkSize (size : Nat) : Option FilesError :=
  if maxChunkSize < size then some (.badRequest "Chunk size exceeds maximum of 10MB") else none

end FileValidatorService

/-- Without clamscan, or when it throws, everything is clean. -/
def scanBuffer (reply : Option (Option Bool × Option (List String))) : Bool × List String :=
  match reply with
  | some (isInfected, viruses) => (isInfected.getD false, viruses.getD [])
  | none => (false, [])

/-- What sharp makes of an image is taken when it is smaller; none when sharp throws. -/
def optimizeImage (output : Option Bytes) (buffer : Bytes) (mimeType : String) : Bytes × Bool :=
  if !"image/".toList.isPrefixOf mimeType.toList ∨ mimeType = "image/svg+xml" then (buffer, false)
  else match output with
    | some optimizedBuffer =>
      if optimizedBuffer.length < buffer.length then (optimizedBuffer, true) else (buffer, false)
    | none => (buffer, false)

/-- A value for a bigint column; the database rejects any other. -/
def bigint (x : Rat) : Option Int :=
  if x.den = 1 ∧ -2 ^ 63 ≤ x.num ∧ x.num < 2 ^ 63 then some x.num else none

def defaultMaxBytes : Int := 5 * 1024 * 1024 * 1024

def retentionDays : Nat := 30

/-- Date.setDate counts days in local time. -/
def cutoffDate (zone : Zone) (now : Int) : Int :=
  zone.toUtc (zone.toLocal now - retentionDays * millisPerDay)

def storagePathFor (userId originalName : String) (fileId : Uuid) : String :=
  "users/" ++ userId ++ "/" ++ (fileId.text ++ extname originalName)

namespace FilesService
variable {Path : Type} [DecidableEq Path]

def initial : FilesService Path :=
  ⟨InsertionMap.empty, InsertionMap.empty, InsertionMap.empty, InsertionMap.empty,
    InsertionMap.empty⟩

def atStage (service : FilesService Path) (task : Nat) (userId : Option String)
    (stage : FilesStage Path) : FilesService Path :=
  { service with tasks := service.tasks.set task ⟨userId, stage⟩ }

def withoutTask (service : FilesService Path) (task : Nat) : FilesService Path :=
  { service with tasks := service.tasks.delete task }

/-- Number(quota.usedBytes) + additionalBytes > Number(quota.maxBytes) -/
def exceeds (quota : StorageQuota) (additionalBytes : Rat) : Bool :=
  decide ((quota.maxBytes : Rat) < quota.usedBytes + additionalBytes)

/-- The stage after checkStorageQuota. -/
def afterCheck : Checked → FilesStage Path
  | .upload originalName mimeType buffer => .scanBuffer originalName mimeType buffer
  | .chunkedUpload originalName _ _ => .initializeMultipartUpload originalName

def isPathTaken (records : InsertionMap String FileRecord) (id storagePath : String) : Bool :=
  records.entries.any fun e => decide (e.1 ≠ id ∧ e.2.storagePath = storagePath)

/-- An INSERT: the id and the storage path are unique. -/
def insertRecord (records : InsertionMap String FileRecord) (draft : FileDraft)
    (recordId : String) (now : Int) : Option (InsertionMap String FileRecord × FileRecord) :=
  match bigint draft.size with
  | none => none
  | some size =>
    if (records.get recordId).isSome ∨ isPathTaken records recordId draft.storagePath then none
    else
      let record : FileRecord :=
        { id := recordId, userId := draft.userId, originalName := draft.originalName,
          mimeType := draft.mimeType, size := size, storageProvider := draft.storageProvider,
          storagePath := draft.storagePath, cdnUrl := draft.cdnUrl,
          isCompressed := draft.isCompressed, isScanned := draft.isScanned, isInfected := false,
          isDeleted := false, updatedAt := now }
      some (records.set recordId record, record)

/-- save of a found record that is marked as deleted: only a change is written, and a row
    that has gone meanwhile is inserted again. -/
def markDeleted (records : InsertionMap String FileRecord) (record : FileRecord) (now : Int) :
    Option (InsertionMap String FileRecord) :=
  match records.get record.id with
  | some row =>
    if row.isDeleted then some records
    else some (records.set record.id { row with isDeleted := true, updatedAt := now })
  | none =>
    if isPathTaken records record.id record.storagePath then none
    else some (records.set record.id { record with isDeleted := true })

/-- The loop of the collector at its next file. -/
def collect (rest : List FileRecord) : Option (FilesStage Path) :=
  match rest with
  | [] => none
  | file :: rest => some (.delete file rest)

def ended (origin : Origin) (record : FileRecord) : FilesReply :=
  match origin with
  | .uploadFile => .uploaded record
  | .completeChunkedUpload => .completed record

section Calls
variable (config : FilesConfig Path)

def generateCdnUrl (storagePath : String) : Option String :=
  match config.cdnBaseUrl with
  | some cdnBase => if cdnBase = "" then none else some (cdnBase ++ "/" ++ storagePath)
  | none => none

/-- The end of a call, with what it shows. -/
def finish (service : FilesService Path) (task : Nat) (userId : Option String)
    (reply : FilesReply) : FilesService Path × FilesAnswer :=
  (service.withoutTask task, ⟨userId, reply⟩)

/-- From one await to the next. -/
def goOn (service : FilesService Path) (task : Nat) (userId : Option String)
    (stage : FilesStage Path) : FilesService Path × FilesAnswer :=
  (service.atStage task userId stage, ⟨userId, .waiting⟩)

def checkStorageQuota (service : FilesService Path) (task : Nat) (userId : Option String)
    (quota : StorageQuota) (checked : Checked) : FilesService Path × FilesAnswer :=
  if exceeds quota checked.additionalBytes then
    service.finish task userId (.refused (.badRequest "Storage quota exceeded"))
  else service.goOn task userId (afterCheck checked)

/-- The collector goes on with its next file, or ends. -/
def nextFile (service : FilesService Path) (task : Nat) (userId : Option String)
    (rest : List FileRecord) : FilesService Path × FilesAnswer :=
  match collect rest with
  | some stage => service.goOn task userId stage
  | none => service.finish task userId .collected

/-- What a repository or the file system has done, or rejected. -/
def proceed (service : FilesService Path) (task : Nat) (userId : Option String) (ok : Bool)
    (now : Int) : FilesStage Path → Option (FilesService Path × FilesAnswer)
  | .findQuota checked =>
    if ok then
      match service.quotas.get (userId.getD "") with
      | some quota => some (service.checkStorageQuota task userId quota checked)
      | none => some (service.goOn task userId (.createQuota checked))
    else some (service.finish task userId .failed)
  | .createQuota checked =>
    if ok ∧ service.quotas.get (userId.getD "") = none then
      let quota : StorageQuota := ⟨0, defaultMaxBytes⟩
      let service := { service with quotas := service.quotas.set (userId.getD "") quota }
      some (service.checkStorageQuota task userId quota checked)
    else some (service.finish task userId .failed)
  | .upload draft data =>
    if ok then
      let files := service.files.set (config.layout.fullPath draft.storagePath) data
      some ({ service with files := files }.goOn task userId (.saveRecord .uploadFile draft))
    else some (service.finish task userId .failed)
  | .createTemp uploadId storagePath =>
    if ok then
      let files := service.files.set (config.layout.tempPath uploadId) []
      some ({ service with files := files }.finish task userId
        (.initialized uploadId storagePath))
    else some (service.finish task userId .failed)
  | .append tempPath partNumber data =>
    if ok then
      let files := service.files.set tempPath ((service.files.get tempPath).getD [] ++ data)
      some ({ service with files := files }.finish task userId (.chunked partNumber))
    else some (service.finish task userId .failed)
  | .rename uploadId tempPath draft =>
    match service.files.get tempPath with
    | some data =>
      if ok ∧ config.layout.nameable draft.storagePath then
        let files := (service.files.delete tempPath).set
          (config.layout.fullPath draft.storagePath) data
        some ({ service with files := files,
                             activeUploads := service.activeUploads.delete uploadId }.goOn task
          userId (.saveRecord .completeChunkedUpload draft))
      else some (service.finish task userId .failed)
    | none => some (service.finish task userId .failed)
  | .findCharge origin record bytesAdded =>
    if ok then
      match service.quotas.get (userId.getD "") with
      | some quota => some (service.goOn task userId (.saveCharge origin record quota bytesAdded))
      | none => some (service.finish task userId (ended origin record))
    else some (service.finish task userId .failed)
  | .saveCharge origin record quota bytesAdded =>
    match bigint (quota.usedBytes + bytesAdded) with
    | some usedBytes =>
      if ok then
        let quotas := service.quotas.set (userId.getD "") { quota with usedBytes := usedBytes }
        some ({ service with quotas := quotas }.finish task userId (ended origin record))
      else some (service.finish task userId .failed)
    | none => some (service.finish task userId .failed)
  | .findFile fileId =>
    if ok then
      match service.records.get fileId with
      | some file =>
        if file.userId ≠ userId.getD "" then
          some (service.finish task userId (.refused (.forbidden "Access denied")))
        else some (service.goOn task userId (.saveDeleted file))
      | none => some (service.finish task userId (.refused (.notFound "File not found")))
    else some (service.finish task userId .failed)
  | .saveDeleted record =>
    match markDeleted service.records record now with
    | some records =>
      if ok then some ({ service with records := records }.finish task userId .deleted)
      else some (service.finish task userId .failed)
    | none => some (service.finish task userId .failed)
  | .findExpired cutoff =>
    if ok then
      some (service.nextFile task userId (service.records.values.filter fun file =>
        file.isDeleted ∧ file.updatedAt < cutoff))
    else some (service.finish task userId .failed)
  | .delete file rest =>
    -- an error is logged, and the loop goes on
    if ok then
      let files := service.files.delete (config.layout.fullPath file.storagePath)
      some ({ service with files := files }.goOn task userId (.remove file rest))
    else some (service.nextFile task userId rest)
  | .remove file rest =>
    if ok then
      some ({ service with records := service.records.delete file.id }.nextFile task userId rest)
    else some (service.nextFile task userId rest)
  | .scanBuffer _ _ _ => none
  | .optimizeImage _ _ _ => none
  | .initializeMultipartUpload _ => none
  | .saveRecord _ _ => none

/-- After the optimization the storage path is made up and the file is written there. -/
def store (service : FilesService Path) (task : Nat) (userId : Option String)
    (output : Option Bytes) (fileId : Uuid) (originalName mimeType : String) (buffer : Bytes) :
    FilesService Path × FilesAnswer :=
  let (processedBuffer, isCompressed) := optimizeImage output buffer mimeType
  let storagePath := storagePathFor (userId.getD "") originalName fileId
  service.goOn task userId (.upload
    { userId := userId.getD "", originalName := originalName, mimeType := mimeType,
      size := processedBuffer.length, storageProvider := config.storageProvider,
      storagePath := storagePath, cdnUrl := generateCdnUrl config storagePath,
      isCompressed := isCompressed, isScanned := true } processedBuffer)

/-- The session is in the table before its file is there. -/
def openUpload (service : FilesService Path) (task : Nat) (userId : Option String)
    (fileId uploadId : Uuid) (originalName : String) : FilesService Path × FilesAnswer :=
  let storagePath := storagePathFor (userId.getD "") originalName fileId
  let activeUploads := service.activeUploads.set uploadId (config.layout.tempPath uploadId)
  { service with activeUploads := activeUploads }.goOn task userId
    (.createTemp uploadId storagePath)

/-- The session that an upload id names. -/
def findUpload (service : FilesService Path) (uploadId : String) : Option (Uuid × Path) :=
  service.activeUploads.entries.find? fun e => decide (e.1.text = uploadId)

def sessionNotFound : FilesError := .internalServerError "Upload session not found"

/-- A call of a user up to its first await: the stage it stands at then, or why it ends. -/
def start (service : FilesService Path) (now : Int) :
    FilesCall → Option (Option String × Except FilesError (FilesStage Path))
  | .uploadFile _ userId originalName mimeType buffer =>
    match FileValidatorService.validateFile mimeType buffer.length with
    | some error => some (some userId, .error error)
    | none => some (some userId, .ok (.findQuota (.upload originalName mimeType buffer)))
  | .initializeChunkedUpload _ userId originalName mimeType totalSize =>
    match FileValidatorService.validateFile mimeType totalSize with
    | some error => some (some userId, .error error)
    | none => some (some userId, .ok (.findQuota (.chunkedUpload originalName mimeType totalSize)))
  | .uploadChunk _ userId uploadId partNumber buffer =>
    match FileValidatorService.validateChunkSize buffer.length, service.findUpload uploadId with
    | some error, _ => some (some userId, .error error)
    | none, some upload => some (some userId, .ok (.append upload.2 partNumber buffer))
    | none, none => some (some userId, .error sessionNotFound)
  | .completeChunkedUpload _ userId uploadId storagePath originalName mimeType totalSize =>
    match service.findUpload uploadId with
    | some upload => some (some userId, .ok (.rename upload.1 upload.2
        { userId := userId, originalName := originalName, mimeType := mimeType, size := totalSize,
          storageProvider := config.storageProvider, storagePath := storagePath,
          cdnUrl := generateCdnUrl config storagePath, isCompressed := false, isScanned := false }))
    | none => some (some userId, .error sessionNotFound)
  | .deleteFile _ userId fileId => some (some userId, .ok (.findFile fileId))
  | .cleanupDeletedFiles _ => some (none, .ok (.findExpired (cutoffDate config.zone now)))
  | .proceed _ _ => none
  | .inserted _ _ => none
  | .scanned _ _ => none
  | .optimized _ _ _ => none
  | .allocated _ _ _ => none

/-- A turn of a running call. -/
def turn (service : FilesService Path) (task : Nat) (userId : Option String) (now : Int) :
    FilesCall → FilesStage Path → Option (FilesService Path × FilesAnswer)
  | .proceed _ ok, stage => service.proceed config task userId ok now stage
  | .inserted _ recordId, .saveRecord origin draft =>
    match recordId.bind fun recordId => insertRecord service.records draft recordId now with
    | some (records, record) => some ({ service with records := records }.goOn task userId
        (.findCharge origin record draft.size))
    | none => some (service.finish task userId .failed)
  | .scanned _ reply, .scanBuffer originalName mimeType buffer =>
    let (isInfected, viruses) := scanBuffer reply
    if isInfected then
      some (service.finish task userId (.refused (.badRequest
        ("Virus detected! Viruses: " ++ String.intercalate ", " viruses))))
    else some (service.goOn task userId (.optimizeImage originalName mimeType buffer))
  | .optimized _ output fileId, .optimizeImage originalName mimeType buffer =>
    some (service.store config task userId output fileId originalName mimeType buffer)
  | .allocated _ fileId uploadId, .initializeMultipartUpload originalName =>
    some (service.openUpload config task userId fileId uploadId originalName)
  | _, _ => none

def step (service : FilesService Path) (timed : TimedFiles) :
    Option (FilesService Path × FilesAnswer) :=
  match service.tasks.get timed.call.task with
  | some task => service.turn config timed.call.task task.userId timed.now timed.call task.stage
  | none =>
    match service.start config timed.now timed.call with
    | some (userId, .ok stage) => some (service.goOn timed.call.task userId stage)
    | some (userId, .error error) => some (service, ⟨userId, .refused error⟩)
    | none => none

def machine : Machine (FilesService Path) TimedFiles FilesAnswer := ⟨initial, step config⟩

end Calls
end FilesService
end AstraPort.Files
