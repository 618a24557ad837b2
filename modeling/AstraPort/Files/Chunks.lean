import AstraPort.Files.Service
import AstraPort.Foundation.Throwing

/- LocalStorageProvider: uploads in parts. A part is appended to the file of its session when it
   arrives; its number is handed back and used for nothing else. -/
namespace AstraPort.Files

/-- What a call of the provider rejects with: an exception of its own, or the file system's. -/
inductive StorageFailure where
  | thrown (error : FilesError)
  | fileSystem
  deriving DecidableEq

structure LocalStorageProvider (Path : Type) where
  files : InsertionMap Path Bytes
  activeUploads : InsertionMap String Path

namespace LocalStorageProvider
variable {Path : Type} [DecidableEq Path] (layout : StorageLayout Path)

def initializeMultipartUpload (provider : LocalStorageProvider Path) (uploadId : Uuid) :
    LocalStorageProvider Path × String :=
  let tempPath := layout.tempPath uploadId
  (⟨provider.files.set tempPath [], provider.activeUploads.set uploadId.text tempPath⟩,
    uploadId.text)

def uploadChunk (provider : LocalStorageProvider Path) (uploadId : String) (partNumber : Nat)
    (data : Bytes) : Except StorageFailure (LocalStorageProvider Path × Nat) :=
  match provider.activeUploads.get uploadId with
  | none => .error (.thrown FilesService.sessionNotFound)
  | some tempPath =>
    let before := (provider.files.get tempPath).getD []
    .ok ({ provider with files := provider.files.set tempPath (before ++ data) }, partNumber)

/-- The parts that the client lists are not looked at. -/
def completeMultipartUpload (provider : LocalStorageProvider Path) (uploadId filePath : String)
    (_parts : List Nat) : Except StorageFailure (LocalStorageProvider Path × String) :=
  match provider.activeUploads.get uploadId with
  | none => .error (.thrown FilesService.sessionNotFound)
  | some tempPath =>
    match provider.files.get tempPath with
    | none => .error .fileSystem
    | some data =>
      if layout.nameable filePath then
        .ok (⟨(provider.files.delete tempPath).set (layout.fullPath filePath) data,
          provider.activeUploads.delete uploadId⟩, filePath)
      else .error .fileSystem

def download (provider : LocalStorageProvider Path) (filePath : String) :
    Except StorageFailure Bytes :=
  match provider.files.get (layout.fullPath filePath) with
  | some data => .ok data
  | none => .error (.thrown (.internalServerError "File not found in local storage"))

/-- The parts of one session, in the order of their arrival. -/
def uploadParts (uploadId : String) (contents : Nat → Bytes) :
    List Nat → LocalStorageProvider Path → Except StorageFailure (LocalStorageProvider Path)
  | [], provider => .ok provider
  | partNumber :: rest, provider => do
    let (provider, _) ← provider.uploadChunk uploadId partNumber (contents partNumber)
    uploadParts uploadId contents rest provider

/-- A session from its start to a download of what it made. -/
def uploaded (provider : LocalStorageProvider Path) (session : Uuid) (filePath : String)
    (contents : Nat → Bytes) (arrivals parts : List Nat) : Except StorageFailure Bytes := do
  let (provider, uploadId) := provider.initializeMultipartUpload layout session
  let provider ← uploadParts uploadId contents arrivals provider
  let (provider, path) ← provider.completeMultipartUpload layout uploadId filePath parts
  provider.download layout path

/-- A session is open and its file holds this much. -/
def Holds (provider : LocalStorageProvider Path) (uploadId : String) (tempPath : Path)
    (data : Bytes) : Prop :=
  provider.activeUploads.get uploadId = some tempPath ∧ provider.files.get tempPath = some data

variable {layout}

theorem initialize_holds (provider : LocalStorageProvider Path) (session : Uuid) :
    (provider.initializeMultipartUpload layout session).1.Holds session.text
      (layout.tempPath session) [] :=
  ⟨InsertionMap.get_set_self _ _ _, InsertionMap.get_set_self _ _ _⟩

theorem uploadChunk_holds {provider : LocalStorageProvider Path} {uploadId : String}
    {tempPath : Path} {before : Bytes} (holds : provider.Holds uploadId tempPath before)
    (partNumber : Nat) (data : Bytes) :
    ∃ after, provider.uploadChunk uploadId partNumber data = .ok (after, partNumber) ∧
      after.Holds uploadId tempPath (before ++ data) := by
  obtain ⟨session, content⟩ := holds
  refine ⟨{ provider with files := provider.files.set tempPath (before ++ data) }, ?_, session, ?_⟩
  · rw [uploadChunk, session]
    simp only [content, Option.getD_some]
  · exact InsertionMap.get_set_self _ _ _

/- The file of a session is what has arrived, joined in the order of arrival. -/
theorem uploadParts_holds (contents : Nat → Bytes) (arrivals : List Nat)
    {provider : LocalStorageProvider Path} {uploadId : String} {tempPath : Path} {before : Bytes}
    (holds : provider.Holds uploadId tempPath before) :
    ∃ after, uploadParts uploadId contents arrivals provider = .ok after ∧
      after.Holds uploadId tempPath (before ++ arrivals.flatMap contents) := by
  induction arrivals generalizing provider before with
  | nil => exact ⟨provider, rfl, by simpa using holds⟩
  | cons partNumber rest ih =>
    obtain ⟨next, arrived, more⟩ := uploadChunk_holds holds partNumber (contents partNumber)
    obtain ⟨after, uploaded, all⟩ := ih more
    refine ⟨after, ?_, ?_⟩
    · rw [uploadParts, arrived]
      exact uploaded
    · rw [List.flatMap_cons, ← List.append_assoc]
      exact all

theorem uploaded_eq (provider : LocalStorageProvider Path) (session : Uuid) {filePath : String}
    (nameable : layout.nameable filePath = true) (contents : Nat → Bytes)
    (arrivals parts : List Nat) :
    provider.uploaded layout session filePath contents arrivals parts =
      .ok (arrivals.flatMap contents) := by
  have started : (provider.initializeMultipartUpload layout session).1.Holds session.text
      (layout.tempPath session) [] := initialize_holds provider session
  obtain ⟨after, uploads, opened, content⟩ := uploadParts_holds contents arrivals started
  rw [List.nil_append] at content
  have completes : after.completeMultipartUpload layout session.text filePath parts =
      .ok (⟨(after.files.delete (layout.tempPath session)).set (layout.fullPath filePath)
        (arrivals.flatMap contents), after.activeUploads.delete session.text⟩, filePath) := by
    rw [completeMultipartUpload, opened]
    simp only [content, nameable, ↓reduceIte]
  calc provider.uploaded layout session filePath contents arrivals parts
    _ = (do
        let provider ← uploadParts session.text contents arrivals
          (provider.initializeMultipartUpload layout session).1
        let (provider, path) ← provider.completeMultipartUpload layout session.text filePath parts
        provider.download layout path) := rfl
    _ = (do
        let (provider, path) ← after.completeMultipartUpload layout session.text filePath parts
        provider.download layout path) := by rw [uploads]; rfl
    _ = .ok (arrivals.flatMap contents) := by
      rw [completes]
      change download layout _ filePath = _
      rw [download, InsertionMap.get_set_self]

end LocalStorageProvider

/-- Contents that tell the parts apart: as many zeros as the number says, closed by a one. -/
def unaryContents (partNumber : Nat) : Bytes := List.replicate partNumber 0 ++ [1]

theorem unaryContents_first {a b : Nat} {left right : Bytes}
    (same : unaryContents a ++ left = unaryContents b ++ right) : a = b ∧ left = right := by
  induction a generalizing b with
  | zero =>
    cases b with
    | zero => exact ⟨rfl, by simpa [unaryContents] using same⟩
    | succ b => simp [unaryContents, List.replicate_succ] at same
  | succ a ih =>
    cases b with
    | zero => simp [unaryContents, List.replicate_succ] at same
    | succ b =>
      simp only [unaryContents, List.replicate_succ, List.cons_append, List.cons.injEq,
        true_and] at same ih
      obtain ⟨rfl, rest⟩ := ih same
      exact ⟨rfl, rest⟩

theorem unaryContents_inj {a b : List Nat}
    (same : a.flatMap unaryContents = b.flatMap unaryContents) : a = b := by
  induction a generalizing b with
  | nil =>
    cases b with
    | nil => rfl
    | cons first rest => simp [unaryContents] at same
  | cons first rest ih =>
    cases b with
    | nil => simp [unaryContents] at same
    | cons other others =>
      simp only [List.flatMap_cons] at same
      obtain ⟨rfl, later⟩ := unaryContents_first same
      rw [ih later]

section Sessions
variable {Path : Type} [DecidableEq Path]

end Sessions

def uploadsLayout : StorageLayout (List String) := localLayout ["app", "uploads"]

def emptyStorage : LocalStorageProvider (List String) := ⟨InsertionMap.empty, InsertionMap.empty⟩

def someSession : Uuid :=
  ⟨"00000000-0000-4000-8000-000000000001", by decide +kernel, by simp [isUuidCharacter]⟩

end AstraPort.Files
