import ManagedAgents.SessionFiles

/-!
# The metadata of files

What the row of a new file says about the bytes under its key.  The row of a
duplicate repeats the size of the row before it, and a completed upload takes
the size that the client claims.
-/

namespace ManagedAgents

open Fallible SharedPrograms

/-! ## Programs that end well -/

section

variable {store after : FileStore} {answer : FileAnswer}

theorem execute_attempt
    {Value : Type} {check : Except HTTPException Value} {next : Value → FileProgram} :
    (attempt check next).execute FileStore.perform store = (after, .ok answer) ↔
      ∃ value, check = .ok value ∧
        (next value).execute FileStore.perform store = (after, .ok answer) := by
  cases check with
  | error error => simp [attempt, raise]
  | ok value => simp [attempt]

theorem not_execute_raise (error : HTTPException) :
    (raise error).execute FileStore.perform store ≠ (after, .ok answer) := by
  simp [raise]

/-- A commit writes rows only. -/
theorem execute_commitAnd
    {statements : List FileStatement} {given : FileAnswer}
    (hcommit : (commitAnd statements given).execute FileStore.perform store =
      (after, .ok answer)) :
    answer = given ∧ after.objects = store.objects := by
  rw [commitAnd, Program.execute_call, FileStore.perform] at hcommit
  simp only [Program.execute_done] at hcommit
  cases hstatements : statements.foldlM FileStatement.execute store with
  | none => simp [hstatements] at hcommit
  | some next =>
      simp only [hstatements, if_true, Prod.mk.injEq, Except.ok.injEq] at hcommit
      obtain ⟨rfl, rfl⟩ := hcommit
      exact ⟨rfl, objects_of_statements hstatements⟩

theorem execute_insertFile
    {given file : FileRow}
    (hinsert : (insertFile given).execute FileStore.perform store =
      (after, .ok (.created file))) :
    file = given ∧ after.objects = store.objects := by
  obtain ⟨hanswer, hobjects⟩ := execute_commitAnd hinsert
  exact ⟨FileAnswer.created.inj hanswer, hobjects⟩

end

/-! ## The truth about an object -/

/-- The size and the digest are those of the object at the key, and the size is
within the limit if there is one. -/
def FileRow.Truthful (limit : ℤ) (store : FileStore) (file : FileRow) : Prop :=
  ∃ key object, file.storageKey = some key ∧ store.objects key = some object ∧
    file.sizeBytes = some (object.content.length : ℤ) ∧
    file.sha256 = some (sha256Hex object.content) ∧
    (0 < limit → (object.content.length : ℤ) ≤ limit)

inductive FileCreation
  | upload (file : UploadFile)
  | complete (body : CompleteFileBody)

def FileCreation.program (context : FileContext) : FileCreation → FileProgram
  | .upload file => uploadFile context file
  | .complete body => completeFileUpload context body

/-- A duplicate of an upload repeats a row that tells the truth.  A completed upload
claims the right size of the bytes under its key, and this key is not the staged
one, which is deleted. -/
def FileCreation.TellsTruth (context : FileContext) (store : FileStore) :
    FileCreation → Prop
  | .upload file =>
      ∀ existing ∈
        findDeduplicatedFile store.files context.workspaceId (sha256Hex file.content),
      existing.Truthful context.settings.maxFileUploadBytes store
  | .complete body =>
      ∀ staged ∈ store.objects body.key,
      match findDeduplicatedFile store.files context.workspaceId
          (sha256Hex staged.content) with
      | none =>
          body.claimedSize staged = staged.content.length ∧
            uploadKey context body.name (sha256Hex staged.content) ≠ body.key
      | some existing =>
          existing.storageKey ≠ some body.key ∧
            ∃ object, existing.storageKey.bind store.objects = some object ∧
              sha256Hex object.content = sha256Hex staged.content ∧
              body.claimedSize staged = object.content.length

theorem enforceSizeLimit_eq_ok {sizeBytes maxBytes : ℤ} {value : Unit} :
    enforceSizeLimit sizeBytes maxBytes = .ok value ↔
      (0 < maxBytes → sizeBytes ≤ maxBytes) := by
  unfold enforceSizeLimit
  rw [raiseIf_eq_ok]
  simp

theorem truthful_iff
    {limit : ℤ} {store : FileStore} {file : FileRow} {key : String}
    {object : StoredObject}
    (hkey : file.storageKey = some key) (hobject : store.objects key = some object) :
    file.Truthful limit store ↔
      file.sizeBytes = some (object.content.length : ℤ) ∧
        file.sha256 = some (sha256Hex object.content) ∧
        (0 < limit → (object.content.length : ℤ) ≤ limit) := by
  constructor
  · rintro ⟨otherKey, other, hotherKey, hother, hfacts⟩
    obtain rfl := Option.some.inj (hkey.symm.trans hotherKey)
    obtain rfl := Option.some.inj (hobject.symm.trans hother)
    exact hfacts
  · intro hfacts
    exact ⟨key, object, hkey, hobject, hfacts⟩

/-! ## Uploads -/

theorem uploaded_truthful_iff
    {context : FileContext} {upload : UploadFile} {store after : FileStore}
    {file : FileRow}
    (hcreated : (uploadFile context upload).execute FileStore.perform store =
      (after, .ok (.created file))) :
    file.Truthful context.settings.maxFileUploadBytes after ↔
      (FileCreation.upload upload).TellsTruth context store := by
  unfold uploadFile at hcreated
  simp only [execute_attempt] at hcreated
  obtain ⟨_, hlimit, _, -, hrest⟩ := hcreated
  rw [enforceSizeLimit_eq_ok] at hlimit
  simp only [Program.execute_call, FileStore.perform] at hrest
  simp only [FileCreation.TellsTruth]
  cases hexisting : findDeduplicatedFile store.files context.workspaceId
      (sha256Hex upload.content) with
  | none =>
      simp only [hexisting] at hrest
      cases hstorage : context.settings.storage with
      | none =>
          simp only [hstorage] at hrest
          exact absurd hrest (not_execute_raise _)
      | some storage =>
          simp only [hstorage, Program.execute_call, FileStore.perform] at hrest
          obtain ⟨hfile, hobjects⟩ := execute_insertFile hrest
          have hkey := congrArg FileRow.storageKey hfile
          rw [createFile_storageKey, newPlacement_storageKey] at hkey
          have hobject := congrFun hobjects
            (uploadKey context (optionOr upload.filename "upload")
              (sha256Hex upload.content))
          rw [write_objects, Function.update_self] at hobject
          rw [truthful_iff hkey hobject, hfile, createFile_sizeBytes, createFile_sha256]
          exact iff_of_true ⟨rfl, rfl, hlimit⟩ (by simp)
  | some existing =>
      simp only [hexisting] at hrest
      obtain ⟨hfile, hobjects⟩ := execute_insertFile hrest
      obtain ⟨-, hdigest, -, -⟩ := findDeduplicatedFile_eq_some hexisting
      rw [hfile]
      simp only [Option.mem_some_iff, forall_eq', FileRow.Truthful,
        createFile_storageKey, createFile_sizeBytes, createFile_sha256,
        FileRow.placement, hobjects, hdigest, Option.getD_some]

/-! ## Completed uploads -/

theorem execute_finishUpload
    {context : FileContext} {body : CompleteFileBody} {mimeType : String}
    {sizeBytes : ℤ} {sha256 : HexText} {existing : Option FileRow}
    {placement : Placement} {store after : FileStore} {file : FileRow}
    (hfinish : (finishUpload context body mimeType sizeBytes sha256 existing
      placement).execute FileStore.perform store = (after, .ok (.created file))) :
    file.storageKey = placement.storageKey ∧ file.sizeBytes = some sizeBytes ∧
      file.sha256 = some sha256 ∧
      after.objects = Function.update store.objects body.key none := by
  unfold finishUpload at hfinish
  simp only [Program.execute_call, FileStore.perform] at hfinish
  obtain ⟨hfile, hobjects⟩ := execute_insertFile hfinish
  rw [write_objects] at hobjects
  rw [hfile]
  exact ⟨createFile_storageKey .., createFile_sizeBytes .., createFile_sha256 ..,
    hobjects⟩

/-- The fresh object is gone if its key is the staged one. -/
theorem fresh_truthful_iff
    {limit size : ℤ} {objects : String → Option StoredObject} {after : FileStore}
    {file : FileRow} {staged : StoredObject} {contentType : Option String}
    {key stagedKey : String} (hlimit : 0 < limit → size ≤ limit)
    (hkey : file.storageKey = some key) (hsize : file.sizeBytes = some size)
    (hdigest : file.sha256 = some (sha256Hex staged.content))
    (hobjects : after.objects = Function.update
      (Function.update objects key (some (staged.copied contentType))) stagedKey none) :
    file.Truthful limit after ↔ size = staged.content.length ∧ key ≠ stagedKey := by
  by_cases hsame : key = stagedKey
  · refine iff_of_false ?_ (by simp [hsame])
    rintro ⟨otherKey, object, hother, hobject, -⟩
    obtain rfl := Option.some.inj (hkey.symm.trans hother)
    rw [hobjects, hsame, Function.update_self] at hobject
    cases hobject
  · have hobject := congrFun hobjects key
    rw [Function.update_of_ne hsame, Function.update_self] at hobject
    rw [truthful_iff hkey hobject, hsize, hdigest]
    simp only [Option.some.injEq, StoredObject.copied, true_and, ne_eq, hsame,
      not_false_eq_true, and_true, and_iff_left_iff_imp]
    rintro rfl
    exact hlimit

theorem repeated_truthful_iff
    {limit size : ℤ} {objects : String → Option StoredObject} {after : FileStore}
    {file existing : FileRow} {digest : HexText} {stagedKey : String}
    (hlimit : 0 < limit → size ≤ limit) (hkey : file.storageKey = existing.storageKey)
    (hsize : file.sizeBytes = some size) (hdigest : file.sha256 = some digest)
    (hobjects : after.objects = Function.update objects stagedKey none) :
    file.Truthful limit after ↔
      existing.storageKey ≠ some stagedKey ∧
        ∃ object, existing.storageKey.bind objects = some object ∧
          sha256Hex object.content = digest ∧ size = object.content.length := by
  constructor
  · rintro ⟨key, object, hfileKey, hobject, hlength, hsha, -⟩
    rw [hsize, Option.some.injEq] at hlength
    rw [hdigest, Option.some.injEq] at hsha
    rw [hkey] at hfileKey
    have hother : key ≠ stagedKey := by
      rintro rfl
      rw [hobjects, Function.update_self] at hobject
      cases hobject
    rw [hobjects, Function.update_of_ne hother] at hobject
    exact ⟨by simpa [hfileKey] using hother, object, by simp [hfileKey, hobject],
      hsha.symm, hlength⟩
  · rintro ⟨hother, object, hobject, hsha, hlength⟩
    obtain ⟨key, hexistingKey, hobject⟩ := Option.bind_eq_some_iff.mp hobject
    have hother : key ≠ stagedKey := by simpa [hexistingKey] using hother
    refine ⟨key, object, hkey.trans hexistingKey, ?_, ?_, ?_, ?_⟩
    · rw [hobjects, Function.update_of_ne hother, hobject]
    · rw [hsize, hlength]
    · rw [hdigest, hsha]
    · exact hlength ▸ hlimit

theorem completed_truthful_iff
    {context : FileContext} {body : CompleteFileBody} {store after : FileStore}
    {file : FileRow}
    (hcreated : (completeFileUpload context body).execute FileStore.perform store =
      (after, .ok (.created file))) :
    file.Truthful context.settings.maxFileUploadBytes after ↔
      (FileCreation.complete body).TellsTruth context store := by
  unfold completeFileUpload at hcreated
  cases hstorage : context.settings.storage with
  | none =>
      simp only [hstorage] at hcreated
      exact absurd hcreated (not_execute_raise _)
  | some storage =>
      simp only [hstorage, execute_attempt, Program.execute_call, FileStore.perform]
        at hcreated
      obtain ⟨_, -, hcreated⟩ := hcreated
      simp only [FileCreation.TellsTruth]
      cases hstaged : store.objects body.key with
      | none =>
          simp only [hstaged] at hcreated
          exact absurd hcreated (not_execute_raise _)
      | some staged =>
          simp only [hstaged, execute_attempt, Program.execute_call, FileStore.perform]
            at hcreated
          obtain ⟨_, hlimit, _, -, _, -, hrest⟩ := hcreated
          rw [enforceSizeLimit_eq_ok] at hlimit
          simp only [Option.mem_some_iff, forall_eq']
          cases hexisting : findDeduplicatedFile store.files context.workspaceId
              (sha256Hex staged.content) with
          | none =>
              simp only [hexisting, Program.execute_call, FileStore.perform, hstaged,
                if_true] at hrest
              obtain ⟨hkey, hsize, hdigest, hobjects⟩ := execute_finishUpload hrest
              exact fresh_truthful_iff hlimit hkey hsize hdigest hobjects
          | some existing =>
              simp only [hexisting] at hrest
              obtain ⟨hkey, hsize, hdigest, hobjects⟩ := execute_finishUpload hrest
              exact repeated_truthful_iff hlimit hkey hsize hdigest hobjects

/-! ## Created files -/

/-- The row of a created file tells the truth exactly if the request does. -/
theorem created_metadata_true_iff
    {context : FileContext} {creation : FileCreation} {store after : FileStore}
    {file : FileRow}
    (hcreated : (creation.program context).execute FileStore.perform store =
      (after, .ok (.created file))) :
    file.Truthful context.settings.maxFileUploadBytes after ↔
      creation.TellsTruth context store := by
  cases creation with
  | upload upload => exact uploaded_truthful_iff hcreated
  | complete body => exact completed_truthful_iff hcreated

def createdFile? {Store : Type} (outcome : Store × Except HTTPException FileAnswer) :
    Option FileRow :=
  match outcome.2 with
  | .ok (.created file) => some file
  | _ => none

theorem eq_created_of_createdFile?
    {Store : Type} {outcome : Store × Except HTTPException FileAnswer} {file : FileRow}
    (hfile : createdFile? outcome = some file) :
    outcome = (outcome.1, .ok (.created file)) := by
  obtain ⟨after, answer⟩ := outcome
  cases answer with
  | error error => cases hfile
  | ok answer =>
      cases answer with
      | created created =>
          cases hfile
          rfl
      | deleted | attached | opened | staged => cases hfile

def sampleFileSupply : FileSupply where
  uuidHex _ := ⟨"0a", by decide⟩
  clock draw := draw

/-- A limit of one byte. -/
def sampleFileContext : FileContext where
  settings := { storage := some ⟨"https://files"⟩, maxFileUploadBytes := 1 }
  workspaceId := "ws"
  supply := sampleFileSupply

def sampleStagedKey : String := "workspaces/ws/oma/staged-uploads/0a"

def sampleFileStore (content : List UInt8) : FileStore where
  files := []
  resources := []
  objects := Function.update (fun _ => none) sampleStagedKey (some { content := content })

/-- One byte is claimed. -/
def sampleCompletion : FileCreation :=
  .complete { key := sampleStagedKey, sizeBytes := some 1 }

def sampleCompleted (content : List UInt8) :
    FileStore × Except HTTPException FileAnswer :=
  (sampleCompletion.program sampleFileContext).execute FileStore.perform
    (sampleFileStore content)

def sampleSmallFile : FileRow :=
  (createdFile? (sampleCompleted [7])).get (by decide)

def sampleLargeFile : FileRow :=
  (createdFile? (sampleCompleted [7, 8])).get (by decide)

/-- A file of two bytes is completed as one of one byte. -/
theorem claimed_size_recorded :
    ¬ ∀ (context : FileContext) (creation : FileCreation) (store after : FileStore)
        (file : FileRow),
      (creation.program context).execute FileStore.perform store =
        (after, .ok (.created file)) →
      file.Truthful context.settings.maxFileUploadBytes after := by
  intro hclaim
  have hcreated := @eq_created_of_createdFile? _ (sampleCompleted [7, 8])
    sampleLargeFile (Option.some_get _).symm
  have htruthful := hclaim sampleFileContext sampleCompletion (sampleFileStore [7, 8]) _
    sampleLargeFile hcreated
  have htells : sampleCompletion.TellsTruth sampleFileContext (sampleFileStore [7, 8]) :=
    (@completed_truthful_iff sampleFileContext
      { key := sampleStagedKey, sizeBytes := some 1 }
      (sampleFileStore [7, 8]) _ _ hcreated).mp htruthful
  have hstaged : (sampleFileStore [7, 8]).objects sampleStagedKey =
      some { content := [7, 8] } := by
    simp [sampleFileStore]
  have hsize : (1 : ℤ) = ([7, 8] : List UInt8).length := (htells _ hstaged).1
  exact absurd hsize (by decide)

theorem small_file_metadata :
    (sampleCompletion.program sampleFileContext).execute FileStore.perform
        (sampleFileStore [7]) =
          ((sampleCompleted [7]).1, .ok (.created sampleSmallFile)) ∧
      (sampleSmallFile.Truthful sampleFileContext.settings.maxFileUploadBytes
          (sampleCompleted [7]).1 ↔
        sampleCompletion.TellsTruth sampleFileContext (sampleFileStore [7])) :=
  ⟨eq_created_of_createdFile? (Option.some_get _).symm,
    created_metadata_true_iff (eq_created_of_createdFile? (Option.some_get _).symm)⟩

end ManagedAgents
