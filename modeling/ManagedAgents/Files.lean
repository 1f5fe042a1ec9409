import Mathlib.Data.List.DropRight
import ManagedAgents.Library.Sha256
import ManagedAgents.Library.SharedPrograms
import ManagedAgents.Runtime.Context
import ManagedAgents.Storage

/-!
# Files

The rows of files and the objects with their bytes.  An endpoint is a program of
queries, operations of the object store and a commit: the store is written at
once, the rows at the commit.
-/

namespace ManagedAgents

open Fallible SharedPrograms

/-! ## Rows and objects -/

theorem hexDigits_isAlphanum (byte : UInt8) :
    ∀ char ∈ Sha256.hexDigits byte, char.isAlphanum = true := by
  have hdigit : ∀ value < 16, (Nat.digitChar value).isAlphanum = true := by decide
  have hbyte := byte.toNat_lt
  intro char hchar
  simp only [Sha256.hexDigits, List.mem_cons, List.not_mem_nil, or_false] at hchar
  rcases hchar with rfl | rfl
  · exact hdigit _ (by omega)
  · exact hdigit _ (by omega)

/-- `hashlib.sha256(content).hexdigest()`. -/
def sha256Hex (content : List UInt8) : HexText where
  text := Sha256.hexdigest content
  digits := by
    intro char hchar
    rw [Sha256.hexdigest, String.toList_ofList] at hchar
    obtain ⟨byte, -, hchar⟩ := List.mem_flatMap.mp hchar
    exact hexDigits_isAlphanum byte char hchar

structure StoredObject where
  content : List UInt8
  contentType : Option String := none
deriving DecidableEq

structure FileRow where
  id : String
  workspaceId : String
  name : Option String
  data : Dict
  contentType : Option String
  filename : Option String
  storageBackend : Option String
  storageKey : Option String
  storageUrl : Option String
  sizeBytes : Option ℤ
  sha256 : Option HexText
  createdAt : Time
  deletedAt : Option Time := none
deriving DecidableEq

/-- The tables and the object store. -/
structure FileStore where
  files : List FileRow
  resources : List Resource
  objects : String → Option StoredObject

def isObjectStorageBackend (value : Option String) : Bool :=
  value.any fun backend => lower backend = "s3".toList

/-- The key of a row whose bytes are in the object store. -/
def FileRow.storedKey (file : FileRow) : Option String :=
  if isObjectStorageBackend file.storageBackend then file.storageKey.filter (· ≠ "")
  else none

/-! ## Queries -/

def getFile (files : List FileRow) (workspaceId fileId : String) : Option FileRow :=
  files.find? fun file =>
    file.id = fileId ∧ file.workspaceId = workspaceId ∧ file.deletedAt = none

/-- The first row by `created_at`. -/
def oldestFile : List FileRow → Option FileRow
  | [] => none
  | file :: rest =>
      match oldestFile rest with
      | some other => if other.createdAt < file.createdAt then some other else some file
      | none => some file

def getFileBySha256 (files : List FileRow) (workspaceId : String) (sha256 : HexText) :
    Option FileRow :=
  oldestFile <| files.filter fun file =>
    file.sha256 = some sha256 ∧ file.workspaceId = workspaceId ∧ file.deletedAt = none

def findDeduplicatedFile (files : List FileRow) (workspaceId : String)
    (sha256 : HexText) : Option FileRow :=
  (getFileBySha256 files workspaceId sha256).filter fun file => file.storedKey.isSome

theorem oldestFile_mem
    {files : List FileRow} {file : FileRow} (hfile : oldestFile files = some file) :
    file ∈ files := by
  induction files generalizing file with
  | nil => cases hfile
  | cons first rest ih =>
      simp only [oldestFile] at hfile
      split at hfile
      next other hother =>
        split at hfile
        · cases hfile
          exact List.mem_cons_of_mem _ (ih hother)
        · cases hfile
          exact List.mem_cons_self
      next =>
        cases hfile
        exact List.mem_cons_self

/-- What is known of a duplicate. -/
theorem findDeduplicatedFile_eq_some
    {files : List FileRow} {workspaceId : String} {sha256 : HexText} {file : FileRow}
    (hfile : findDeduplicatedFile files workspaceId sha256 = some file) :
    file ∈ files ∧ file.sha256 = some sha256 ∧ file.deletedAt = none ∧
      file.storedKey.isSome = true := by
  unfold findDeduplicatedFile getFileBySha256 at hfile
  obtain ⟨holdest, hstored⟩ := Option.filter_eq_some_iff.mp hfile
  obtain ⟨hmem, hselected⟩ := List.mem_filter.mp (oldestFile_mem holdest)
  simp only [decide_eq_true_eq] at hselected
  exact ⟨hmem, hselected.1, hselected.2.2, hstored⟩

theorem storageKey_of_storedKey
    {file : FileRow} {key : String} (hkey : file.storedKey = some key) :
    file.storageKey = some key := by
  unfold FileRow.storedKey at hkey
  split at hkey
  · exact (Option.filter_eq_some_iff.mp hkey).1
  · cases hkey

def countFilesByStorageKey (files : List FileRow) (workspaceId : String)
    (storageBackend storageKey : Option String) : ℕ :=
  (files.filter fun file =>
    file.storageBackend = storageBackend ∧ file.storageKey = storageKey ∧
      file.workspaceId = workspaceId ∧ file.deletedAt = none).length

/-! ## Operations -/

inductive FileStatement
  | insertFile (file : FileRow)
  | deleteFile (fileId : String) (now : Time)
  | insertResource (resource : Resource)
  | deleteResource (resourceId : String) (now : Time)
deriving DecidableEq

/-- The primary key. -/
def FileStatement.execute (store : FileStore) : FileStatement → Option FileStore
  | .insertFile file =>
      if file.id ∈ store.files.map FileRow.id then none
      else some { store with files := store.files ++ [file] }
  | .deleteFile fileId now =>
      some { store with
        files := store.files.map fun file =>
          if file.id = fileId then { file with deletedAt := some now } else file }
  | .insertResource resource =>
      if resource.id ∈ store.resources.map ManagedResource.id then none
      else some { store with resources := store.resources ++ [resource] }
  | .deleteResource resourceId now =>
      some { store with
        resources := updateRow store.resources resourceId
          { deletedAt := some now, status := some .deleted } }

theorem objects_of_statement
    {store next : FileStore} {statement : FileStatement}
    (hstatement : statement.execute store = some next) :
    next.objects = store.objects := by
  cases statement <;> simp only [FileStatement.execute] at hstatement
  case insertFile file =>
    split at hstatement
    · cases hstatement
    · cases hstatement
      rfl
  case insertResource resource =>
    split at hstatement
    · cases hstatement
    · cases hstatement
      rfl
  case deleteFile fileId now =>
    cases hstatement
    rfl
  case deleteResource resourceId now =>
    cases hstatement
    rfl

theorem objects_of_statements
    {store next : FileStore} {statements : List FileStatement}
    (hstatements : statements.foldlM FileStatement.execute store = some next) :
    next.objects = store.objects := by
  induction statements generalizing store with
  | nil =>
      cases hstatements
      rfl
  | cons statement rest ih =>
      rw [List.foldlM_cons] at hstatements
      obtain ⟨middle, hmiddle, hrest⟩ := Option.bind_eq_some_iff.mp hstatements
      rw [ih hrest, objects_of_statement hmiddle]

/-- A live row was there before or is inserted. -/
theorem mem_files_of_statement
    {store next : FileStore} {statement : FileStatement} {file : FileRow}
    (hstatement : statement.execute store = some next) (hfile : file ∈ next.files)
    (hlive : file.deletedAt = none) :
    file ∈ store.files ∨ statement = .insertFile file := by
  cases statement <;> simp only [FileStatement.execute] at hstatement
  case insertFile inserted =>
    split at hstatement
    · cases hstatement
    · cases hstatement
      rcases List.mem_append.mp hfile with hfile | hfile
      · exact .inl hfile
      · exact .inr (by rw [List.mem_singleton.mp hfile])
  case insertResource resource =>
    split at hstatement
    · cases hstatement
    · cases hstatement
      exact .inl hfile
  case deleteFile fileId now =>
    cases hstatement
    obtain ⟨old, hold, rfl⟩ := List.mem_map.mp hfile
    split at hlive
    · cases hlive
    next hother =>
      rw [if_neg hother]
      exact .inl hold
  case deleteResource resourceId now =>
    cases hstatement
    exact .inl hfile

theorem mem_files_of_statements
    {store next : FileStore} {statements : List FileStatement} {file : FileRow}
    (hstatements : statements.foldlM FileStatement.execute store = some next)
    (hfile : file ∈ next.files) (hlive : file.deletedAt = none) :
    file ∈ store.files ∨ .insertFile file ∈ statements := by
  induction statements generalizing store with
  | nil =>
      cases hstatements
      exact .inl hfile
  | cons statement rest ih =>
      rw [List.foldlM_cons] at hstatements
      obtain ⟨middle, hmiddle, hrest⟩ := Option.bind_eq_some_iff.mp hstatements
      rcases ih hrest with hfile | hinserted
      · rcases mem_files_of_statement hmiddle hfile hlive with hold | rfl
        · exact .inl hold
        · exact .inr List.mem_cons_self
      · exact .inr (List.mem_cons_of_mem _ hinserted)

inductive FileOperation
  | findFile (workspaceId fileId : String)
  | findDuplicate (workspaceId : String) (sha256 : HexText)
  | countFiles (workspaceId : String) (storageBackend storageKey : Option String)
  | listSessionResources (workspaceId sessionId : String)
  | findSessionResource (workspaceId sessionId resourceId : String)
  | getFileInfo (key : String)
  | downloadFile (key : String)
  | put (key : String) (object : StoredObject)
  | copyFile (source destination : String) (contentType : Option String)
  | deleteStoredFile (key : String)
  | commit (statements : List FileStatement)

@[reducible] def FileOperation.Reply : FileOperation → Type
  | .findFile .. | .findDuplicate .. => Option FileRow
  | .countFiles .. => ℕ
  | .listSessionResources .. => List Resource
  | .findSessionResource .. => Option Resource
  | .getFileInfo _ | .downloadFile _ => Option StoredObject
  | .put .. | .deleteStoredFile _ => Unit
  | .copyFile .. | .commit _ => Bool

/-- `MetadataDirective="REPLACE"` if there is a content type. -/
def StoredObject.copied (object : StoredObject) (contentType : Option String) :
    StoredObject :=
  { object with contentType := contentType.or object.contentType }

def FileStore.write (store : FileStore) (key : String) (object : Option StoredObject) :
    FileStore :=
  { store with objects := Function.update store.objects key object }

@[simp] theorem write_objects
    (store : FileStore) (key : String) (object : Option StoredObject) :
    (store.write key object).objects = Function.update store.objects key object := rfl

/-- A copy without a source and a commit that breaks a constraint raise. -/
def FileStore.perform (operation : FileOperation) (store : FileStore) :
    FileStore × operation.Reply :=
  match operation with
  | .findFile workspaceId fileId => (store, getFile store.files workspaceId fileId)
  | .findDuplicate workspaceId sha256 =>
      (store, findDeduplicatedFile store.files workspaceId sha256)
  | .countFiles workspaceId storageBackend storageKey =>
      (store, countFilesByStorageKey store.files workspaceId storageBackend storageKey)
  | .listSessionResources workspaceId sessionId =>
      (store, listResources store.resources (sessionResourceQuery workspaceId sessionId)
        1000)
  | .findSessionResource workspaceId sessionId resourceId =>
      (store, getResource store.resources resourceId
        (sessionResourceQuery workspaceId sessionId))
  | .getFileInfo key | .downloadFile key => (store, store.objects key)
  | .put key object => (store.write key (some object), ())
  | .copyFile source destination contentType =>
      match store.objects source with
      | none => (store, false)
      | some object => (store.write destination (some (object.copied contentType)), true)
  | .deleteStoredFile key => (store.write key none, ())
  | .commit statements =>
      match statements.foldlM FileStatement.execute store with
      | none => (store, false)
      | some next => (next, true)

/-! ## Programs -/

inductive FileAnswer
  | created (file : FileRow)
  | deleted (id : String)
  | attached (resource : Resource)
  | opened (sessionId : String)
  | staged (key : String)

abbrev FileProgram := Program FileOperation.Reply (Except HTTPException FileAnswer)

def raise (error : HTTPException) : FileProgram := .done (.error error)

/-- Go on with the value of a check. -/
def attempt {Value : Type} (check : Except HTTPException Value)
    (next : Value → FileProgram) : FileProgram :=
  match check with
  | .error error => raise error
  | .ok value => next value

def commitAnd (statements : List FileStatement) (answer : FileAnswer) : FileProgram :=
  .call (.commit statements) fun (committed : Bool) =>
    .done (if committed then .ok answer else .error internalServerError)

structure ObjectStorageSettings where
  publicUrl : String

structure FileSettings where
  storage : Option ObjectStorageSettings
  maxFileUploadBytes : ℤ

structure FileSupply where
  uuidHex : ℕ → HexText
  clock : ℕ → Time

/-- The workspace of a request and what the request draws from outside. -/
structure FileContext where
  settings : FileSettings
  workspaceId : String
  supply : FileSupply

/-- `StorageConfigurationError`. -/
def storageNotConfigured : HTTPException :=
  ⟨500, "S3-compatible object storage requires S3_ACCESS_KEY_ID, S3_SECRET_ACCESS_KEY, S3_BUCKET_NAME, and S3_PUBLIC_URL"⟩

def publicUrlForKey (storage : ObjectStorageSettings) (key : String) : String :=
  String.ofList (storage.publicUrl.toList.rdropWhile (· = '/')) ++ "/" ++ key

def EICAR_TEST_SIGNATURE : List UInt8 := utf8 "EICAR-STANDARD-ANTIVIRUS-TEST-FILE"

def enforceSizeLimit (sizeBytes maxBytes : ℤ) : Except HTTPException Unit :=
  raiseIf (maxBytes > 0 ∧ sizeBytes > maxBytes)
    ⟨413, "File upload exceeds maximum size of " ++ toString maxBytes ++ " bytes"⟩

def validateUploadContent (label : String) (content : List UInt8) :
    Except HTTPException Unit :=
  raiseIf (content.tails.any fun suffix => EICAR_TEST_SIGNATURE.isPrefixOf suffix)
    ⟨422, label ++ " failed content scan"⟩

def scanUploadContent : List UInt8 → Except HTTPException Unit :=
  validateUploadContent "File upload"

/-! ## Uploads -/

def DEFAULT_CONTENT_TYPE : String := "application/octet-stream"

/-- `text or fallback` of an optional text. -/
def optionOr (text : Option String) (fallback : String) : String :=
  textOr (text.getD "") fallback

/-- The key, the address and the backend of an object. -/
structure Placement where
  storageBackend : Option String
  storageKey : Option String
  storageUrl : Option String

def FileRow.placement (file : FileRow) : Placement where
  storageBackend := file.storageBackend
  storageKey := file.storageKey
  storageUrl := file.storageUrl

def newPlacement (storage : ObjectStorageSettings) (key : String) : Placement where
  storageBackend := some "s3"
  storageKey := some key
  storageUrl := some (publicUrlForKey storage key)

@[simp] theorem newPlacement_storageKey (storage : ObjectStorageSettings) (key : String) :
    (newPlacement storage key).storageKey = some key := rfl

/-- `create_resource` of a file. -/
def createFile (context : FileContext) (name : Option String) (contentType : String)
    (data : Dict) (placement : Placement) (sizeBytes : Option ℤ)
    (sha256 : Option HexText) : FileRow where
  id := "file_" ++ (context.supply.uuidHex 0).text
  workspaceId := context.workspaceId
  name := name
  data := data
  contentType := some contentType
  filename := name
  storageBackend := placement.storageBackend
  storageKey := placement.storageKey
  storageUrl := placement.storageUrl
  sizeBytes := sizeBytes
  sha256 := sha256
  createdAt := context.supply.clock 1

section

variable (context : FileContext) (name : Option String) (contentType : String)
  (data : Dict) (placement : Placement) (sizeBytes : Option ℤ) (sha256 : Option HexText)

@[simp] theorem createFile_storageKey :
    (createFile context name contentType data placement sizeBytes sha256).storageKey =
      placement.storageKey := rfl

@[simp] theorem createFile_sizeBytes :
    (createFile context name contentType data placement sizeBytes sha256).sizeBytes =
      sizeBytes := rfl

@[simp] theorem createFile_sha256 :
    (createFile context name contentType data placement sizeBytes sha256).sha256 =
      sha256 := rfl

end

def insertFile (file : FileRow) : FileProgram :=
  commitAnd [.insertFile file] (.created file)

def uploadData (filename : Option String) (mimeType : String)
    (existing : Option FileRow) : Dict :=
  [("filename", optionalText filename), ("mime_type", .str mimeType)] ++
    (existing.map fun file => ("deduplicated_from_file_id", Json.str file.id)).toList

structure UploadFile where
  content : List UInt8
  filename : Option String := none
  contentType : Option String := none

/-- The key which `save_file_bytes` writes. -/
def uploadKey (context : FileContext) (filename : String) (sha256 : HexText) : String :=
  objectKey context.workspaceId
    { nameSpace := "oma", category := "files", filename := filename,
      contentSha256 := some sha256, now := context.supply.clock 0,
      uuidHex := context.supply.uuidHex 1 }

def uploadFile (context : FileContext) (file : UploadFile) : FileProgram :=
  attempt (enforceSizeLimit file.content.length context.settings.maxFileUploadBytes)
    fun _ =>
  attempt (scanUploadContent file.content) fun _ =>
  let mimeType := optionOr file.contentType DEFAULT_CONTENT_TYPE
  let sha256 := sha256Hex file.content
  .call (.findDuplicate context.workspaceId sha256) fun (existing : Option FileRow) =>
    match existing with
    | none =>
        match context.settings.storage with
        | none => raise storageNotConfigured
        | some storage =>
            let key := uploadKey context (optionOr file.filename "upload") sha256
            .call (.put key { content := file.content, contentType := some mimeType })
              fun _ =>
            insertFile <| createFile context file.filename mimeType
              (uploadData file.filename mimeType none) (newPlacement storage key)
              (some file.content.length) (some sha256)
    | some existing =>
        insertFile <| createFile context file.filename mimeType
          (uploadData file.filename mimeType (some existing)) existing.placement
          existing.sizeBytes (some (existing.sha256.getD sha256))

structure CompleteFileBody where
  key : String
  filename : Option String := none
  mimeType : Option String := none
  sizeBytes : Option ℤ := none
  sha256 : Option String := none

/-- `body.size_bytes or info.get("ContentLength")`. -/
def CompleteFileBody.claimedSize (body : CompleteFileBody) (info : StoredObject) : ℤ :=
  match body.sizeBytes with
  | some size => if size = 0 then info.content.length else size
  | none => info.content.length

/-- A digest in the body must be the one of the staged bytes. -/
def checkStagedSha256 (body : CompleteFileBody) (staged : List UInt8) :
    Except HTTPException Unit :=
  raiseIf (body.sha256.any fun given => given ≠ "" ∧ given ≠ (sha256Hex staged).text)
    ⟨422, "File upload sha256 does not match staged object"⟩

def CompleteFileBody.name (body : CompleteFileBody) : String :=
  optionOr body.filename ((splitSlashes body.key).getLastD "")

/-- The last steps: the staged object goes and the row is written. -/
def finishUpload (context : FileContext) (body : CompleteFileBody) (mimeType : String)
    (sizeBytes : ℤ) (sha256 : HexText) (existing : Option FileRow)
    (placement : Placement) : FileProgram :=
  .call (.deleteStoredFile body.key) fun _ =>
    insertFile <| createFile context (some body.name) mimeType
      (uploadData (some body.name) mimeType existing) placement (some sizeBytes)
      (some sha256)

def completeFileUpload (context : FileContext) (body : CompleteFileBody) : FileProgram :=
  match context.settings.storage with
  | none => raise storageNotConfigured
  | some storage =>
      attempt (validateStagedUploadKey context.workspaceId body.key) fun _ =>
      .call (.getFileInfo body.key) fun (info : Option StoredObject) =>
        match info with
        | none => raise internalServerError
        | some info =>
            let mimeType :=
              optionOr body.mimeType (optionOr info.contentType DEFAULT_CONTENT_TYPE)
            let sizeBytes := body.claimedSize info
            attempt (enforceSizeLimit sizeBytes context.settings.maxFileUploadBytes)
              fun _ =>
            .call (.downloadFile body.key) fun (staged : Option StoredObject) =>
              match staged with
              | none => raise internalServerError
              | some staged =>
                  attempt (scanUploadContent staged.content) fun _ =>
                  attempt (checkStagedSha256 body staged.content) fun _ =>
                  -- the digest of the body is this one or empty
                  let sha256 := sha256Hex staged.content
                  .call (.findDuplicate context.workspaceId sha256)
                    fun (existing : Option FileRow) =>
                    match existing with
                    | none =>
                        let key := uploadKey context body.name sha256
                        .call (.copyFile body.key key (some mimeType))
                            fun (copied : Bool) =>
                          if copied then
                            finishUpload context body mimeType sizeBytes sha256 none
                              (newPlacement storage key)
                          else raise internalServerError
                    | some existing =>
                        finishUpload context body mimeType sizeBytes sha256
                          (some existing) existing.placement

/-- The client puts its bytes under a presigned key. -/
def stageFile (context : FileContext) (body : PresignFileBody) (content : List UInt8) :
    FileProgram :=
  let key := presignedKey context.workspaceId (context.supply.clock 0)
    (context.supply.uuidHex 0) body
  .call (.put key { content := content, contentType := some body.mimeType }) fun _ =>
    .done (.ok (.staged key))

/-! ## Deletion -/

/-- The object goes before the commit if the row is its last reference. -/
def freeObject (context : FileContext) (workspaceId : String) (file : FileRow)
    (statements : List FileStatement) (answer : FileAnswer) : FileProgram :=
  match file.storedKey with
  | none => commitAnd statements answer
  | some key =>
      .call (.countFiles workspaceId file.storageBackend file.storageKey)
        fun (activeReferences : ℕ) =>
      if activeReferences ≤ 1 then
        match context.settings.storage with
        | none => raise internalServerError
        | some _ =>
            .call (.deleteStoredFile key) fun _ => commitAnd statements answer
      else commitAnd statements answer

def deleteFile (context : FileContext) (fileId : String) : FileProgram :=
  .call (.findFile context.workspaceId fileId) fun (found : Option FileRow) =>
    match found with
    | none => raise ⟨404, "File not found"⟩
    | some file =>
        freeObject context context.workspaceId file
          [.deleteFile file.id (context.supply.clock 0)] (.deleted file.id)

end ManagedAgents
