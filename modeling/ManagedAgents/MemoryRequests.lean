import ManagedAgents.Memories

/-!
# Requests to memory stores

The endpoints under `/v1/memory_stores`.  An endpoint sees the rows as its
queries find them, `view 0` for the first query, `view 1` for the second, and
returns what it writes or the error it answers with.
-/

namespace ManagedAgents

open Fallible

/-- The rows which the queries of a request see. -/
abbrev View := ℕ → List Resource

def memoryQuery (workspaceId storeId : String) : ResourceQuery where
  resourceType := .memory
  workspaceId := workspaceId
  parentId := some storeId

/-! ## Checks -/

def mustWriteMemoryStore (rows : List Resource) (workspaceId storeId : String) :
    Except HTTPException Resource := do
  let store ← mustExist rows workspaceId storeId .memoryStore none
  raiseIf (store.archivedAt ≠ none) ⟨409, "Memory store is archived"⟩
  return store

def ensureMemoryStoreCapacity (rows : List Resource) (workspaceId storeId : String) :
    Except HTTPException Unit :=
  let memories :=
    listResources rows (memoryQuery workspaceId storeId) (MAX_MEMORIES_PER_STORE + 1)
  if memories.length ≥ MAX_MEMORIES_PER_STORE then
    .error ⟨409, "Memory store has reached the 2000 memory limit"⟩
  else .ok ()

def findMemoryByPath (rows : List Resource) (workspaceId storeId key : String) :
    Except HTTPException (Option Resource) :=
  getResourceByName rows (memoryQuery workspaceId storeId) key

def pathExists : HTTPException :=
  ⟨409, "Memory path already exists in this memory store"⟩

/-- `data["path_key"]`, a text in every dictionary the program stores. -/
def memoryPathKey (data : Dict) : Except HTTPException String :=
  match Dict.get data "path_key" with
  | .str key => .ok key
  | _ => .error internalServerError

/-! ## Memories -/

/-- The insert of a memory with its first version, and the write of the pointer. -/
def insertMemory (py : Interpreter) (supply : Supply) (workspaceId storeId key : String)
    (data : Dict) : Outcome :=
  let memory := createResource supply 0 1 workspaceId .memory (some storeId) none
    (some key) data
  let version := createMemoryVersion supply 1 2 workspaceId memory 1
    (py.str (Dict.get data "updated_by")) "created" none
  -- the row holds this very dictionary, so the session sees no change
  let pointed := Dict.set data "memory_version_id" (.str version.id)
  let (shown, pointer) :=
    updateResource { memory with data := pointed } pointed (some key)
  { statements := [.insert memory, .insert version, pointer], shown := shown }

def createMemory (py : Interpreter) (supply : Supply) (workspaceId storeId : String)
    (body : MemoryCreateRequest) (viewName : Option String) (view : View) :
    Except HTTPException Outcome := do
  let _ ← normalizeMemoryView viewName
  let _ ← mustWriteMemoryStore (view 0) workspaceId storeId
  ensureMemoryStoreCapacity (view 1) workspaceId storeId
  let data ← memoryPayload py (supply.clock 0) body.modelDump
  let key ← memoryPathKey data
  let existing ← findMemoryByPath (view 2) workspaceId storeId key
  raiseIf (existing ≠ none) pathExists
  return insertMemory py supply workspaceId storeId key data

/-- A given digest differs from the stored one. -/
def contentPreconditionStale (precondition : Json) (data : Dict) : Bool :=
  precondition.get "type" = .str "content_sha256" &&
    (precondition.get "content_sha256").truthy &&
    !Json.equal (precondition.get "content_sha256") (Dict.get data "content_sha256")

/-- The body without its preconditions. -/
def memoryUpdate (body : MemoryUpdateRequest) : Dict :=
  Dict.pop (Dict.pop (Dict.pop body.modelDump "expected_version") "if_version")
    "precondition"

/-- `update.pop("if_version", update.pop("expected_version", None))`. -/
def expectedMemoryVersion (body : MemoryUpdateRequest) : Json :=
  if Dict.contains body.modelDump "if_version" then Dict.get body.modelDump "if_version"
  else Dict.get body.modelDump "expected_version"

/-- `int(data.get("version") or 1)`. -/
def storedMemoryVersion (py : Interpreter) (data : Dict) : Except HTTPException ℤ :=
  py.toInt ((Dict.get data "version").or (.int 1))

def checkMemoryVersion (py : Interpreter) (expected : Json) (data : Dict) :
    Except HTTPException Unit := do
  let current ← storedMemoryVersion py data
  let stale ← if expected = .null then pure false else do
    let version ← py.toInt expected
    pure (decide (version ≠ current))
  raiseIf stale ⟨409, "Memory version precondition failed"⟩

/-- A changed path must be free. -/
def checkMemoryPath (rows : List Resource) (workspaceId storeId memoryId : String)
    (existing merged : Dict) : Except HTTPException Unit :=
  if Json.equal (Dict.get merged "path_key") (Dict.get existing "path_key") then .ok ()
  else do
    let key ← memoryPathKey merged
    let found ← findMemoryByPath rows workspaceId storeId key
    raiseIf (found.any fun other => other.id ≠ memoryId) pathExists

/-- The two writes of `update_memory` around the insert of the version. -/
def writeMemory (py : Interpreter) (supply : Supply) (workspaceId : String)
    (memory : Resource) (data : Dict) : Except HTTPException Outcome := do
  let key ← memoryPathKey data
  let (memory, changed) := updateResource memory data (some key)
  let version ← py.toInt (Dict.get data "version")
  let versionRow := createMemoryVersion supply 0 1 workspaceId memory version
    (py.str (Dict.get data "updated_by")) "modified" none
  -- the row holds this very dictionary, so the session sees no change
  let pointed := Dict.set data "memory_version_id" (.str versionRow.id)
  let (shown, pointer) :=
    updateResource { memory with data := pointed } pointed (some key)
  return { statements := [changed, .insert versionRow, pointer], shown := shown }

/-- A stale digest is let pass when the update asks for nothing new. -/
def answerStaleContent (py : Interpreter) (memory : Resource) (update : Dict) :
    Except HTTPException Outcome := do
  let inEffect ← memoryRequestedStateMatchesCurrent py memory.data update
  raiseIf (!inEffect) ⟨409, "Memory content precondition failed"⟩
  return { shown := memory }

def updateMemory (py : Interpreter) (supply : Supply)
    (workspaceId storeId memoryId : String) (body : MemoryUpdateRequest)
    (viewName : Option String) (view : View) : Except HTTPException Outcome := do
  let _ ← normalizeMemoryView viewName
  let memory ← mustExist (view 0) workspaceId memoryId .memory (some storeId)
  checkMemoryVersion py (expectedMemoryVersion body) memory.data
  if contentPreconditionStale (Dict.get body.modelDump "precondition") memory.data then
    answerStaleContent py memory (memoryUpdate body)
  else
    let data ← mergeMemoryData py (supply.clock 0) memory.data (memoryUpdate body)
    if memoryHasMaterialChange memory.data data then
      checkMemoryPath (view 1) workspaceId storeId memory.id memory.data data
      writeMemory py supply workspaceId memory data
    else return { shown := memory }

/-- The dictionary of a memory that is being deleted. -/
def deletedMemoryData (py : Interpreter) (now : Time) (data : Dict) :
    Except HTTPException Dict := do
  let version ← storedMemoryVersion py data
  let actor := py.str ((Dict.get data "updated_by").or (.str "api"))
  let data := Dict.set data "version" (.int (version + 1))
  let data := Dict.set data "updated_by" (.str actor)
  return Dict.set data "updated_at" (.str (py.isoformat now))

/-- The writes of `delete_memory`: here the row gets a new dictionary. -/
def removeMemory (py : Interpreter) (supply : Supply) (workspaceId : String)
    (memory : Resource) (data : Dict) : Except HTTPException Outcome := do
  let version ← py.toInt (Dict.get data "version")
  let versionRow := createMemoryVersion supply 0 1 workspaceId memory version
    (py.str (Dict.get data "updated_by")) "deleted" (some data)
  let pointed := Dict.set data "memory_version_id" (.str versionRow.id)
  let (memory, changed) := updateResource memory pointed none
  let (shown, deleted) := deleteResource memory (supply.clock 2)
  return { statements := [.insert versionRow, changed, deleted], shown := shown }

def deleteMemory (py : Interpreter) (supply : Supply)
    (workspaceId storeId memoryId : String) (expectedContentSha256 : Option String)
    (view : View) : Except HTTPException Outcome := do
  let _ ← mustWriteMemoryStore (view 0) workspaceId storeId
  let memory ← mustExist (view 1) workspaceId memoryId .memory (some storeId)
  raiseIf
    (expectedContentSha256.any fun expected =>
      !Json.equal (.str expected) (Dict.get memory.data "content_sha256"))
    ⟨409, "Memory content precondition failed"⟩
  let data ← deletedMemoryData py (supply.clock 0) memory.data
  removeMemory py supply workspaceId memory data

/-! ## Redaction -/

/-- The version row and the memory it belongs to. -/
def findMemoryVersion (view : View) (query : ℕ) (workspaceId storeId versionId : String) :
    Except HTTPException (Resource × Resource) :=
  match getResource (view query) versionId
      { resourceType := .memoryVersion, workspaceId := workspaceId } with
  | none => .error ⟨404, "Memory version not found"⟩
  | some version =>
      match getResource (view (query + 1)) (version.parentId.getD "")
          { memoryQuery workspaceId storeId with includeDeleted := true } with
      | none => .error ⟨404, "Memory version not found"⟩
      | some memory => .ok (version, memory)

def redactedVersionData (py : Interpreter) (now : Time) (data : Dict) :
    Except HTTPException Dict := do
  let snapshot ← toDict (Dict.get data "snapshot")
  let snapshot := Dict.set (Dict.pop snapshot "content") "redacted" (.bool true)
  let data := Dict.set data "snapshot" (.dict snapshot)
  let data := Dict.set data "redacted" (.bool true)
  return Dict.set data "redacted_at" (.str (py.isoformat now))

/-- The version is the current one of a live memory. -/
def isLiveMemoryVersion (py : Interpreter) (memory version : Resource) :
    Except HTTPException Bool := do
  if memory.deletedAt ≠ none then return false
  else if Json.equal (Dict.get memory.data "memory_version_id") (.str version.id) then
    return true
  else
    let current ← py.toInt ((Dict.get memory.data "version").or (.int 0))
    let number ← py.toInt
      (((optionalInt version.version).or (Dict.get version.data "memory_version")).or
        (.int 0))
    return current = number

/-- The writes of `redact_memory_version`. -/
def redactRows (version memory : Resource) (data : Dict) : Outcome :=
  let (shown, redacted) := updateResource version data none
  if memory.deletedAt = none ∧
      Json.equal (Dict.get memory.data "version") (Dict.get data "memory_version") then
    let memoryData := Dict.pop memory.data "content"
    let memoryData := Dict.set memoryData "redacted" (.bool true)
    let memoryData := Dict.set memoryData "redacted_at" (Dict.get data "redacted_at")
    { statements := [redacted, (updateResource memory memoryData none).2],
      shown := shown }
  else { statements := [redacted], shown := shown }

def redactMemoryVersion (py : Interpreter) (supply : Supply)
    (workspaceId storeId versionId : String) (view : View) :
    Except HTTPException Outcome := do
  let _ ← mustExist (view 0) workspaceId storeId .memoryStore none
  let (version, memory) ← findMemoryVersion view 1 workspaceId storeId versionId
  let live ← isLiveMemoryVersion py memory version
  raiseIf live ⟨409, "Current live memory version cannot be redacted"⟩
  let data ← redactedVersionData py (supply.clock 0) version.data
  return redactRows version memory data

/-! ## Memory stores -/

/-- `_create_top_level`. -/
def createMemoryStore (py : Interpreter) (supply : Supply) (workspaceId : String)
    (body : MemoryStoreCreateRequest) : Except HTTPException Outcome := do
  let data ← normalizeMemoryStoreData py body.modelDump
  let name ← nameOr (resourceName data) none
  let store := createResource supply 0 0 workspaceId .memoryStore none none name data
  return { statements := [.insert store], shown := store }

/-- `_update`. -/
def updateMemoryStore (py : Interpreter) (workspaceId storeId : String)
    (body : MemoryStoreUpdateRequest) (view : View) : Except HTTPException Outcome := do
  let store ← mustExist (view 0) workspaceId storeId .memoryStore none
  let merged ← mergeData store.data body.modelDump
  let data ← normalizeMemoryStoreData py merged
  let name ← nameOr (resourceName data) store.name
  let (shown, changed) := updateResource store data name
  return { statements := [changed], shown := shown }

/-- `_archive`. -/
def archiveMemoryStore (supply : Supply) (workspaceId storeId : String) (view : View) :
    Except HTTPException Outcome := do
  let store ← mustExist (view 0) workspaceId storeId .memoryStore none
  let (shown, archived) := archiveResource store (supply.clock 0)
  return { statements := [archived], shown := shown }

/-- `_delete`. -/
def deleteMemoryStore (supply : Supply) (workspaceId storeId : String) (view : View) :
    Except HTTPException Outcome := do
  let store ← mustExist (view 0) workspaceId storeId .memoryStore none
  let (shown, deleted) := deleteResource store (supply.clock 0)
  return { statements := [deleted], shown := shown }

end ManagedAgents
