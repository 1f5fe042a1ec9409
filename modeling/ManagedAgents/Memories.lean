import ManagedAgents.Library.Sha256
import ManagedAgents.MemoryPaths
import ManagedAgents.Metadata
import ManagedAgents.ResourceWrites
import ManagedAgents.Runtime.Errors

/-!
# Memories

The data of a memory, its versions and its store: what the bodies of the
requests may hold, how a body becomes the stored dictionary and how an update
is merged into the one before.
-/

namespace ManagedAgents

def MAX_MEMORIES_PER_STORE : ℕ := 2000
def MAX_MEMORY_CONTENT_BYTES : ℕ := 100 * 1024
def MEMORY_VIEWS : List String := ["basic", "full"]
def MAX_DISPLAY_NAME_CHARS : ℕ := 255
def MAX_MEMORY_STORE_DESCRIPTION_CHARS : ℕ := 1024

def normalizeMemoryView : Option String → Except HTTPException (Option String)
  | none => .ok none
  | some view =>
      let normalized := String.ofList (lower view)
      if normalized ∈ MEMORY_VIEWS then .ok (some normalized)
      else .error ⟨422, "view must be basic or full"⟩

/-- `int(value)`; the exceptions it raises are not caught. -/
def Interpreter.toInt (py : Interpreter) (value : Json) : Except HTTPException ℤ :=
  match py.int value with
  | .ok parsed => .ok parsed
  | .error _ => .error internalServerError

/-! ## Request bodies -/

/-- `model_dump(exclude_unset=True)`: the declared fields which were set, in
the order of the model, and then the extra ones. -/
def modelDump (declared : List (String × Option Json)) (extra : Dict) : Dict :=
  (declared.filterMap fun field => field.2.map fun value => (field.1, value)) ++ extra

def optionalText : Option String → Json
  | none => .null
  | some text => .str text

def optionalInt : Option ℤ → Json
  | none => .null
  | some value => .int value

/-- `str | list[str]`. -/
inductive PathValue
  | text (value : String)
  | segments (values : List String)
deriving DecidableEq, Repr

def PathValue.toJson : PathValue → Json
  | .text value => .str value
  | .segments values => .list (values.map .str)

structure MemoryCreateRequest where
  path : PathValue
  content : Option String
  metadata : Option Dict := none
  actor : Option (Option String) := none
  sessionId : Option (Option String) := none
  extra : Dict := []
  undeclared : ∀ field ∈ extra,
    field.1 ∉ ["path", "content", "metadata", "actor", "session_id"] := by decide
  distinct : (extra.map Prod.fst).Nodup := by decide

def MemoryCreateRequest.modelDump (body : MemoryCreateRequest) : Dict :=
  ManagedAgents.modelDump
    [("path", some body.path.toJson),
     ("content", some (optionalText body.content)),
     ("metadata", body.metadata.map .dict),
     ("actor", body.actor.map optionalText),
     ("session_id", body.sessionId.map optionalText)]
    body.extra

/-- Its `type` is always `content_sha256`. -/
structure MemoryPrecondition where
  contentSha256 : Option (Option String) := none
  extra : Dict := []
  undeclared : ∀ field ∈ extra, field.1 ∉ ["type", "content_sha256"] := by decide
  distinct : (extra.map Prod.fst).Nodup := by decide

theorem MemoryPrecondition.undeclared_nil :
    ∀ field ∈ ([] : Dict), field.1 ∉ ["type", "content_sha256"] :=
  List.forall_mem_nil _

def MemoryPrecondition.toJson (precondition : MemoryPrecondition) : Json :=
  .dict <| modelDump
    [("type", some (.str "content_sha256")),
     ("content_sha256", precondition.contentSha256.map optionalText)]
    precondition.extra

structure MemoryUpdateRequest where
  path : Option (Option PathValue) := none
  content : Option (Option String) := none
  precondition : Option (Option MemoryPrecondition) := none
  ifVersion : Option (Option ℤ) := none
  expectedVersion : Option (Option ℤ) := none
  actor : Option (Option String) := none
  updatedBy : Option (Option String) := none
  sessionId : Option (Option String) := none
  metadata : Option (Option Dict) := none
  extra : Dict := []
  undeclared : ∀ field ∈ extra,
    field.1 ∉ ["path", "content", "precondition", "if_version", "expected_version",
      "actor", "updated_by", "session_id", "metadata"] := by decide
  distinct : (extra.map Prod.fst).Nodup := by decide

theorem MemoryUpdateRequest.undeclared_nil :
    ∀ field ∈ ([] : Dict),
      field.1 ∉ ["path", "content", "precondition", "if_version", "expected_version",
        "actor", "updated_by", "session_id", "metadata"] :=
  List.forall_mem_nil _

def MemoryUpdateRequest.modelDump (body : MemoryUpdateRequest) : Dict :=
  ManagedAgents.modelDump
    [("path", body.path.map fun path => (path.map PathValue.toJson).getD .null),
     ("content", body.content.map optionalText),
     ("precondition", body.precondition.map fun precondition =>
        (precondition.map MemoryPrecondition.toJson).getD .null),
     ("if_version", body.ifVersion.map optionalInt),
     ("expected_version", body.expectedVersion.map optionalInt),
     ("actor", body.actor.map optionalText),
     ("updated_by", body.updatedBy.map optionalText),
     ("session_id", body.sessionId.map optionalText),
     ("metadata", body.metadata.map fun metadata => (metadata.map Json.dict).getD .null)]
    body.extra

/-! ## Content -/

def contentMetadata (content : String) : Dict :=
  [("content_sha256", .str (Sha256.hexdigest (utf8 content))),
   ("content_size_bytes", .int (utf8 content).length)]

def enforceMemoryContentLimit (content : String) : Except HTTPException Unit :=
  if (utf8 content).length > MAX_MEMORY_CONTENT_BYTES then
    .error ⟨413, "Memory content exceeds maximum size of 102400 bytes"⟩
  else .ok ()

/-- `"" if value is None else str(value)`. -/
def contentText (py : Interpreter) (value : Json) : String :=
  if value = .null then "" else py.str value

/-! ## The stored dictionary -/

def memoryPayload (py : Interpreter) (now : Time) (data : Dict) :
    Except HTTPException Dict := do
  let path ← normalizeMemoryPath py (Dict.get data "path")
  let actor := py.str
    (((Dict.get data "actor").or (Dict.get data "updated_by")).or (.str "api"))
  let content := contentText py (Dict.get data "content")
  enforceMemoryContentLimit content
  let memory := Dict.set data "path" (.str path)
  let memory := Dict.set memory "path_key" (.str (pathKey path))
  let memory := Dict.set memory "content" (.str content)
  let memory := Dict.update memory (contentMetadata content)
  let memory := Dict.set memory "version" (.int 1)
  let memory := Dict.set memory "created_by" (.str actor)
  let memory := Dict.set memory "updated_by" (.str actor)
  let memory := Dict.set memory "created_at" (.str (py.isoformat now))
  let memory := Dict.set memory "updated_at" (.str (py.isoformat now))
  let memory := Dict.setdefault memory "metadata" (.dict [])
  let memory := Dict.setdefault memory "redacted" (.bool false)
  return Dict.pop memory "actor"

/-- The keys which the loop over an update passes over. -/
def KEPT_MEMORY_KEYS : List String :=
  ["path_key", "version", "created_at", "created_by", "memory_version_id"]

/-- One round of the loop over the update. -/
def mergeMemoryField (merged : Dict) (field : String × Json) : Dict :=
  if field.1 ∈ KEPT_MEMORY_KEYS then merged
  else if field.2 = .str "" then Dict.pop merged field.1
  else Dict.set merged field.1 field.2

/-- `update.pop("actor", update.pop("updated_by", merged.get("updated_by", "api")))`. -/
def updateActor (existing update : Dict) : Json :=
  if Dict.contains update "actor" then Dict.get update "actor"
  else if Dict.contains update "updated_by" then Dict.get update "updated_by"
  else if Dict.contains existing "updated_by" then Dict.get existing "updated_by"
  else .str "api"

def mergeMemoryPath (py : Interpreter) (existing update : Dict) :
    Except HTTPException Dict := do
  if Dict.contains update "path" then
    let path ← normalizeMemoryPath py (Dict.get update "path")
    return Dict.set (Dict.set existing "path" (.str path)) "path_key"
      (.str (pathKey path))
  else return existing

def mergeMemoryContent (py : Interpreter) (merged update : Dict) :
    Except HTTPException Dict := do
  if Dict.contains update "content" then
    let content := contentText py (Dict.get merged "content")
    enforceMemoryContentLimit content
    return Dict.update (Dict.set merged "content" (.str content))
      (contentMetadata content)
  else return merged

def mergeMemoryData (py : Interpreter) (now : Time) (existing update : Dict) :
    Except HTTPException Dict := do
  let actor := py.str (updateActor existing update)
  let update := Dict.pop (Dict.pop update "updated_by") "actor"
  let merged ← mergeMemoryPath py existing update
  let merged ← mergeMemoryContent py (update.foldl mergeMemoryField merged) update
  let version ← py.toInt ((Dict.get merged "version").or (.int 1))
  let merged := Dict.set merged "version" (.int (version + 1))
  let merged := Dict.set merged "updated_by" (.str actor)
  let merged := Dict.set merged "updated_at" (.str (py.isoformat now))
  return Dict.setdefault merged "metadata" (.dict [])

def memoryRequestedStateMatchesCurrent (py : Interpreter) (current update : Dict) :
    Except HTTPException Bool := do
  let requestedPath ←
    if Dict.contains update "path" then do
      let path ← normalizeMemoryPath py (Dict.get update "path")
      pure (Json.str path)
    else pure (Dict.get current "path")
  let currentContent := contentText py (Dict.get current "content")
  let requestedContent :=
    if Dict.contains update "content" then contentText py (Dict.get update "content")
    else currentContent
  let currentPath ← normalizeMemoryPath py (Dict.get current "path")
  return Json.equal requestedPath (.str currentPath) && requestedContent = currentContent

def IGNORED_MEMORY_KEYS : List String :=
  ["content_sha256", "content_size_bytes", "created_at", "created_by",
   "memory_version_id", "session_id", "updated_at", "updated_by", "version"]

def memoryMaterial (data : Dict) : Dict :=
  data.filter fun field => field.1 ∉ IGNORED_MEMORY_KEYS

def memoryHasMaterialChange (existing merged : Dict) : Bool :=
  !Dict.equal (memoryMaterial existing) (memoryMaterial merged)

/-! ## Versions -/

def memorySnapshot (data : Dict) : Dict :=
  data.filter fun field => field.1 ∉ ["path_key"]

def apiActor (apiKeyId : String) : Json :=
  .dict [("type", .str "api_actor"), ("api_key_id", .str apiKeyId)]

/-- The dictionary which `_create_memory_version` stores. -/
def memoryVersionData (memory : Resource) (version : ℤ) (actor operation : String)
    (versionData : Dict) : Dict :=
  let snapshot := memorySnapshot versionData
  [("memory_store_id", optionalText memory.parentId),
   ("memory_id", .str memory.id),
   ("memory_version", .int version),
   ("path", Dict.get versionData "path"),
   ("path_key", Dict.get versionData "path_key"),
   ("content", Dict.get snapshot "content"),
   ("content_sha256", Dict.get snapshot "content_sha256"),
   ("content_size_bytes", Dict.get snapshot "content_size_bytes"),
   ("snapshot", .dict snapshot),
   ("actor", .str actor),
   ("created_by", apiActor actor),
   ("session_id", Dict.get versionData "session_id"),
   ("operation", .str operation),
   ("redacted", .bool false)]

/-- `data or memory.data`. -/
def createMemoryVersion (supply : Supply) (draw reading : ℕ) (workspaceId : String)
    (memory : Resource) (version : ℤ) (actor operation : String)
    (data : Option Dict) : Resource :=
  let versionData := ((data.filter (· ≠ [])).getD memory.data)
  createResource supply draw reading workspaceId .memoryVersion (some memory.id)
    (some version) none (memoryVersionData memory version actor operation versionData)

/-! ## Memory stores -/

structure MemoryStoreCreateRequest where
  name : String
  description : Option String := none
  metadata : Dict := []
  extra : Dict := []
  undeclared : ∀ field ∈ extra,
    field.1 ∉ ["name", "description", "metadata"] := by decide
  distinct : (extra.map Prod.fst).Nodup := by decide

def MemoryStoreCreateRequest.modelDump (body : MemoryStoreCreateRequest) : Dict :=
  ManagedAgents.modelDump
    [("name", some (.str body.name)),
     ("description", some (optionalText body.description)),
     ("metadata", some (.dict body.metadata))]
    body.extra

structure MemoryStoreUpdateRequest where
  name : Option (Option String) := none
  description : Option (Option String) := none
  metadata : Option (Option Dict) := none
  extra : Dict := []
  undeclared : ∀ field ∈ extra,
    field.1 ∉ ["name", "description", "metadata"] := by decide
  distinct : (extra.map Prod.fst).Nodup := by decide

def MemoryStoreUpdateRequest.modelDump (body : MemoryStoreUpdateRequest) : Dict :=
  ManagedAgents.modelDump
    [("name", body.name.map optionalText),
     ("description", body.description.map optionalText),
     ("metadata", body.metadata.map fun metadata => (metadata.map Json.dict).getD .null)]
    body.extra

def memoryStoreName (py : Interpreter) : Json → Except HTTPException String
  | .null => .error ⟨422, "memory_store name is required"⟩
  | .str value =>
      if value = "" then
        .error ⟨422, "memory_store name must not be empty"⟩
      else if value.length > MAX_DISPLAY_NAME_CHARS then
        .error ⟨422, "memory_store name must be at most 255 characters"⟩
      else if value.toList.any fun char => py.category char = "Cc" then
        .error ⟨422, "memory_store name must not contain control characters"⟩
      else .ok value
  | _ => .error ⟨422, "memory_store name must be a string"⟩

def memoryStoreDescription : Json → Except HTTPException String
  | .null => .ok ""
  | .str value =>
      if value.length > MAX_MEMORY_STORE_DESCRIPTION_CHARS then
        .error ⟨422, "memory_store description must be at most 1024 characters"⟩
      else .ok value
  | _ => .error ⟨422, "memory_store description must be a string"⟩

def normalizeMemoryStoreData (py : Interpreter) (data : Dict) :
    Except HTTPException Dict := do
  let name ← memoryStoreName py (Dict.get data "name")
  let normalized := Dict.set data "name" (.str name)
  let normalized := Dict.setdefault normalized "description" (.str "")
  let description ← memoryStoreDescription (Dict.get normalized "description")
  let normalized := Dict.set normalized "description" (.str description)
  let metadata ← normalizeMetadata (Dict.get normalized "metadata")
  return Dict.set normalized "metadata" (.dict metadata)

/-- `_merge_data`. -/
def mergeData : Dict → Dict → Except HTTPException Dict
  | merged, [] => .ok merged
  | merged, (key, value) :: rest => do
      let merged ←
        if key = "metadata" then do
          let metadata ← mergeMetadata ((Dict.get merged "metadata").or (.dict [])) value
          pure (Dict.set merged "metadata" (.dict metadata))
        else if value = .null ∨ value = .str "" then pure (Dict.pop merged key)
        else pure (Dict.set merged key value)
      mergeData merged rest

end ManagedAgents
