import ManagedAgents.Credentials
import ManagedAgents.MemoryReads

/-!
# Responses

The JSON object which an endpoint answers with for a row.  It starts as a copy
of the stored dictionary, to which columns of the row are added; for memories
and their versions some keys are then set once more.
-/

namespace ManagedAgents

open Fallible

/-! ## Any resource -/

def SECRET_KEY_PARTS : List String :=
  ["secret", "token", "api_key", "apikey", "password", "private_key", "client_secret"]

def looksSecretKey (key : String) : Bool :=
  SECRET_KEY_PARTS.any fun part => occursIn part.toList (normalizedKey key)

mutual

def redactSecretValues : Json → Json
  | .dict fields => .dict (redactSecretFields fields)
  | .list items => .list (redactSecretItems items)
  | value => value

def redactSecretItems : List Json → List Json
  | [] => []
  | item :: rest => redactSecretValues item :: redactSecretItems rest

def redactSecretFields : List (String × Json) → List (String × Json)
  | [] => []
  | (key, child) :: rest =>
      (key, if looksSecretKey key then .str "redacted" else redactSecretValues child) ::
        redactSecretFields rest

end

/-- User profiles are kept in another table. -/
def redactedResourceData (resource : Resource) : Dict :=
  if resource.resourceType = .credential ∨ resource.resourceType = .vault then
    redactSecretFields resource.data
  else resource.data

/-- The columns of a row which only responses show; those of files are empty in
the rows of memories and versions. -/
structure ShownColumns where
  updatedAt : Time
  filename : Option String := none
  contentType : Option String := none
  sizeBytes : Option ℤ := none
  content : Option (List UInt8) := none
  sha256 : Option String := none
  storageBackend : Option String := none
  storageKey : Option String := none
  storageUrl : Option String := none

def ResourceStatus.name : ResourceStatus → String
  | .active => "active"
  | .archived => "archived"
  | .deleted => "deleted"

def shownTime (py : Interpreter) : Option Time → Json
  | none => .null
  | some time => .str (py.isoformat time)

/-- `setdefault` of a column unless it is empty. -/
def Dict.setdefaultSome (fields : Dict) (key : String) : Option Json → Dict
  | none => fields
  | some value => Dict.setdefault fields key value

def shownSize (columns : ShownColumns) : Option ℤ :=
  columns.sizeBytes.or (columns.content.map fun content => (content.length : ℤ))

def resourceToResponse (py : Interpreter) (columns : ShownColumns) (resource : Resource)
    (publicType : Option String) : Dict :=
  let data := redactedResourceData resource
  let data := Dict.set data "id" (.str resource.id)
  let data := Dict.set data "type" (.str (publicType.getD resource.resourceType.name))
  let data := Dict.set data "created_at" (.str (py.isoformat resource.createdAt))
  let data := Dict.set data "updated_at" (.str (py.isoformat columns.updatedAt))
  let data := Dict.set data "archived_at" (shownTime py resource.archivedAt)
  let data := data.setdefaultSome "version" (resource.version.map .int)
  let data := data.setdefaultSome "name" (resource.name.map .str)
  let data := Dict.setdefault data "status" (.str resource.status.name)
  let data :=
    match resource.deletedAt with
    | none => data
    | some deletedAt => Dict.set data "deleted_at" (.str (py.isoformat deletedAt))
  let data := data.setdefaultSome "filename" (columns.filename.map .str)
  let data := data.setdefaultSome "mime_type" (columns.contentType.map .str)
  let data := data.setdefaultSome "size_bytes" ((shownSize columns).map .int)
  let data := data.setdefaultSome "sha256" (columns.sha256.map .str)
  data.setdefaultSome "storage" <| columns.storageBackend.map fun backend =>
    .dict
      [("backend", .str backend),
       ("key", optionalText columns.storageKey),
       ("url", optionalText columns.storageUrl)]

/-! ## Memories -/

/-- The digest and the size of the content that is shown. -/
def memoryDigests (py : Interpreter) (response : Dict) : Dict :=
  let content := Dict.get response "content"
  let shown :=
    if content = .null ∧ !(Dict.get response "redacted").truthy then .str ""
    else content
  let response :=
    if shown = .null then response
    else Dict.update response (contentMetadata (py.str shown))
  let response := Dict.setdefault response "content_sha256"
    (Dict.get (contentMetadata "") "content_sha256")
  Dict.setdefault response "content_size_bytes" (.int 0)

def memoryResponse (py : Interpreter) (columns : ShownColumns) (viewName : Option String)
    (resource : Resource) : Except HTTPException Dict := do
  let view ← normalizeMemoryView viewName
  let response := resourceToResponse py columns resource (some "memory")
  let response := Dict.set response "memory_store_id" (optionalText resource.parentId)
  let path ← normalizeMemoryPath py (Dict.get response "path")
  let response := Dict.set response "path" (.str path)
  let response := memoryDigests py (Dict.set response "path_key" (.str (pathKey path)))
  let response := Dict.set response "memory_version_id"
    (.str (py.str ((Dict.get response "memory_version_id").or (.str ""))))
  return if view = some "basic" then Dict.set response "content" .null else response

/-! ## Memory versions -/

/-- `bool(data.get("redacted") or data.get("redacted_at"))`. -/
def isRedacted (data : Dict) : Bool :=
  ((Dict.get data "redacted").or (Dict.get data "redacted_at")).truthy

/-- `data.get(key) or snapshot.get(key)`. -/
def recordedField (data snapshot : Dict) (key : String) : Json :=
  (Dict.get data key).or (Dict.get snapshot key)

/-- The part of a version response that depends on the view and the operation. -/
structure VersionContent where
  content : Json := .null
  path : Json := .null
  contentSha256 : Json := .null
  contentSizeBytes : Json := .null

def versionContent (py : Interpreter) (view : Option String) (data snapshot : Dict) :
    Except HTTPException VersionContent :=
  if isRedacted data then .ok {}
  else do
    let path ← normalizeMemoryPath py (recordedField data snapshot "path")
    if memoryVersionOperation (Dict.get data "operation") = "deleted" then
      return { path := .str path }
    else
      let content :=
        if Dict.contains data "content" then Dict.get data "content"
        else Dict.get snapshot "content"
      return {
        content := if view = some "basic" then .null else content
        path := .str path
        contentSha256 := recordedField data snapshot "content_sha256"
        contentSizeBytes := recordedField data snapshot "content_size_bytes" }

/-- The keys which a version response sets before the content. -/
def versionHeader (py : Interpreter) (columns : ShownColumns) (resource : Resource)
    (snapshot : Dict) : Dict :=
  let data := resource.data
  let response := resourceToResponse py columns resource (some "memory_version")
  let response := Dict.set response "memory_store_id"
    (recordedField data snapshot "memory_store_id")
  let response := Dict.set response "memory_id"
    ((Dict.get data "memory_id").or (optionalText resource.parentId))
  let response := Dict.set response "operation"
    (.str (memoryVersionOperation (Dict.get data "operation")))
  let response := Dict.set response "created_by"
    ((Dict.get data "created_by").or
      (apiActor (py.str ((Dict.get data "actor").or (.str "api")))))
  let response := Dict.pop response "session_id"
  Dict.set response "redacted_at" (Dict.get data "redacted_at")

def VersionContent.write (shown : VersionContent) (response : Dict) : Dict :=
  let response := Dict.set response "content" shown.content
  let response := Dict.set response "path" shown.path
  let response := Dict.set response "content_sha256" shown.contentSha256
  Dict.set response "content_size_bytes" shown.contentSizeBytes

def memoryVersionResponse (py : Interpreter) (columns : ShownColumns)
    (viewName : Option String) (resource : Resource) : Except HTTPException Dict := do
  let view ← normalizeMemoryView viewName
  let snapshot ← toDict (Dict.get resource.data "snapshot")
  let shown ← versionContent py view resource.data snapshot
  return shown.write (versionHeader py columns resource snapshot)

/-! ## What responses keep of the stored dictionary -/

theorem Dict.get_setdefaultSome_other
    {fields : Dict} {key other : String} (value : Option Json) (hne : key ≠ other) :
    Dict.get (fields.setdefaultSome key value) other = Dict.get fields other := by
  cases value with
  | none => rfl
  | some value => exact Dict.get_setdefault_other value hne

/-- The keys which `resource_to_response` may set. -/
def COLUMN_KEYS : List String :=
  ["id", "type", "created_at", "updated_at", "archived_at", "version", "name", "status",
   "deleted_at", "filename", "mime_type", "size_bytes", "sha256", "storage"]

theorem get_resourceToResponse
    (py : Interpreter) (columns : ShownColumns) (resource : Resource)
    (publicType : Option String) {key : String} (hkey : key ∉ COLUMN_KEYS) :
    Dict.get (resourceToResponse py columns resource publicType) key =
      Dict.get (redactedResourceData resource) key := by
  simp only [COLUMN_KEYS, List.mem_cons, List.not_mem_nil, or_false, not_or, ← ne_eq]
    at hkey
  obtain ⟨hid, htype, hcreated, hupdated, harchived, hversion, hname, hstatus, hdeleted,
    hfilename, hmime, hsize, hsha, hstorage⟩ := hkey
  unfold resourceToResponse
  cases resource.deletedAt <;>
    simp only [Dict.get_setdefaultSome_other, Dict.get_setdefault_other,
      Dict.get_set_other, hid.symm, htype.symm, hcreated.symm, hupdated.symm,
      harchived.symm, hversion.symm, hname.symm, hstatus.symm, hdeleted.symm,
      hfilename.symm, hmime.symm, hsize.symm, hsha.symm, hstorage.symm, ne_eq,
      not_false_eq_true]

theorem get_resourceToResponse_id
    (py : Interpreter) (columns : ShownColumns) (resource : Resource)
    (publicType : Option String) :
    Dict.get (resourceToResponse py columns resource publicType) "id" =
      .str resource.id := by
  unfold resourceToResponse
  cases resource.deletedAt <;>
    simp [Dict.get_setdefaultSome_other, Dict.get_setdefault_other]

theorem get_resourceToResponse_type
    (py : Interpreter) (columns : ShownColumns) (resource : Resource)
    (publicType : Option String) :
    Dict.get (resourceToResponse py columns resource publicType) "type" =
      .str (publicType.getD resource.resourceType.name) := by
  unfold resourceToResponse
  cases resource.deletedAt <;>
    simp [Dict.get_setdefaultSome_other, Dict.get_setdefault_other]

/-- The snapshot of a version is shown as it is stored. -/
theorem get_versionResponse_snapshot
    (py : Interpreter) (columns : ShownColumns) {resource : Resource}
    (htype : resource.resourceType = .memoryVersion) (snapshot : Dict)
    (shown : VersionContent) :
    Dict.get (shown.write (versionHeader py columns resource snapshot)) "snapshot" =
      Dict.get resource.data "snapshot" := by
  unfold VersionContent.write versionHeader
  simp only [Dict.get_set_other, Dict.get_pop_other, ne_eq, String.reduceEq,
    not_false_eq_true]
  rw [get_resourceToResponse py columns resource _ (by decide)]
  simp [redactedResourceData, htype]

theorem memoryVersionResponse_snapshot
    {py : Interpreter} {columns : ShownColumns} {viewName : Option String}
    {resource : Resource} {response : Dict}
    (htype : resource.resourceType = .memoryVersion)
    (hresponse : memoryVersionResponse py columns viewName resource = .ok response) :
    Dict.get response "snapshot" = Dict.get resource.data "snapshot" := by
  unfold memoryVersionResponse at hresponse
  simp only [bind_eq_ok, pure_eq_ok] at hresponse
  obtain ⟨view, -, snapshot, -, shown, -, rfl⟩ := hresponse
  exact get_versionResponse_snapshot py columns htype snapshot shown

end ManagedAgents
