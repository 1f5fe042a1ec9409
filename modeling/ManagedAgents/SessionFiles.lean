import ManagedAgents.Files

/-!
# Files of sessions

A file that is attached to a session is copied: the copy has an object and a row
of its own, in the scope of the session, and goes with the session resource.
-/

namespace ManagedAgents

open SharedPrograms

def MAX_SESSION_FILE_RESOURCES : ℕ := 100
def MAX_SESSION_MEMORY_STORE_RESOURCES : ℕ := 8

/-- A session which the request has found in its workspace. -/
structure SessionRef where
  id : String
  workspaceId : String

def FileSupply.toSupply (supply : FileSupply) : Supply where
  uuidHex := fun draw => (supply.uuidHex draw).text
  clock := supply.clock

/-! ## Attaching a file -/

/-- The resources of the type are counted if the body asks for one more.  The query
finds the rows which the request itself has written. -/
def ensureCapacity (session : SessionRef) (created : List Resource) (data : Json)
    (resourceType : String) (limit : ℕ) (error : HTTPException) (next : FileProgram) :
    FileProgram :=
  if data.get "type" = .str resourceType then
    .call (.listSessionResources session.workspaceId session.id)
      fun (resources : List Resource) =>
    if ((resources ++ created).filter fun resource =>
        Dict.get resource.data "type" = .str resourceType).length ≥ limit then
      raise error
    else next
  else next

def ensureResourceCapacity (session : SessionRef) (created : List Resource) (data : Json)
    (next : FileProgram) : FileProgram :=
  ensureCapacity session created data "file" MAX_SESSION_FILE_RESOURCES
    ⟨422, "A session can have at most 100 file resources"⟩ <|
  ensureCapacity session created data "memory_store" MAX_SESSION_MEMORY_STORE_RESOURCES
    ⟨422, "A session can have at most 8 memory store resources"⟩ next

def copyName (file : FileRow) : String :=
  optionOr file.filename (optionOr file.name file.id)

def sessionFileKey (context : FileContext) (session : SessionRef) (file : FileRow) :
    String :=
  objectKey session.workspaceId
    { nameSpace := "sessions_" ++ session.id, category := "resources",
      filename := copyName file, contentSha256 := file.sha256,
      now := context.supply.clock 0, uuidHex := context.supply.uuidHex 1 }

/-- What `_copy_file_for_session_resource` returns. -/
def copiedFileData (file : FileRow) (placement : Placement) : Dict :=
  [("source_file_id", .str file.id),
   ("filename", .str (copyName file)),
   ("mime_type", .str (optionOr file.contentType DEFAULT_CONTENT_TYPE)),
   ("size_bytes", optionalInt file.sizeBytes),
   ("sha256", optionalText (file.sha256.map HexText.text)),
   ("storage", .dict
    [("backend", optionalText placement.storageBackend),
     ("key", optionalText placement.storageKey),
     ("url", optionalText placement.storageUrl)])]

def sessionScope (sessionId : String) : Json :=
  .dict [("type", .str "session"), ("id", .str sessionId)]

/-- `_create_session_scoped_file`. -/
def sessionScopedFile (context : FileContext) (session : SessionRef) (file : FileRow)
    (placement : Placement) : FileRow :=
  let mimeType := optionOr file.contentType DEFAULT_CONTENT_TYPE
  { createFile context (some (copyName file)) mimeType
      [("filename", .str (copyName file)), ("mime_type", .str mimeType),
       ("source_file_id", .str file.id), ("scope", sessionScope session.id)]
      placement file.sizeBytes file.sha256 with
    workspaceId := session.workspaceId }

def sessionFileData (sessionFile file : FileRow) (mountPath : String)
    (placement : Placement) : Dict :=
  [("type", .str "file"),
   ("file_id", .str sessionFile.id),
   ("source_file_id", .str file.id),
   ("mount_path", .str mountPath),
   ("read_only", .bool true),
   ("session_file", .dict (copiedFileData file placement))]

/-- `_normalize_file_session_resource`, and what the caller does with the row of the copy
and the data of the session resource. -/
def normalizeFileSessionResource (py : Python) (context : FileContext)
    (session : SessionRef) (data : Dict) (next : FileRow → Dict → FileProgram) :
    FileProgram :=
  let fileId := py.str ((Dict.get data "file_id").or (.str ""))
  if fileId = "" then raise ⟨422, "file session resources require file_id"⟩
  else
    .call (.findFile session.workspaceId fileId) fun (found : Option FileRow) =>
      match found with
      | none => raise ⟨404, "File not found"⟩
      | some file =>
          let mountPath := py.str
            ((Dict.get data "mount_path").or (.str ("/mnt/session/uploads/" ++ fileId)))
          if !startswith mountPath "/" then raise ⟨422, "mount_path must be absolute"⟩
          else
            match file.storedKey, context.settings.storage with
            | none, _ => raise ⟨500, "File object is not stored in object storage"⟩
            | some _, none => raise storageNotConfigured
            | some source, some storage =>
                let key := sessionFileKey context session file
                let placement : Placement :=
                  { storageBackend := file.storageBackend, storageKey := some key,
                    storageUrl := some (publicUrlForKey storage key) }
                let sessionFile := sessionScopedFile context session file placement
                .call (.copyFile source key file.contentType) fun (copied : Bool) =>
                if copied then
                  next sessionFile (sessionFileData sessionFile file mountPath placement)
                else raise internalServerError

def sessionResourceRow (context : FileContext) (session : SessionRef)
    (name : Option String) (data : Dict) : Resource :=
  createResource context.supply.toSupply 2 2 session.workspaceId .sessionResource
    (some session.id) none name data

def addSessionResource (py : Python) (context : FileContext) (session : SessionRef)
    (data : Dict) : FileProgram :=
  ensureResourceCapacity session [] (.dict data) <|
  if py.str ((Dict.get data "type").or (.str "")) ≠ "file" then
    raise ⟨422, "Session resource type must be one of: file"⟩
  else
    normalizeFileSessionResource py context session data fun sessionFile normalized =>
      let resource := sessionResourceRow context session (some sessionFile.id) normalized
      commitAnd [.insertFile sessionFile, .insertResource resource] (.attached resource)

/-! ## Removing a file -/

/-- The file of the resource, if it was copied for its session. -/
def inScope (file : FileRow) (sessionId : Option String) : Bool :=
  (Dict.get file.data "scope").get "type" = .str "session" ∧
    (Dict.get file.data "scope").get "id" = optionalText sessionId

/-- `delete_session_resource_file`, and the statements of the caller. -/
def deleteSessionResourceFile (context : FileContext) (resource : Resource)
    (statements : List FileStatement) (answer : FileAnswer) : FileProgram :=
  match Dict.get resource.data "type", Dict.get resource.data "file_id" with
  | .str "file", .str fileId =>
      if fileId = "" then commitAnd statements answer
      else
        .call (.findFile resource.workspaceId fileId) fun (found : Option FileRow) =>
          match found with
          | none => commitAnd statements answer
          | some file =>
              if inScope file resource.parentId then
                freeObject context resource.workspaceId file
                  (.deleteFile file.id (context.supply.clock 0) :: statements) answer
              else commitAnd statements answer
  | _, _ => commitAnd statements answer

def deleteSessionResource (context : FileContext) (session : SessionRef)
    (resourceId : String) : FileProgram :=
  .call (.findSessionResource session.workspaceId session.id resourceId)
    fun (found : Option Resource) =>
    match found with
    | none => raise ⟨404, "Session resource not found"⟩
    | some resource =>
        if Dict.get resource.data "type" = .str "memory_store" then
          raise
            ⟨422, "memory_store session resources cannot be removed after creation"⟩
        else
          deleteSessionResourceFile context resource
            [.deleteResource resource.id (context.supply.clock 1)] (.deleted resource.id)

end ManagedAgents
