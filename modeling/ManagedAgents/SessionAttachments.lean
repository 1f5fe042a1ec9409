import ManagedAgents.Agents
import ManagedAgents.SessionFiles
import ManagedAgents.Sessions

/-!
# Resources of a new session

What `create_session_resource` stores for a file, a repository or a memory store
that a new session is started with, and the errors it raises for one that can not
be attached.
-/

namespace ManagedAgents

open Fallible

structure EnvironmentRow extends Environment where
  workspaceId : String

/-- The rows which a request reads and does not write, and the objects which can
be copied. -/
structure Surroundings where
  agents : AgentRows
  environments : List EnvironmentRow
  resources : List Resource
  files : List FileRow
  copies : String → Bool

def getEnvironment (surroundings : Surroundings) (workspaceId environmentId : String) :
    Option EnvironmentRow :=
  surroundings.environments.find? fun environment =>
    environment.id = environmentId ∧ environment.workspaceId = workspaceId

/-- The library of URLs: `urlparse(url).path`. -/
abbrev UrlPath := String → Except PyError String

/-- The name and the data of the row. -/
structure SessionResource where
  name : Option String
  data : Dict
deriving DecidableEq

/-! ## Repositories -/

def isMountChar (char : Char) : Bool :=
  ('a' ≤ char && char ≤ 'z') || ('A' ≤ char && char ≤ 'Z') ||
    ('0' ≤ char && char ≤ '9') || char = '.' || char = '_' || char = '-'

/-- `re.sub(r"[^A-Za-z0-9._-]+", "-", text)`. -/
def substituteRuns : Bool → List Char → List Char
  | _, [] => []
  | inRun, char :: rest =>
      if isMountChar char then char :: substituteRuns false rest
      else if inRun then substituteRuns true rest
      else '-' :: substituteRuns true rest

def safeMountSegment (value : String) : String :=
  let replaced := substituteRuns false (strip value).toList
  String.ofList (((replaced.dropWhile (· = '-')).rdropWhile (· = '-')).map lowerChar)

def githubRepoName (urlPath : UrlPath) (url : String) : Except HTTPException String :=
  match urlPath url with
  | .error _ => .error internalServerError
  | .ok path =>
      let chars := (textOr path url).toList.rdropWhile (· = '/')
      let name := textOr (String.ofList ((chars.splitOn '/').getLastD [])) "repository"
      let name :=
        if ".git".toList.isSuffixOf name.toList then
          String.ofList (name.toList.take (name.length - 4))
        else name
      .ok (textOr (safeMountSegment name) "repository")

def normalizeGithubCheckout (py : Python) : Json → Except HTTPException Dict
  | .dict value =>
      let text (key : String) := py.str ((Dict.get value key).or (.str ""))
      if text "type" = "branch" then
        if text "name" = "" then .error ⟨422, "branch checkout requires name"⟩
        else .ok [("type", .str "branch"), ("name", .str (text "name"))]
      else if text "type" = "commit" then
        if text "sha" = "" then .error ⟨422, "commit checkout requires sha"⟩
        else .ok [("type", .str "commit"), ("sha", .str (text "sha"))]
      else .error ⟨422, "checkout type must be branch or commit"⟩
  | _ => .error ⟨422, "github_repository checkout must be an object"⟩

def validateMountPath (mountPath : String) : Except HTTPException Unit :=
  raiseIf (startswith mountPath "/" = false) ⟨422, "mount_path must be absolute"⟩

def githubSessionResource (py : Python) (urlPath : UrlPath) (now : Time) (data : Dict) :
    Except HTTPException SessionResource := do
  let url := py.str ((Dict.get data "url").or (.str ""))
  raiseIf (url = "") ⟨422, "github_repository session resources require url"⟩
  let token := py.str ((Dict.get data "authorization_token").or (.str ""))
  raiseIf (token = "")
    ⟨422, "github_repository session resources require authorization_token"⟩
  let name ← githubRepoName urlPath url
  let mountPath := py.str ((Dict.get data "mount_path").or (.str ("/workspace/" ++ name)))
  validateMountPath mountPath
  let normalized : Dict :=
    [("type", .str "github_repository"), ("url", .str url),
     ("mount_path", .str mountPath), ("authorization_token_present", .bool true),
     ("authorization_token_updated_at", .str (py.isoformat now))]
  if Dict.get data "checkout" = .null then
    return { name := some name, data := normalized }
  else
    let checkout ← normalizeGithubCheckout py (Dict.get data "checkout")
    return { name := some name, data := Dict.set normalized "checkout" (.dict checkout) }

/-! ## Memory stores -/

def memoryStoreNotFound : HTTPException := ⟨404, "Memory store not found"⟩

/-- The name, the description and the mount path are those of the store. -/
def memoryStoreFields (py : Python) (store : Resource) (memoryStoreId access : String) :
    Dict :=
  let name := py.str (((optionalText store.name).or (Dict.get store.data "name")).or
    (.str memoryStoreId))
  let segment := textOr (textOr (safeMountSegment name) (safeMountSegment memoryStoreId))
    "memory"
  [("type", .str "memory_store"), ("memory_store_id", .str memoryStoreId),
   ("access", .str access), ("name", .str name),
   ("description", .str (py.str ((Dict.get store.data "description").or (.str "")))),
   ("mount_path", .str ("/mnt/memory/" ++ segment))]

def memoryStoreSessionResource (py : Python) (surroundings : Surroundings)
    (workspaceId : String) (data : Dict) : Except HTTPException SessionResource := do
  let memoryStoreId := py.str ((Dict.get data "memory_store_id").or (.str ""))
  raiseIf (memoryStoreId = "")
    ⟨422, "memory_store session resources require memory_store_id"⟩
  match getResource surroundings.resources memoryStoreId
      { resourceType := .memoryStore, workspaceId := workspaceId } with
  | none => throw memoryStoreNotFound
  | some store =>
      raiseIf (store.archivedAt ≠ none) memoryStoreNotFound
      let access := py.str ((Dict.get data "access").or (.str "read_write"))
      raiseIf (access ≠ "read_write" ∧ access ≠ "read_only")
        ⟨422, "memory_store access must be read_write or read_only"⟩
      let fields := memoryStoreFields py store memoryStoreId access
      let name : Json := (Dict.get fields "name").or (.str memoryStoreId)
      if Dict.get data "instructions" = .null then
        return { name := some (py.str name), data := fields }
      else
        let instructions := py.str ((Dict.get data "instructions").or (.str ""))
        raiseIf (instructions.length > 4096)
          ⟨422, "memory_store instructions must be 4096 characters or fewer"⟩
        return { name := some (py.str name)
                 data := Dict.set fields "instructions" (.str instructions) }

/-! ## Files -/

/-- The copy of the file is placed under a key of the session. -/
def fileSessionResource (py : Python) (surroundings : Surroundings)
    (context : FileContext) (session : SessionRef) (data : Dict) :
    Except HTTPException SessionResource := do
  let fileId := py.str ((Dict.get data "file_id").or (.str ""))
  raiseIf (fileId = "") ⟨422, "file session resources require file_id"⟩
  match getFile surroundings.files session.workspaceId fileId with
  | none => throw ⟨404, "File not found"⟩
  | some file =>
      let mountPath := py.str
        ((Dict.get data "mount_path").or (.str ("/mnt/session/uploads/" ++ fileId)))
      validateMountPath mountPath
      match file.storedKey, context.settings.storage with
      | none, _ => throw ⟨500, "File object is not stored in object storage"⟩
      | some _, none => throw storageNotConfigured
      | some source, some storage =>
          raiseIf (surroundings.copies source = false) internalServerError
          let key := sessionFileKey context session file
          let placement : Placement :=
            { storageBackend := file.storageBackend, storageKey := some key,
              storageUrl := some (publicUrlForKey storage key) }
          let sessionFile := sessionScopedFile context session file placement
          return {
            name := some sessionFile.id
            data := sessionFileData sessionFile file mountPath placement }

/-! ## All resources -/

/-- Only a body of the type is counted. -/
def checkCapacity (attached : List SessionResource) (data : Json) (resourceType : String)
    (limit : ℕ) (message : String) : Except HTTPException Unit :=
  raiseIf (data.get "type" = .str resourceType ∧
    limit ≤ (attached.filter fun resource =>
      Dict.get resource.data "type" = .str resourceType).length) ⟨422, message⟩

/-- What a request needs besides the rows. -/
structure AttachmentContext where
  py : Python
  urlPath : UrlPath
  /-- The draws for the resource at a position. -/
  files : ℕ → FileContext
  clock : ℕ → Time

/-- `create_session_resource` for a session which has these resources. -/
def attachSessionResource (context : AttachmentContext) (surroundings : Surroundings)
    (session : SessionRef) (attached : List SessionResource) (data : Json) :
    Except HTTPException SessionResource := do
  checkCapacity attached data "file" MAX_SESSION_FILE_RESOURCES
    "A session can have at most 100 file resources"
  checkCapacity attached data "memory_store" MAX_SESSION_MEMORY_STORE_RESOURCES
    "A session can have at most 8 memory store resources"
  match data with
  | .dict fields =>
      let resourceType := context.py.str ((Dict.get fields "type").or (.str ""))
      if resourceType = "file" then
        fileSessionResource context.py surroundings (context.files attached.length)
          session fields
      else if resourceType = "github_repository" then
        githubSessionResource context.py context.urlPath (context.clock attached.length)
          fields
      else if resourceType = "memory_store" then
        memoryStoreSessionResource context.py surroundings session.workspaceId fields
      else
        throw ⟨422,
          "Session resource type must be one of: file, github_repository, memory_store"⟩
  | _ => throw ⟨422, "Session resource must be an object"⟩

/-- The loop over the resources. -/
def attachSessionResources (context : AttachmentContext) (surroundings : Surroundings)
    (session : SessionRef) (attached : List SessionResource) :
    List Json → Except HTTPException (List SessionResource)
  | [] => return attached
  | data :: rest => do
      let resource ← attachSessionResource context surroundings session attached data
      attachSessionResources context surroundings session (attached ++ [resource]) rest

end ManagedAgents
