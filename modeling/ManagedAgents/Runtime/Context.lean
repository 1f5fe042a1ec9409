import ManagedAgents.MemoryReads
import ManagedAgents.Runtime.LocalBackend

/-!
# The runtime context of a session

Before a turn the runner gathers the memories of the attached stores and the
credentials of the pinned vaults for the MCP servers of the agent.
-/

namespace ManagedAgents

def MAX_MEMORY_CONTEXT_STORES : ℕ := 8
def MAX_MEMORY_CONTEXT_ITEMS_PER_STORE : ℕ := 20
def MAX_MEMORY_CONTEXT_CONTENT_CHARS : ℕ := 1000

/-! ## Memories -/

def memoryContextItem (py : Python) (memory : Resource) : MemoryItem :=
  let content := py.str ((Dict.get memory.data "content").or (.str ""))
  { memoryId := memory.id
    path := Dict.get memory.data "path"
    pathKey := Dict.get memory.data "path_key"
    version := Dict.get memory.data "version"
    content :=
      if content.length > MAX_MEMORY_CONTEXT_CONTENT_CHARS then
        String.ofList (content.toList.take MAX_MEMORY_CONTEXT_CONTENT_CHARS) ++ "..."
      else content }

def sessionResourceQuery (workspaceId sessionId : String) : ResourceQuery where
  resourceType := .sessionResource
  workspaceId := workspaceId
  parentId := some sessionId

/-- The first attached stores, newest first. -/
def memoryResources (rows : List Resource) (workspaceId sessionId : String) :
    List Resource :=
  ((listResources rows (sessionResourceQuery workspaceId sessionId) 1000).filter
    fun resource => Dict.get resource.data "type" = .str "memory_store").take
      MAX_MEMORY_CONTEXT_STORES

def attachedStoreId (py : Python) (resource : Resource) : String :=
  py.str ((Dict.get resource.data "memory_store_id").or (.str ""))

/-- The newest live memories of a store without the redacted ones. -/
def contextMemories (rows : List Resource) (workspaceId storeId : String) :
    List Resource :=
  (listResources rows (memoryQuery workspaceId storeId)
    MAX_MEMORY_CONTEXT_ITEMS_PER_STORE).filter fun memory =>
      !(Dict.get memory.data "redacted").truthy

def memoryStoreContext (py : Python) (rows : List Resource) (workspaceId : String)
    (resource : Resource) : Option MemoryStore :=
  let storeId := attachedStoreId py resource
  if storeId = "" then none
  else
    some
      { memoryStoreId := storeId
        name := Dict.get resource.data "name"
        mountPath := Dict.get resource.data "mount_path"
        access := Dict.get resource.data "access"
        instructions := Dict.get resource.data "instructions"
        memories :=
          (contextMemories rows workspaceId storeId).map (memoryContextItem py) }

/-! ## Credentials -/

def normalizedMcpUrl (py : Python) (value : Json) : String :=
  rstripSlashes (strip (py.str (value.or (.str ""))))

/-- The live credentials of a vault which are not archived. -/
def vaultCredentials (rows : List Resource) (workspaceId vaultId : String) :
    List Resource :=
  listResources rows
    { resourceType := .credential, workspaceId := workspaceId, parentId := some vaultId,
      includeArchived := false }
    1000

/-- `(credential.data or {}).get("auth") or {}`. -/
def credentialAuth (credential : Resource) : Json :=
  (Dict.get credential.data "auth").or (.dict [])

/-- The server a credential is for; empty when its `auth` is no dictionary. -/
def credentialUrl (py : Python) (credential : Resource) : String :=
  match credentialAuth credential with
  | .dict auth => normalizedMcpUrl py (Dict.get auth "mcp_server_url")
  | _ => ""

/-- One round of the loop that fills `by_url`. -/
def addByUrl (py : Python) (byUrl : List (String × Resource)) (credential : Resource) :
    List (String × Resource) :=
  let url := credentialUrl py credential
  if url ≠ "" ∧ url ∉ byUrl.map Prod.fst then byUrl ++ [(url, credential)] else byUrl

def credentialsByUrl (py : Python) (credentials : List Resource) :
    List (String × Resource) :=
  credentials.foldl (addByUrl py) []

def mcpServerUrl (py : Python) (server : Dict) : String :=
  py.str ((Dict.get server "url").or (.str ""))

def mcpServerName (py : Python) (server : Dict) : String :=
  py.str ((Dict.get server "name").or (.str ""))

def authMissing (py : Python) (server : Dict) : McpAuthMissing where
  serverName := mcpServerName py server
  serverUrl := mcpServerUrl py server

/-- The entry of a server and its error. -/
def resolveServer (py : Python) (byUrl : List (String × Resource)) (server : Dict) :
    Dict × Option McpAuthMissing :=
  match byUrl.lookup (normalizedMcpUrl py (.str (mcpServerUrl py server))) with
  | none =>
      ((authMissing py server).fields ++
        [("status", .str "missing"), ("credential_id", .null), ("vault_id", .null)],
       some (authMissing py server))
  | some credential =>
      ([("type", .str "mcp_auth"),
        ("status", .str "matched"),
        ("mcp_server_name", .str (mcpServerName py server)),
        ("mcp_server_url", .str (mcpServerUrl py server)),
        ("credential_id", .str credential.id),
        ("vault_id", optionalText credential.parentId),
        ("auth_type", .str (py.str
          (((credentialAuth credential).get "type").or (.str "mcp_oauth"))))],
       none)

/-- `_runtime_context_for_session` with `_mcp_auth_context_for_session`. -/
def runtimeContextForSession (py : Python) (rows : List Resource) (workspaceId : String)
    (session : ManagedSession) (version : AgentVersion) : RuntimeContext :=
  let credentials :=
    session.statusDetails.vaultIds.flatMap (vaultCredentials rows workspaceId)
  let resolved :=
    (toolDicts version.mcpServers).map
      (resolveServer py (credentialsByUrl py credentials))
  { memoryStores :=
      (memoryResources rows workspaceId session.id).filterMap
        (memoryStoreContext py rows workspaceId)
    mcpServers := resolved.map Prod.fst
    mcpErrors := resolved.filterMap Prod.snd }

end ManagedAgents
