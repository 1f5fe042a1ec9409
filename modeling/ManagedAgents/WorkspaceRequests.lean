import ManagedAgents.CredentialSystem
import ManagedAgents.ListWalks
import ManagedAgents.Skills
import ManagedAgents.Vaults

/-!
# Requests of a workspace

All requests for vaults, credentials, memory stores, memories and skills, with the
rows that they answer with.  Every query selects the rows of the workspace of its
request, so that none sees the others.
-/

namespace ManagedAgents

open Fallible

/-! ## Reads of vaults and skills -/

/-- The rows of `_list_top_level` and `_list_child` in their order. -/
def listNewest (rows : List Resource) (query : ResourceQuery)
    (createdAt : CreatedAtFilter) : Except HTTPException (List Resource) :=
  sortByCreatedAt
    ((listResources rows query 1000).filter fun row => createdAt.keeps row.createdAt)
    (some "desc")

def listTopLevel (workspaceId : String) (resourceType : ResourceType)
    (includeArchived : Bool) (createdAt : CreatedAtFilter) (view : View) :
    Except HTTPException (List Resource) :=
  listNewest (view 0)
    { resourceType := resourceType, workspaceId := workspaceId,
      includeArchived := includeArchived } createdAt

def listSkills (workspaceId : String) (view : View) :
    Except HTTPException (List Resource) :=
  listNewest (view 0) (skillQuery workspaceId) {}

def listSkillVersions (workspaceId skillId : String) (view : View) :
    Except HTTPException (List Resource) := do
  let _ ← findSkill workspaceId skillId view
  listNewest (view 1) (skillVersionQuery workspaceId skillId) {}

/-! ## Requests -/

inductive WorkspaceRequest
  | createVault (body : Dict)
  | updateVault (vaultId : String) (body : Dict)
  | archiveVault (vaultId : String)
  | deleteVault (vaultId : String)
  | retrieveVault (vaultId : String)
  | listVaults (includeArchived : Bool)
  | createCredential (vaultId : String) (body : Dict)
  | updateCredential (vaultId credentialId : String) (body : Dict)
  | archiveCredential (vaultId credentialId : String)
  | deleteCredential (vaultId credentialId : String)
  | validateCredential (vaultId credentialId : String)
  | retrieveCredential (vaultId credentialId : String)
  | listCredentials (vaultId : String) (includeArchived : Bool)
  | listMemoryStores (includeArchived : Bool) (createdAt : CreatedAtFilter)
  | writeMemory (request : MemoryRequest)
  | readMemory (read : MemoryRead)
  | createSkill (body : Except HTTPException SkillPayload)
  | createSkillVersion (skillId : String) (body : Except HTTPException SkillPayload)
  | deleteSkill (skillId : String)
  | deleteSkillVersion (skillId : String) (version : ℤ)
  | retrieveSkill (skillId : String)
  | listSkills
  | retrieveSkillVersion (skillId : String) (version : ℤ)
  | listSkillVersions (skillId : String)

/-- The interpreter and the settings which all requests share. -/
structure WorkspaceSettings where
  py : Interpreter
  encryption : EncryptionSettings
  maxSkillArchiveBytes : ℤ
  objectStorage : Bool

/-- A request in a workspace with what it draws from outside. -/
structure WorkspaceCall where
  workspaceId : String
  supply : Supply
  nonce : ℕ → List UInt8
  timeNs : ℤ
  request : WorkspaceRequest

def WorkspaceCall.cipher (settings : WorkspaceSettings) (call : WorkspaceCall) :
    SecretCipher where
  encryptionKey := settings.encryption.encryptionKey
  nonce := call.nonce
  aesgcmEncrypt := settings.encryption.aesgcmEncrypt

def WorkspaceCall.memoryCall (call : WorkspaceCall) (request : MemoryRequest) :
    MemoryCall where
  workspaceId := call.workspaceId
  supply := call.supply
  request := request

def WorkspaceCall.skillContext (settings : WorkspaceSettings) (call : WorkspaceCall) :
    SkillContext where
  workspaceId := call.workspaceId
  supply := call.supply
  timeNs := call.timeNs
  maxSkillArchiveBytes := settings.maxSkillArchiveBytes
  objectStorage := settings.objectStorage

/-- What a request writes and the rows of its response. -/
structure WorkspaceOutcome where
  statements : List Statement := []
  shown : List Resource

def Outcome.rows (outcome : Outcome) : WorkspaceOutcome where
  statements := outcome.statements
  shown := [outcome.shown]

def WorkspaceOutcome.found (rows : List Resource) : WorkspaceOutcome where
  shown := rows

def WorkspaceCall.handle (settings : WorkspaceSettings) (call : WorkspaceCall)
    (view : View) : Except HTTPException WorkspaceOutcome :=
  let py := settings.py
  let cipher := call.cipher settings
  let skills := call.skillContext settings
  let supply := call.supply
  let workspaceId := call.workspaceId
  match call.request with
  | .createVault body => Outcome.rows <$> createVault supply workspaceId body
  | .updateVault vaultId body =>
      Outcome.rows <$> updateVault workspaceId vaultId body view
  | .archiveVault vaultId => Outcome.rows <$> archiveVault supply workspaceId vaultId view
  | .deleteVault vaultId => Outcome.rows <$> deleteVault supply workspaceId vaultId view
  | .retrieveVault vaultId =>
      (fun vault => .found [vault]) <$> mustExist (view 0) workspaceId vaultId .vault none
  | .listVaults includeArchived =>
      .found <$> listTopLevel workspaceId .vault includeArchived {} view
  | .createCredential vaultId body =>
      Outcome.rows <$> createCredential py cipher supply workspaceId vaultId body view
  | .updateCredential vaultId credentialId body =>
      Outcome.rows <$>
        updateCredential py cipher workspaceId vaultId credentialId body view
  | .archiveCredential vaultId credentialId =>
      Outcome.rows <$> archiveCredential py supply workspaceId vaultId credentialId view
  | .deleteCredential vaultId credentialId =>
      Outcome.rows <$> deleteCredential py supply workspaceId vaultId credentialId view
  | .validateCredential vaultId credentialId =>
      Outcome.rows <$> validateCredential py supply workspaceId vaultId credentialId view
  | .retrieveCredential vaultId credentialId =>
      Outcome.rows <$> retrieveCredential workspaceId vaultId credentialId view
  | .listCredentials vaultId includeArchived =>
      .found <$> listCredentials workspaceId vaultId includeArchived view
  | .listMemoryStores includeArchived createdAt =>
      .found <$> listTopLevel workspaceId .memoryStore includeArchived createdAt view
  | .writeMemory request => Outcome.rows <$> (call.memoryCall request).handle py view
  | .readMemory read => .found <$> read.find py workspaceId view
  | .createSkill body => Outcome.rows <$> createSkill py.toPython skills body
  | .createSkillVersion skillId body =>
      Outcome.rows <$> createSkillVersion py.toPython skills skillId body view
  | .deleteSkill skillId => Outcome.rows <$> deleteSkill skills skillId view
  | .deleteSkillVersion skillId version =>
      Outcome.rows <$> deleteSkillVersion supply workspaceId skillId version view
  | .retrieveSkill skillId =>
      (fun skill => .found [skill]) <$> findSkill workspaceId skillId view
  | .listSkills => .found <$> listSkills workspaceId view
  | .retrieveSkillVersion skillId version =>
      Outcome.rows <$> retrieveSkillVersion workspaceId skillId version view
  | .listSkillVersions skillId => .found <$> listSkillVersions workspaceId skillId view

/-- The rows after the commit; a request that fails or writes nothing makes none. -/
def WorkspaceCall.body (settings : WorkspaceSettings) (call : WorkspaceCall) (view : View)
    (current : List Resource) : Option (List Resource) :=
  match call.handle settings view with
  | .error _ => none
  | .ok outcome =>
      if outcome.statements = [] then none else commit current outcome.statements

/-- What the request writes and shows, or its error. -/
def WorkspaceCall.answer (settings : WorkspaceSettings) (call : WorkspaceCall)
    (view : View) (current : List Resource) : Except HTTPException WorkspaceOutcome :=
  match call.handle settings view with
  | .error error => .error error
  | .ok outcome =>
      if (commit current outcome.statements).isSome then .ok outcome
      else .error internalServerError

/-! ## The rows of a workspace -/

def rowsOf (workspaceId : String) (rows : List Resource) : List Resource :=
  rows.filter fun row => row.workspaceId = workspaceId

theorem mem_rowsOf
    {workspaceId : String} {rows : List Resource} {row : Resource} :
    row ∈ rowsOf workspaceId rows ↔ row ∈ rows ∧ row.workspaceId = workspaceId := by
  simp [rowsOf]

section

variable {workspaceId : String}

/-- A query of the workspace selects among its rows. -/
theorem filter_rowsOf
    {selected : Resource → Bool}
    (hselected : ∀ row, selected row = true → row.workspaceId = workspaceId)
    (rows : List Resource) :
    (rowsOf workspaceId rows).filter selected = rows.filter selected := by
  unfold rowsOf
  rw [List.filter_filter]
  apply List.filter_congr
  intro row _
  cases hrow : selected row with
  | false => rfl
  | true => simp [hselected row hrow]

theorem selects_workspace
    {query : ResourceQuery} {row : Resource} (hselects : query.selects row = true) :
    row.workspaceId = query.workspaceId := by
  simp only [ResourceQuery.selects, decide_eq_true_eq] at hselects
  exact hselects.2.1

@[simp] theorem memoryQuery_workspaceId (storeId : String) :
    (memoryQuery workspaceId storeId).workspaceId = workspaceId := by
  simp [memoryQuery]

@[simp] theorem memoryVersionQuery_workspaceId (memoryId : String) :
    (memoryVersionQuery workspaceId memoryId).workspaceId = workspaceId := by
  simp [memoryVersionQuery]

@[simp] theorem credentialQuery_workspaceId (vaultId : String) :
    (credentialQuery workspaceId vaultId).workspaceId = workspaceId := by
  simp [credentialQuery]

@[simp] theorem skillQuery_workspaceId :
    (skillQuery workspaceId).workspaceId = workspaceId := by
  simp [skillQuery]

@[simp] theorem skillVersionQuery_workspaceId (skillId : String) :
    (skillVersionQuery workspaceId skillId).workspaceId = workspaceId := by
  simp [skillVersionQuery]

theorem getResource_rowsOf
    (query : ResourceQuery) (hquery : query.workspaceId = workspaceId)
    (rows : List Resource)
    (resourceId : String) :
    getResource (rowsOf workspaceId rows) resourceId query =
      getResource rows resourceId query := by
  unfold getResource
  rw [← List.head?_filter, ← List.head?_filter, filter_rowsOf]
  intro row hrow
  simp only [decide_eq_true_eq] at hrow
  exact hquery ▸ selects_workspace hrow.2

@[simp] theorem mustExist_rowsOf
    (rows : List Resource) (resourceId : String) (resourceType : ResourceType)
    (parentId : Option String) :
    mustExist (rowsOf workspaceId rows) workspaceId resourceId resourceType parentId =
      mustExist rows workspaceId resourceId resourceType parentId := by
  unfold mustExist
  simp only [getResource_rowsOf]

theorem listResources_rowsOf
    (query : ResourceQuery) (hquery : query.workspaceId = workspaceId)
    (rows : List Resource) (limit : ℕ) :
    listResources (rowsOf workspaceId rows) query limit =
      listResources rows query limit := by
  unfold listResources
  rw [filter_rowsOf]
  exact fun row hrow => hquery ▸ selects_workspace hrow

theorem listResourcesByNamePrefix_rowsOf
    (query : ResourceQuery) (hquery : query.workspaceId = workspaceId)
    (rows : List Resource)
    (namePrefix : String) (limit : ℕ) :
    listResourcesByNamePrefix (rowsOf workspaceId rows) query namePrefix limit =
      listResourcesByNamePrefix rows query namePrefix limit := by
  unfold listResourcesByNamePrefix
  rw [← listResources_rowsOf query hquery (rows.filter (namePrefixed namePrefix))]
  unfold rowsOf
  rw [List.filter_comm]

theorem getResourceByName_rowsOf
    (query : ResourceQuery) (hquery : query.workspaceId = workspaceId)
    (rows : List Resource) (name : String) :
    getResourceByName (rowsOf workspaceId rows) query name =
      getResourceByName rows query name := by
  unfold getResourceByName
  rw [filter_rowsOf]
  intro row hrow
  simp only [decide_eq_true_eq] at hrow
  exact hquery ▸ selects_workspace hrow.1

theorem getResourceVersion_rowsOf
    (query : ResourceQuery) (hquery : query.workspaceId = workspaceId)
    (rows : List Resource) (version : ℤ) :
    getResourceVersion (rowsOf workspaceId rows) query version =
      getResourceVersion rows query version := by
  unfold getResourceVersion
  rw [filter_rowsOf]
  intro row hrow
  simp only [decide_eq_true_eq] at hrow
  exact hquery ▸ selects_workspace hrow.1

end

/-! ## Requests which see the rows of their workspace only -/

/-- What the queries of a request would see of the rows of the workspace. -/
def viewOf (workspaceId : String) (view : View) : View :=
  fun query => rowsOf workspaceId (view query)

section

variable (py : Interpreter) (cipher : SecretCipher) (supply : Supply)
  (workspaceId : String) (view : View)

theorem updateTopLevel_viewOf
    (normalize : Dict → Except HTTPException Dict) (resourceType : ResourceType)
    (resourceId : String) (body : Dict) :
    updateTopLevel normalize workspaceId resourceType resourceId body
        (viewOf workspaceId view) =
      updateTopLevel normalize workspaceId resourceType resourceId body view := by
  simp only [updateTopLevel, viewOf, mustExist_rowsOf]

theorem archiveTopLevel_viewOf
    (resourceType : ResourceType) (resourceId : String) :
    archiveTopLevel supply workspaceId resourceType resourceId (viewOf workspaceId view) =
      archiveTopLevel supply workspaceId resourceType resourceId view := by
  simp only [archiveTopLevel, viewOf, mustExist_rowsOf]

theorem deleteTopLevel_viewOf
    (resourceType : ResourceType) (resourceId : String) :
    deleteTopLevel supply workspaceId resourceType resourceId (viewOf workspaceId view) =
      deleteTopLevel supply workspaceId resourceType resourceId view := by
  simp only [deleteTopLevel, viewOf, mustExist_rowsOf]

theorem listNewest_rowsOf
    (query : ResourceQuery) (hquery : query.workspaceId = workspaceId)
    (rows : List Resource) (createdAt : CreatedAtFilter) :
    listNewest (rowsOf workspaceId rows) query createdAt =
      listNewest rows query createdAt := by
  unfold listNewest
  rw [listResources_rowsOf query hquery]

/-! ### Credentials -/

theorem createCredential_viewOf
    (vaultId : String) (body : Dict) :
    createCredential py cipher supply workspaceId vaultId body (viewOf workspaceId view) =
      createCredential py cipher supply workspaceId vaultId body view := by
  simp only [createCredential, viewOf, mustExist_rowsOf]

theorem listCredentials_viewOf
    (vaultId : String) (includeArchived : Bool) :
    listCredentials workspaceId vaultId includeArchived (viewOf workspaceId view) =
      listCredentials workspaceId vaultId includeArchived view := by
  simp only [listCredentials, viewOf, mustExist_rowsOf, listResources_rowsOf,
    credentialQuery_workspaceId]

@[simp] theorem mustExistCredential_viewOf
    (vaultId credentialId : String) :
    mustExistCredential workspaceId vaultId credentialId (viewOf workspaceId view) =
      mustExistCredential workspaceId vaultId credentialId view := by
  simp only [mustExistCredential, viewOf, mustExist_rowsOf]

/-! ### Memories -/

@[simp] theorem mustWriteMemoryStore_rowsOf
    (rows : List Resource) (storeId : String) :
    mustWriteMemoryStore (rowsOf workspaceId rows) workspaceId storeId =
      mustWriteMemoryStore rows workspaceId storeId := by
  simp only [mustWriteMemoryStore, mustExist_rowsOf]

@[simp] theorem ensureMemoryStoreCapacity_rowsOf
    (rows : List Resource) (storeId : String) :
    ensureMemoryStoreCapacity (rowsOf workspaceId rows) workspaceId storeId =
      ensureMemoryStoreCapacity rows workspaceId storeId := by
  simp only [ensureMemoryStoreCapacity, listResources_rowsOf, memoryQuery_workspaceId]

@[simp] theorem findMemoryByPath_rowsOf
    (rows : List Resource) (storeId key : String) :
    findMemoryByPath (rowsOf workspaceId rows) workspaceId storeId key =
      findMemoryByPath rows workspaceId storeId key :=
  getResourceByName_rowsOf (memoryQuery workspaceId storeId) rfl rows key

@[simp] theorem checkMemoryPath_rowsOf
    (rows : List Resource) (storeId memoryId : String) (existing merged : Dict) :
    checkMemoryPath (rowsOf workspaceId rows) workspaceId storeId memoryId existing
        merged =
      checkMemoryPath rows workspaceId storeId memoryId existing merged := by
  simp only [checkMemoryPath, findMemoryByPath_rowsOf]

@[simp] theorem findMemoryVersion_viewOf
    (query : ℕ) (storeId versionId : String) :
    findMemoryVersion (viewOf workspaceId view) query workspaceId storeId versionId =
      findMemoryVersion view query workspaceId storeId versionId := by
  simp only [findMemoryVersion, viewOf, getResource_rowsOf, memoryQuery_workspaceId]

@[simp] theorem memoriesUnder_rowsOf
    (rows : List Resource) (storeId pathPrefix : String) :
    memoriesUnder py (rowsOf workspaceId rows) workspaceId storeId pathPrefix =
      memoriesUnder py rows workspaceId storeId pathPrefix := by
  simp only [memoriesUnder, listResources_rowsOf, listResourcesByNamePrefix_rowsOf,
    memoryQuery_workspaceId]

theorem listMemories_viewOf
    (storeId : String) (path pathPrefix viewName : Option String) :
    listMemories py workspaceId storeId path pathPrefix viewName
        (viewOf workspaceId view) =
      listMemories py workspaceId storeId path pathPrefix viewName view := by
  simp only [listMemories, viewOf, mustExist_rowsOf, memoriesUnder_rowsOf,
    findMemoryByPath_rowsOf, listResources_rowsOf, memoryQuery_workspaceId]

theorem listMemoryVersions_viewOf
    (storeId : String) (filter : VersionFilter) (viewName : Option String) :
    listMemoryVersions py workspaceId storeId filter viewName (viewOf workspaceId view) =
      listMemoryVersions py workspaceId storeId filter viewName view := by
  simp only [listMemoryVersions, viewOf, mustExist_rowsOf, listResources_rowsOf,
    memoryQuery_workspaceId, memoryVersionQuery_workspaceId]

theorem memoryRead_viewOf
    (read : MemoryRead) :
    read.find py workspaceId (viewOf workspaceId view) =
      read.find py workspaceId view := by
  cases read with
  | store storeId => simp only [MemoryRead.find, retrieveMemoryStore, viewOf,
      mustExist_rowsOf]
  | memories storeId path pathPrefix viewName =>
      simp only [MemoryRead.find, listMemories_viewOf]
  | memoryByPath storeId path viewName =>
      simp only [MemoryRead.find, retrieveMemoryByPath, viewOf, mustExist_rowsOf,
        findMemoryByPath_rowsOf]
  | memory storeId memoryId viewName =>
      simp only [MemoryRead.find, retrieveMemory, viewOf, mustExist_rowsOf]
  | versionsOfMemory storeId memoryId =>
      simp only [MemoryRead.find, listMemoryVersionsForMemory, viewOf, mustExist_rowsOf,
        listResources_rowsOf, memoryVersionQuery_workspaceId]
  | versionOfMemory storeId memoryId version =>
      simp only [MemoryRead.find, retrieveMemoryVersionForMemory, viewOf,
        mustExist_rowsOf, getResourceVersion_rowsOf, memoryVersionQuery_workspaceId]
  | versions storeId filter viewName =>
      simp only [MemoryRead.find, listMemoryVersions_viewOf]
  | versionById storeId versionId viewName =>
      have hstore := @mustExist_rowsOf workspaceId (view 0) storeId .memoryStore none
      simp only [MemoryRead.find, retrieveMemoryVersion, findMemoryVersion_viewOf]
      rw [viewOf, hstore]

theorem memoryRequest_viewOf
    (request : MemoryRequest) :
    MemoryCall.handle py ⟨workspaceId, supply, request⟩ (viewOf workspaceId view) =
      MemoryCall.handle py ⟨workspaceId, supply, request⟩ view := by
  unfold MemoryCall.handle
  cases request with
  | createStore body => rfl
  | updateStore storeId body =>
      simp only [updateMemoryStore_eq, updateTopLevel_viewOf]
  | archiveStore storeId => simp only [archiveMemoryStore_eq, archiveTopLevel_viewOf]
  | deleteStore storeId => simp only [deleteMemoryStore_eq, deleteTopLevel_viewOf]
  | create storeId body viewName =>
      simp only [createMemory, viewOf, mustWriteMemoryStore_rowsOf,
        ensureMemoryStoreCapacity_rowsOf, findMemoryByPath_rowsOf]
  | update storeId memoryId body viewName =>
      simp only [updateMemory, viewOf, mustExist_rowsOf, checkMemoryPath_rowsOf]
  | delete storeId memoryId expectedContentSha256 =>
      simp only [deleteMemory, viewOf, mustWriteMemoryStore_rowsOf, mustExist_rowsOf]
  | redact storeId versionId =>
      have hstore := @mustExist_rowsOf workspaceId (view 0) storeId .memoryStore none
      simp only [redactMemoryVersion, findMemoryVersion_viewOf]
      rw [viewOf, hstore]

/-! ### Skills -/

@[simp] theorem findSkill_viewOf
    (skillId : String) :
    findSkill workspaceId skillId (viewOf workspaceId view) =
      findSkill workspaceId skillId view := by
  simp only [findSkill, viewOf, getResource_rowsOf, skillQuery_workspaceId]

@[simp] theorem findSkillVersion_viewOf
    (skillId : String) (version : ℤ) :
    findSkillVersion workspaceId skillId version (viewOf workspaceId view) =
      findSkillVersion workspaceId skillId version view := by
  simp only [findSkillVersion, viewOf, getResourceVersion_rowsOf,
    skillVersionQuery_workspaceId]

end

/-- A request sees nothing but the rows of its workspace. -/
theorem WorkspaceCall.handle_viewOf
    (settings : WorkspaceSettings) (call : WorkspaceCall) (view : View) :
    call.handle settings (viewOf call.workspaceId view) = call.handle settings view := by
  have hstore : ∀ rows resourceId resourceType,
      mustExist (rowsOf call.workspaceId rows) call.workspaceId resourceId resourceType
        none = mustExist rows call.workspaceId resourceId resourceType none :=
    fun rows resourceId resourceType => mustExist_rowsOf rows resourceId resourceType none
  have hlisted : ∀ resourceType includeArchived createdAt,
      listTopLevel call.workspaceId resourceType includeArchived createdAt
          (viewOf call.workspaceId view) =
        listTopLevel call.workspaceId resourceType includeArchived createdAt view :=
    fun _ _ createdAt => listNewest_rowsOf _ _ rfl _ createdAt
  unfold WorkspaceCall.handle
  cases call.request with
  | createVault | createSkill => rfl
  | updateVault => simp only [updateVault, updateTopLevel_viewOf]
  | archiveVault => simp only [archiveVault, archiveTopLevel_viewOf]
  | deleteVault => simp only [deleteVault, deleteTopLevel_viewOf]
  | retrieveVault vaultId => simp only [viewOf, hstore]
  | listVaults | listMemoryStores => simp only [hlisted]
  | createCredential => simp only [createCredential_viewOf]
  | updateCredential => simp only [updateCredential, mustExistCredential_viewOf]
  | archiveCredential => simp only [archiveCredential, mustExistCredential_viewOf]
  | deleteCredential => simp only [deleteCredential, mustExistCredential_viewOf]
  | validateCredential => simp only [validateCredential, mustExistCredential_viewOf]
  | retrieveCredential => simp only [retrieveCredential, mustExistCredential_viewOf]
  | listCredentials => simp only [listCredentials_viewOf]
  | writeMemory => simp only [WorkspaceCall.memoryCall, memoryRequest_viewOf]
  | readMemory => simp only [memoryRead_viewOf]
  | createSkillVersion | deleteSkill =>
      simp only [createSkillVersion, deleteSkill, WorkspaceCall.skillContext,
        findSkill_viewOf]
  | deleteSkillVersion | retrieveSkillVersion =>
      simp only [deleteSkillVersion, retrieveSkillVersion, findSkillVersion_viewOf]
  | retrieveSkill => simp only [findSkill_viewOf]
  | listSkills =>
      simp only [listSkills, viewOf, listNewest_rowsOf, skillQuery_workspaceId]
  | listSkillVersions =>
      simp only [listSkillVersions, findSkill_viewOf]
      simp only [viewOf, listNewest_rowsOf, skillVersionQuery_workspaceId]

end ManagedAgents
