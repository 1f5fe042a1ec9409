import ManagedAgents.MemoryRequests

/-!
# Reads of memory stores

The rows which the `GET` endpoints under `/v1/memory_stores` answer with,
before they are sorted, cut into pages and rendered.
-/

namespace ManagedAgents

open Fallible

/-! ## Prefixes of paths -/

/-- `text.rstrip("/")`. -/
def rstripSlashes (text : String) : String :=
  String.ofList (text.toList.reverse.dropWhile (· = '/')).reverse

def normalizeMemoryPathPrefix (py : Interpreter) (value : String) :
    Except HTTPException String :=
  if strip value = "/" then .ok "/"
  else normalizeMemoryPath py (.str (rstripSlashes (strip value)))

/-- `_escape_like`. -/
def escapeLike (value : String) : String :=
  String.ofList <| value.toList.flatMap fun char =>
    if char = '\\' ∨ char = '%' ∨ char = '_' then ['\\', char] else [char]

/-- `text LIKE pattern ESCAPE '\'`. -/
def like : (pattern text : List Char) → Bool
  | [], text => text.isEmpty
  | '%' :: pattern, text => text.tails.any fun rest => like pattern rest
  | '\\' :: escaped :: pattern, text =>
      match text with
      | [] => false
      | char :: rest => char = escaped && like pattern rest
  | expected :: pattern, text =>
      match text with
      | [] => false
      | char :: rest => (expected = '_' || char = expected) && like pattern rest

/-- The name is the prefix or goes on after it with a slash. -/
def namePrefixed (namePrefix : String) (row : Resource) : Bool :=
  row.name.any fun name =>
    name = namePrefix || like (escapeLike namePrefix ++ "/%").toList name.toList

def listResourcesByNamePrefix (rows : List Resource) (query : ResourceQuery)
    (namePrefix : String) (limit : ℕ) : List Resource :=
  listResources (rows.filter (namePrefixed namePrefix)) query limit

/-! ## Memories -/

def retrieveMemoryStore (workspaceId storeId : String) (view : View) :
    Except HTTPException Resource :=
  mustExist (view 0) workspaceId storeId .memoryStore none

def retrieveMemory (workspaceId storeId memoryId : String) (viewName : Option String)
    (view : View) : Except HTTPException Resource := do
  let _ ← normalizeMemoryView viewName
  mustExist (view 0) workspaceId memoryId .memory (some storeId)

def retrieveMemoryByPath (py : Interpreter) (workspaceId storeId path : String)
    (viewName : Option String) (view : View) : Except HTTPException Resource := do
  let _ ← normalizeMemoryView viewName
  let _ ← mustExist (view 0) workspaceId storeId .memoryStore none
  let normalized ← normalizeMemoryPath py (.str path)
  let found ← findMemoryByPath (view 1) workspaceId storeId (pathKey normalized)
  match found with
  | some memory => return memory
  | none => throw ⟨404, "Memory not found"⟩

def memoriesUnder (py : Interpreter) (rows : List Resource) (workspaceId storeId : String)
    (pathPrefix : String) : Except HTTPException (List Resource) := do
  let normalized ← normalizeMemoryPathPrefix py pathPrefix
  if pathKey normalized = "" then
    return listResources rows (memoryQuery workspaceId storeId) 1000
  else
    return listResourcesByNamePrefix rows (memoryQuery workspaceId storeId)
      (pathKey normalized) 1000

/-- A memory found by its path must lie under the prefix. -/
def keepUnder (py : Interpreter) (memories : List Resource) (pathPrefix : String) :
    Except HTTPException (List Resource) := do
  let normalized ← normalizeMemoryPathPrefix py pathPrefix
  let key := pathKey normalized
  if key = "" then return memories
  else
    return memories.filter fun memory =>
      memory.name = some key || startswith (memory.name.getD "") (key ++ "/")

def listMemories (py : Interpreter) (workspaceId storeId : String)
    (path pathPrefix viewName : Option String) (view : View) :
    Except HTTPException (List Resource) := do
  let _ ← normalizeMemoryView viewName
  let _ ← mustExist (view 0) workspaceId storeId .memoryStore none
  match path, pathPrefix with
  | none, none => return listResources (view 1) (memoryQuery workspaceId storeId) 1000
  | none, some under => memoriesUnder py (view 1) workspaceId storeId under
  | some path, pathPrefix => do
      let normalized ← normalizeMemoryPath py (.str path)
      let found ← findMemoryByPath (view 1) workspaceId storeId (pathKey normalized)
      match pathPrefix with
      | none => return found.toList
      | some under => keepUnder py found.toList under

/-! ## Versions -/

def memoryVersionQuery (workspaceId memoryId : String) : ResourceQuery where
  resourceType := .memoryVersion
  workspaceId := workspaceId
  parentId := some memoryId

def listMemoryVersionsForMemory (workspaceId storeId memoryId : String) (view : View) :
    Except HTTPException (List Resource) := do
  let _ ← mustExist (view 0) workspaceId memoryId .memory (some storeId)
  return listResources (view 1) (memoryVersionQuery workspaceId memoryId) 1000

def retrieveMemoryVersionForMemory (workspaceId storeId memoryId : String)
    (version : ℤ) (view : View) : Except HTTPException Resource := do
  let _ ← mustExist (view 0) workspaceId memoryId .memory (some storeId)
  let found ← getResourceVersion (view 1)
    (memoryVersionQuery workspaceId memoryId) version
  match found with
  | some row => return row
  | none => throw ⟨404, "Memory version not found"⟩

def MEMORY_VERSION_OPERATIONS : List String := ["created", "deleted", "modified"]

/-- `_memory_version_operation` of a stored operation, which is a text. -/
def memoryVersionOperation (value : Json) : String :=
  if value ∈ [.str "created", .str "create"] then "created"
  else if value ∈ [.str "deleted", .str "delete"] then "deleted"
  else "modified"

def memoryVersionApiKeyId (py : Interpreter) (data : Dict) : Option String :=
  let apiKeyId := (Dict.get data "created_by").get "api_key_id"
  if apiKeyId ≠ .null then some (py.str apiKeyId)
  else if Dict.get data "actor" ≠ .null then some (py.str (Dict.get data "actor"))
  else none

def memoryVersionSessionId (py : Interpreter) (data : Dict) : Option String :=
  let snapshotId := (Dict.get data "snapshot").get "session_id"
  if Dict.get data "session_id" ≠ .null then some (py.str (Dict.get data "session_id"))
  else if snapshotId ≠ .null then some (py.str snapshotId)
  else none

/-- The query parameters of `list_memory_versions`. -/
structure VersionFilter where
  memoryId : Option String := none
  operation : Option String := none
  apiKeyId : Option String := none
  sessionId : Option String := none
  createdAtGte : Option Time := none
  createdAtLte : Option Time := none

def VersionFilter.chooses (filter : VersionFilter) (memory : Resource) : Bool :=
  filter.memoryId.all fun memoryId => memory.id = memoryId

def VersionFilter.keeps (py : Interpreter) (filter : VersionFilter) (version : Resource) :
    Bool :=
  (filter.createdAtGte.all fun bound => bound ≤ version.createdAt) &&
  (filter.createdAtLte.all fun bound => version.createdAt ≤ bound) &&
  (filter.operation.all fun operation =>
    memoryVersionOperation (Dict.get version.data "operation") = operation) &&
  (filter.apiKeyId.all fun apiKeyId =>
    memoryVersionApiKeyId py version.data = some apiKeyId) &&
  (filter.sessionId.all fun sessionId =>
    memoryVersionSessionId py version.data = some sessionId)

def listMemoryVersions (py : Interpreter) (workspaceId storeId : String)
    (filter : VersionFilter) (viewName : Option String) (view : View) :
    Except HTTPException (List Resource) := do
  let _ ← normalizeMemoryView viewName
  raiseIf (filter.operation.any fun operation => operation ∉ MEMORY_VERSION_OPERATIONS)
    ⟨422, "operation must be created, deleted, or modified"⟩
  let _ ← mustExist (view 0) workspaceId storeId .memoryStore none
  let memories := listResources (view 1)
    { memoryQuery workspaceId storeId with includeDeleted := true }
    (MAX_MEMORIES_PER_STORE + 100)
  let versions := (memories.filter filter.chooses).zipIdx.flatMap fun memory =>
    listResources (view (2 + memory.2)) (memoryVersionQuery workspaceId memory.1.id) 1000
  return versions.filter (filter.keeps py)

def retrieveMemoryVersion (workspaceId storeId versionId : String)
    (viewName : Option String) (view : View) : Except HTTPException Resource := do
  let _ ← normalizeMemoryView viewName
  let _ ← mustExist (view 0) workspaceId storeId .memoryStore none
  let (version, _) ← findMemoryVersion view 1 workspaceId storeId versionId
  return version

/-! ## All reads -/

inductive MemoryRead
  | store (storeId : String)
  | memories (storeId : String) (path pathPrefix viewName : Option String)
  | memoryByPath (storeId path : String) (viewName : Option String)
  | memory (storeId memoryId : String) (viewName : Option String)
  | versionsOfMemory (storeId memoryId : String)
  | versionOfMemory (storeId memoryId : String) (version : ℤ)
  | versions (storeId : String) (filter : VersionFilter) (viewName : Option String)
  | versionById (storeId versionId : String) (viewName : Option String)

def MemoryRead.find (py : Interpreter) (workspaceId : String) (view : View) :
    MemoryRead → Except HTTPException (List Resource)
  | .store storeId => do
      let store ← retrieveMemoryStore workspaceId storeId view
      return [store]
  | .memories storeId path pathPrefix viewName =>
      listMemories py workspaceId storeId path pathPrefix viewName view
  | .memoryByPath storeId path viewName => do
      let memory ← retrieveMemoryByPath py workspaceId storeId path viewName view
      return [memory]
  | .memory storeId memoryId viewName => do
      let memory ← retrieveMemory workspaceId storeId memoryId viewName view
      return [memory]
  | .versionsOfMemory storeId memoryId =>
      listMemoryVersionsForMemory workspaceId storeId memoryId view
  | .versionOfMemory storeId memoryId version => do
      let row ← retrieveMemoryVersionForMemory workspaceId storeId memoryId version view
      return [row]
  | .versions storeId filter viewName =>
      listMemoryVersions py workspaceId storeId filter viewName view
  | .versionById storeId versionId viewName => do
      let row ← retrieveMemoryVersion workspaceId storeId versionId viewName view
      return [row]

/-! ## Columns which reads do not look at -/

/-- A change of rows which keeps the columns that queries and filters read. -/
structure KeepsColumns (edit : Resource → Resource) : Prop where
  id : ∀ row, (edit row).id = row.id
  workspaceId : ∀ row, (edit row).workspaceId = row.workspaceId
  resourceType : ∀ row, (edit row).resourceType = row.resourceType
  parentId : ∀ row, (edit row).parentId = row.parentId
  version : ∀ row, (edit row).version = row.version
  name : ∀ row, (edit row).name = row.name
  data : ∀ row, (edit row).data = row.data
  createdAt : ∀ row, (edit row).createdAt = row.createdAt
  deletedAt : ∀ row, (edit row).deletedAt = row.deletedAt

section

variable {edit : Resource → Resource}

theorem KeepsColumns.selects
    (hkeeps : KeepsColumns edit) {query : ResourceQuery}
    (hquery : query.includeArchived = true)
    (row : Resource) : query.selects (edit row) = query.selects row := by
  simp [ResourceQuery.selects, hquery, hkeeps.resourceType, hkeeps.workspaceId,
    hkeeps.deletedAt, hkeeps.parentId]

theorem filter_map_same
    {selected : Resource → Bool} (hsame : ∀ row, selected (edit row) = selected row)
    (rows : List Resource) :
    (rows.map edit).filter selected = (rows.filter selected).map edit := by
  rw [List.filter_map]
  congr 1
  exact List.filter_congr fun row _ => hsame row

theorem KeepsColumns.getResource_eq
    (hkeeps : KeepsColumns edit) {query : ResourceQuery}
    (hquery : query.includeArchived = true)
    (rows : List Resource) (resourceId : String) :
    getResource (rows.map edit) resourceId query =
      (getResource rows resourceId query).map edit := by
  unfold getResource
  rw [List.find?_map]
  congr 2
  funext row
  simp [hkeeps.id, hkeeps.selects hquery]

theorem KeepsColumns.mustExist_eq
    (hkeeps : KeepsColumns edit) (rows : List Resource) (workspaceId resourceId : String)
    (resourceType : ResourceType) (parentId : Option String) :
    mustExist (rows.map edit) workspaceId resourceId resourceType parentId =
      (mustExist rows workspaceId resourceId resourceType parentId).map edit := by
  unfold mustExist
  rw [hkeeps.getResource_eq rfl]
  cases getResource rows resourceId
    { resourceType := resourceType, workspaceId := workspaceId, parentId := parentId } <;>
      rfl

theorem scalarOneOrNone_map (rows : List Resource) :
    scalarOneOrNone (rows.map edit) = (scalarOneOrNone rows).map (Option.map edit) := by
  match rows with
  | [] => rfl
  | [row] => rfl
  | _ :: _ :: _ => rfl

theorem KeepsColumns.findMemoryByPath_eq
    (hkeeps : KeepsColumns edit) (rows : List Resource)
    (workspaceId storeId key : String) :
    findMemoryByPath (rows.map edit) workspaceId storeId key =
      (findMemoryByPath rows workspaceId storeId key).map (Option.map edit) := by
  unfold findMemoryByPath getResourceByName
  rw [filter_map_same, scalarOneOrNone_map]
  intro row
  have hselects :=
    @KeepsColumns.selects _ hkeeps (memoryQuery workspaceId storeId) rfl row
  simp [hkeeps.name, hselects]

theorem KeepsColumns.getResourceVersion_eq
    (hkeeps : KeepsColumns edit) {query : ResourceQuery}
    (hquery : query.includeArchived = true)
    (rows : List Resource) (version : ℤ) :
    getResourceVersion (rows.map edit) query version =
      (getResourceVersion rows query version).map (Option.map edit) := by
  unfold getResourceVersion
  rw [filter_map_same, scalarOneOrNone_map]
  intro row
  simp [hkeeps.version, hkeeps.selects hquery]

theorem KeepsColumns.listResources_eq
    (hkeeps : KeepsColumns edit) {query : ResourceQuery}
    (hquery : query.includeArchived = true)
    (rows : List Resource) (limit : ℕ) :
    listResources (rows.map edit) query limit =
      (listResources rows query limit).map edit := by
  unfold listResources NewestPage.page
  have hage : ∀ row, (edit row).age = row.age := by
    intro row
    simp [ManagedResource.age, hkeeps.id, hkeeps.createdAt]
  rw [filter_map_same (hkeeps.selects hquery), List.map_take]
  congr 1
  refine (List.map_insertionSort _ _ edit _ ?_).symm
  intro first _ second _
  rw [hage, hage]

theorem KeepsColumns.listResourcesByNamePrefix_eq
    (hkeeps : KeepsColumns edit) {query : ResourceQuery}
    (hquery : query.includeArchived = true)
    (rows : List Resource) (namePrefix : String) (limit : ℕ) :
    listResourcesByNamePrefix (rows.map edit) query namePrefix limit =
      (listResourcesByNamePrefix rows query namePrefix limit).map edit := by
  unfold listResourcesByNamePrefix
  rw [filter_map_same, hkeeps.listResources_eq hquery]
  intro row
  simp [namePrefixed, hkeeps.name]

theorem KeepsColumns.memoriesUnder_eq
    (hkeeps : KeepsColumns edit) (py : Interpreter) (rows : List Resource)
    (workspaceId storeId pathPrefix : String) :
    memoriesUnder py (rows.map edit) workspaceId storeId pathPrefix =
      (memoriesUnder py rows workspaceId storeId pathPrefix).map (List.map edit) := by
  unfold memoriesUnder
  refine bind_eq_map fun normalized => ?_
  split
  · rw [hkeeps.listResources_eq rfl]
    rfl
  · rw [hkeeps.listResourcesByNamePrefix_eq rfl]
    rfl

theorem KeepsColumns.keepUnder_eq
    (hkeeps : KeepsColumns edit) (py : Interpreter) (memories : List Resource)
    (pathPrefix : String) :
    keepUnder py (memories.map edit) pathPrefix =
      (keepUnder py memories pathPrefix).map (List.map edit) := by
  unfold keepUnder
  refine bind_eq_map fun normalized => ?_
  dsimp only
  split
  · rfl
  · rw [filter_map_same]
    · rfl
    · intro row
      simp [hkeeps.name]

theorem KeepsColumns.listMemories_eq
    (hkeeps : KeepsColumns edit) (py : Interpreter) (workspaceId storeId : String)
    (path pathPrefix viewName : Option String) (view : View) :
    listMemories py workspaceId storeId path pathPrefix viewName
        (fun query => (view query).map edit) =
      (listMemories py workspaceId storeId path pathPrefix viewName view).map
        (List.map edit) := by
  unfold listMemories
  refine bind_eq_map fun _ => ?_
  rw [hkeeps.mustExist_eq]
  refine map_bind_eq_map fun _ => ?_
  cases path with
  | none =>
      cases pathPrefix with
      | none =>
          dsimp only
          rw [hkeeps.listResources_eq rfl]
          rfl
      | some under => exact hkeeps.memoriesUnder_eq py (view 1) workspaceId storeId under
  | some path =>
      refine bind_eq_map fun normalized => ?_
      rw [hkeeps.findMemoryByPath_eq]
      refine map_bind_eq_map fun found => ?_
      have htoList : (found.map edit).toList = found.toList.map edit := by
        cases found <;> rfl
      cases pathPrefix with
      | none => exact congrArg Except.ok htoList
      | some under =>
          dsimp only
          rw [htoList]
          exact hkeeps.keepUnder_eq py found.toList under

theorem KeepsColumns.retrieveMemoryByPath_eq
    (hkeeps : KeepsColumns edit) (py : Interpreter) (workspaceId storeId path : String)
    (viewName : Option String) (view : View) :
    retrieveMemoryByPath py workspaceId storeId path viewName
        (fun query => (view query).map edit) =
      (retrieveMemoryByPath py workspaceId storeId path viewName view).map edit := by
  unfold retrieveMemoryByPath
  refine bind_eq_map fun _ => ?_
  rw [hkeeps.mustExist_eq]
  refine map_bind_eq_map fun _ => ?_
  refine bind_eq_map fun normalized => ?_
  rw [hkeeps.findMemoryByPath_eq]
  refine map_bind_eq_map fun found => ?_
  cases found <;> rfl

theorem KeepsColumns.retrieveMemory_eq
    (hkeeps : KeepsColumns edit) (workspaceId storeId memoryId : String)
    (viewName : Option String) (view : View) :
    retrieveMemory workspaceId storeId memoryId viewName
        (fun query => (view query).map edit) =
      (retrieveMemory workspaceId storeId memoryId viewName view).map edit := by
  unfold retrieveMemory
  refine bind_eq_map fun _ => ?_
  exact hkeeps.mustExist_eq ..

theorem KeepsColumns.listMemoryVersionsForMemory_eq
    (hkeeps : KeepsColumns edit) (workspaceId storeId memoryId : String) (view : View) :
    listMemoryVersionsForMemory workspaceId storeId memoryId
        (fun query => (view query).map edit) =
      (listMemoryVersionsForMemory workspaceId storeId memoryId view).map
        (List.map edit) := by
  unfold listMemoryVersionsForMemory
  rw [hkeeps.mustExist_eq]
  refine map_bind_eq_map fun _ => ?_
  rw [hkeeps.listResources_eq rfl]
  rfl

theorem KeepsColumns.retrieveMemoryVersionForMemory_eq
    (hkeeps : KeepsColumns edit) (workspaceId storeId memoryId : String) (version : ℤ)
    (view : View) :
    retrieveMemoryVersionForMemory workspaceId storeId memoryId version
        (fun query => (view query).map edit) =
      (retrieveMemoryVersionForMemory workspaceId storeId memoryId version view).map edit := by
  unfold retrieveMemoryVersionForMemory
  rw [hkeeps.mustExist_eq]
  refine map_bind_eq_map fun _ => ?_
  rw [hkeeps.getResourceVersion_eq rfl]
  refine map_bind_eq_map fun found => ?_
  cases found <;> rfl

theorem KeepsColumns.listMemoryVersions_eq
    (hkeeps : KeepsColumns edit) (py : Interpreter) (workspaceId storeId : String)
    (filter : VersionFilter) (viewName : Option String) (view : View) :
    listMemoryVersions py workspaceId storeId filter viewName
        (fun query => (view query).map edit) =
      (listMemoryVersions py workspaceId storeId filter viewName view).map
        (List.map edit) := by
  unfold listMemoryVersions
  refine bind_eq_map fun _ => ?_
  refine bind_eq_map fun _ => ?_
  rw [hkeeps.mustExist_eq]
  refine map_bind_eq_map fun _ => ?_
  have hchooses : ∀ memory, filter.chooses (edit memory) = filter.chooses memory := by
    intro memory
    simp [VersionFilter.chooses, hkeeps.id]
  have hfilter : ∀ version, filter.keeps py (edit version) = filter.keeps py version := by
    intro version
    simp [VersionFilter.keeps, hkeeps.createdAt, hkeeps.data]
  have hversions : ∀ (memory : Resource) (query : ℕ),
      listResources ((view query).map edit)
        (memoryVersionQuery workspaceId (edit memory).id)
          1000 =
        (listResources (view query) (memoryVersionQuery workspaceId memory.id) 1000).map
          edit := by
    intro memory query
    rw [hkeeps.id, hkeeps.listResources_eq rfl]
  dsimp only
  rw [hkeeps.listResources_eq rfl, filter_map_same hchooses, List.zipIdx_map,
    List.flatMap_map]
  simp only [Prod.map_fst, Prod.map_snd, id_eq, hversions]
  rw [← List.map_flatMap, filter_map_same hfilter]
  rfl

theorem KeepsColumns.findMemoryVersion_eq
    (hkeeps : KeepsColumns edit) (query : ℕ) (workspaceId storeId versionId : String)
    (view : View) :
    findMemoryVersion (fun query => (view query).map edit) query workspaceId storeId
        versionId =
      (findMemoryVersion view query workspaceId storeId versionId).map
        (Prod.map edit edit) := by
  unfold findMemoryVersion
  rw [hkeeps.getResource_eq rfl]
  cases getResource (view query) versionId
      { resourceType := .memoryVersion, workspaceId := workspaceId } with
  | none => rfl
  | some version =>
      simp only [Option.map_some, hkeeps.parentId]
      rw [hkeeps.getResource_eq rfl]
      cases getResource (view (query + 1)) (version.parentId.getD "")
        { memoryQuery workspaceId storeId with includeDeleted := true } <;> rfl

theorem KeepsColumns.retrieveMemoryVersion_eq
    (hkeeps : KeepsColumns edit) (workspaceId storeId versionId : String)
    (viewName : Option String) (view : View) :
    retrieveMemoryVersion workspaceId storeId versionId viewName
        (fun query => (view query).map edit) =
      (retrieveMemoryVersion workspaceId storeId versionId viewName view).map edit := by
  unfold retrieveMemoryVersion
  refine bind_eq_map fun _ => ?_
  rw [hkeeps.mustExist_eq]
  refine map_bind_eq_map fun _ => ?_
  rw [hkeeps.findMemoryVersion_eq]
  exact map_bind_eq_map fun _ => rfl

/-- The answers of reads are changed like the rows. -/
theorem KeepsColumns.find_eq
    (hkeeps : KeepsColumns edit) (py : Interpreter) (workspaceId : String) (view : View)
    (read : MemoryRead) :
    read.find py workspaceId (fun query => (view query).map edit) =
      (read.find py workspaceId view).map (List.map edit) := by
  cases read with
  | store storeId =>
      simp only [MemoryRead.find, retrieveMemoryStore]
      rw [hkeeps.mustExist_eq]
      exact map_bind_eq_map fun _ => rfl
  | memories storeId path pathPrefix viewName => exact hkeeps.listMemories_eq ..
  | memoryByPath storeId path viewName =>
      simp only [MemoryRead.find]
      rw [hkeeps.retrieveMemoryByPath_eq]
      exact map_bind_eq_map fun _ => rfl
  | memory storeId memoryId viewName =>
      simp only [MemoryRead.find]
      rw [hkeeps.retrieveMemory_eq]
      exact map_bind_eq_map fun _ => rfl
  | versionsOfMemory storeId memoryId => exact hkeeps.listMemoryVersionsForMemory_eq ..
  | versionOfMemory storeId memoryId version =>
      simp only [MemoryRead.find]
      rw [hkeeps.retrieveMemoryVersionForMemory_eq]
      exact map_bind_eq_map fun _ => rfl
  | versions storeId filter viewName => exact hkeeps.listMemoryVersions_eq ..
  | versionById storeId versionId viewName =>
      simp only [MemoryRead.find]
      rw [hkeeps.retrieveMemoryVersion_eq]
      exact map_bind_eq_map fun _ => rfl

end

end ManagedAgents
