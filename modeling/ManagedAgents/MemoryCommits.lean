import ManagedAgents.MemoryHistory

/-!
# What a memory request commits

A committed request adds or writes a store, adds a memory with its first
version, takes a live memory on by one version, or redacts an older version.
A request that adds a version has read the current row of its memory: the
number of the version was free.
-/

namespace ManagedAgents

open Fallible LabelledRuns ReadCommitted

/-- The rows a request sees and commits on are those of a run. -/
structure Seen (view : View) (current : List Resource) : Prop where
  views : ∀ query, MemoryRows (view query)
  later : ∀ first second, first ≤ second → EarlierRows (view first) (view second)
  kept : ∀ query, EarlierRows (view query) current
  rows : MemoryRows current

/-! ## The kinds of commits -/

/-- A request to create a memory inserts it with its first version. -/
structure Creation (py : Interpreter) (call : MemoryCall) (view : View)
    (current : List Resource) (memory version : Resource) : Prop where
  request : ∃ storeId body viewName key,
    call.request = .create storeId body viewName ∧
      memoryPayload py (call.supply.clock 0) body.modelDump = .ok memory.data ∧
      ensureMemoryStoreCapacity (view 1) call.workspaceId storeId = .ok () ∧
      findMemoryByPath (view 2) call.workspaceId storeId key = .ok none ∧
      memory.parentId = some storeId ∧ memory.name = some key ∧
      Dict.get memory.data "path_key" = .str key
  fresh : ∀ other ∈ current, other.id ≠ memory.id
  versionFresh : ∀ other ∈ current ++ [memory], other.id ≠ version.id
  resourceType : memory.resourceType = .memory
  workspaceId : memory.workspaceId = call.workspaceId
  live : memory.deletedAt = none
  store : HasParent current .memoryStore memory
  inserted : InsertedVersion memory version 1 "created"
  versionId : version.id = call.supply.newId .memoryVersion 1
  versionData : ∃ actor,
    version.data = memoryVersionData memory 1 actor "created" memory.data

/-- A request to update a memory writes the row it read and inserts a version. -/
structure Update (py : Interpreter) (call : MemoryCall) (view : View)
    (current : List Resource) (before after version : Resource) : Prop where
  request : ∃ storeId memoryId body viewName key,
    call.request = .update storeId memoryId body viewName ∧
      mustExist (view 0) call.workspaceId memoryId .memory (some storeId) = .ok before ∧
      checkMemoryVersion py (expectedMemoryVersion body) before.data = .ok () ∧
      contentPreconditionStale (Dict.get body.modelDump "precondition") before.data =
        false ∧
      mergeMemoryData py (call.supply.clock 0) before.data (memoryUpdate body) =
        .ok after.data ∧
      memoryHasMaterialChange before.data after.data = true ∧
      checkMemoryPath (view 1) call.workspaceId storeId before.id before.data after.data =
        .ok () ∧
      after.name = some key ∧ Dict.get after.data "path_key" = .str key
  advance : Advance current before after version
  live : after.deletedAt = none
  versionId : version.id = call.supply.newId .memoryVersion 0
  versionData : ∃ actor, version.data =
    memoryVersionData before (versionNumber before + 1) actor "modified" after.data

/-- A request to delete a memory marks the row it read and inserts a version. -/
structure Deletion (py : Interpreter) (call : MemoryCall) (view : View)
    (current : List Resource) (before after version : Resource) : Prop where
  request : ∃ storeId memoryId expected,
    call.request = .delete storeId memoryId expected ∧
      mustExist (view 1) call.workspaceId memoryId .memory (some storeId) = .ok before ∧
      (expected.any fun digest =>
        !Json.equal (.str digest) (Dict.get before.data "content_sha256")) = false
  advance : Advance current before after version
  deleted : after.deletedAt ≠ none
  data : ∀ key ∉ ["version", "updated_by", "updated_at", "memory_version_id"],
    Dict.get after.data key = Dict.get before.data key
  versionData : Dict.get version.data "operation" = .str "deleted"

/-- A request to redact a version writes a version which is not the last one
of a live memory. -/
structure Redaction (current : List Resource) (before after : Resource) : Prop where
  row : RedactedRow current before after
  data : after.data = before.data ∨ Dict.get after.data "redacted" = .bool true

inductive MemoryCommit (py : Interpreter) (call : MemoryCall) (view : View)
    (current : List Resource) : List Resource → Prop
  | storeAdded (store : Resource) (hrequest : call.request.addsVersion = false)
      (hfresh : ∀ other ∈ current, other.id ≠ store.id)
      (htype : store.resourceType = .memoryStore) :
      MemoryCommit py call view current (current ++ [store])
  | storeWritten (store written : Resource)
      (hrequest : call.request.addsVersion = false) (hstore : store ∈ current)
      (htype : store.resourceType = .memoryStore) (hfollows : Follows store written) :
      MemoryCommit py call view current (replaceRow current written)
  | created (memory version : Resource)
      (hcreation : Creation py call view current memory version) :
      MemoryCommit py call view current (current ++ [memory] ++ [version])
  | updated (before after version : Resource)
      (hupdate : Update py call view current before after version) :
      MemoryCommit py call view current (replaceRow current after ++ [version])
  | deleted (before after version : Resource)
      (hdeletion : Deletion py call view current before after version) :
      MemoryCommit py call view current (replaceRow current after ++ [version])
  | redacted (before after : Resource) (hrequest : call.request.addsVersion = false)
      (hredaction : Redaction current before after) :
      MemoryCommit py call view current (replaceRow current after)

theorem Creation.rows
    {py : Interpreter} {call : MemoryCall} {view : View} {current : List Resource}
    {memory version : Resource} (hrows : MemoryRows current)
    (hcreation : Creation py call view current memory version) :
    MemoryRows (current ++ [memory] ++ [version]) := by
  obtain ⟨storeId, body, viewName, key, -, hdata, -, -, -, hname, hkey⟩ :=
    hcreation.request
  obtain ⟨actor, hversion⟩ := hcreation.versionData
  refine hrows.append_memory hcreation.fresh hcreation.versionFresh hcreation.resourceType
    hcreation.live (memoryPayload_created hdata).version ⟨key, hkey, hname⟩
    hcreation.store
    hcreation.inserted ?_
  rw [hversion]
  exact (memoryVersionData_get memory 1 actor "created" memory.data).2.2.1

theorem MemoryCommit.rows
    {py : Interpreter} {call : MemoryCall} {view : View} {current next : List Resource}
    (hrows : MemoryRows current) (hcommitted : MemoryCommit py call view current next) :
    MemoryRows next := by
  cases hcommitted with
  | storeAdded store hrequest hfresh htype => exact hrows.append_store hfresh htype
  | storeWritten store written hrequest hstore htype hfollows =>
      exact hrows.replace_store hstore htype hfollows
  | created memory version hcreation => exact hcreation.rows hrows
  | updated before after version hupdate => exact hupdate.advance.rows hrows
  | deleted before after version hdeletion => exact hdeletion.advance.rows hrows
  | redacted before after hrequest hredaction => exact hredaction.row.rows hrows

theorem MemoryCommit.earlier
    {py : Interpreter} {call : MemoryCall} {view : View} {current next : List Resource}
    (hrows : MemoryRows current) (hcommitted : MemoryCommit py call view current next) :
    EarlierRows current next := by
  cases hcommitted with
  | storeAdded store hrequest hfresh htype => exact EarlierRows.append _ _
  | storeWritten store written hrequest hstore htype hfollows =>
      exact EarlierRows.replaceRow hrows.ids hstore hfollows
  | created memory version hcreation =>
      rw [List.append_assoc]
      exact EarlierRows.append _ _
  | updated before after version hupdate => exact hupdate.advance.earlier hrows
  | deleted before after version hdeletion => exact hdeletion.advance.earlier hrows
  | redacted before after hrequest hredaction => exact hredaction.row.earlier hrows

/-! ## Rows that were read -/

theorem ne_id_of_conflicts
    {row other : Resource} (hfree : conflicts row other = false) : other.id ≠ row.id := by
  intro hid
  simp [conflicts, hid] at hfree

theorem mustExist_found
    {rows : List Resource} {workspaceId resourceId : String}
    {resourceType : ResourceType} {parentId : Option String} {row : Resource}
    (hrow : mustExist rows workspaceId resourceId resourceType parentId = .ok row) :
    row ∈ rows ∧ row.id = resourceId ∧ row.resourceType = resourceType ∧
      row.workspaceId = workspaceId ∧ row.deletedAt = none ∧
      (parentId = none ∨ row.parentId = parentId) := by
  obtain ⟨hmem, hid, hselects⟩ := getResource_eq_some (mustExist_eq_ok.mp hrow)
  simp only [ResourceQuery.selects, decide_eq_true_eq] at hselects
  obtain ⟨htype, hworkspace, hdeleted, hparent, -⟩ := hselects
  exact ⟨hmem, hid, htype, hworkspace, by simpa using hdeleted, hparent⟩

/-- A store that was read is still there. -/
theorem Seen.store_kept
    {view : View} {current : List Resource} (hseen : Seen view current) {query : ℕ}
    {workspaceId storeId : String} {parentId : Option String} {store : Resource}
    (hstore : mustExist (view query) workspaceId storeId .memoryStore parentId =
      .ok store) :
    ∃ later ∈ current, later.id = storeId ∧ later.resourceType = .memoryStore ∧
      later.workspaceId = workspaceId := by
  obtain ⟨hmem, hid, htype, hworkspace, -, -⟩ := mustExist_found hstore
  obtain ⟨later, hlater, hfollows⟩ := hseen.kept query store hmem
  exact ⟨later, hlater, hfollows.id.trans hid, hfollows.resourceType.trans htype,
    hfollows.workspaceId.trans hworkspace⟩

/-- The row of a memory is now the one that was read, or has gone on. -/
theorem Seen.memory_kept
    {view : View} {current : List Resource} (hseen : Seen view current) {query : ℕ}
    {memory later : Resource} (hmemory : memory ∈ view query)
    (htype : memory.resourceType = .memory) (hlater : later ∈ current)
    (hid : later.id = memory.id) :
    later = memory ∨ versionNumber memory < versionNumber later ∧
      (memory.deletedAt ≠ none → later.deletedAt ≠ none) := by
  obtain ⟨found, hfound, hfollows⟩ := hseen.kept query memory hmemory
  obtain rfl := List.inj_on_of_nodup_map hseen.rows.ids hfound hlater
    (hfollows.id.trans hid.symm)
  exact hfollows.memory htype

/-- A memory whose next version number is free has not changed since. -/
theorem Seen.memory_current
    {view : View} {current : List Resource} (hseen : Seen view current) {query : ℕ}
    {memory version : Resource} (hmemory : memory ∈ view query)
    (htype : memory.resourceType = .memory)
    (hversionType : version.resourceType = .memoryVersion)
    (hparent : version.parentId = some memory.id)
    (hnumber : version.version = some (versionNumber memory + 1))
    (hfree : ∀ other ∈ current, conflicts version other = false) : memory ∈ current := by
  obtain ⟨later, hlater, hfollows⟩ := hseen.kept query memory hmemory
  rcases hfollows.memory htype with rfl | ⟨hlt, -⟩
  · exact hlater
  · have hhistory := hseen.rows.memories later hlater (hfollows.resourceType.trans htype)
    have hpos := ((hseen.views query).memories memory hmemory htype).versionNumber_pos
    obtain ⟨taken, htaken, htakenNumber⟩ :=
      hhistory.exists_version (by omega : 1 ≤ versionNumber memory + 1) hlt
    obtain ⟨htakenMem, htakenType, htakenParent⟩ := mem_versionsOf.mp htaken
    have hconflict : conflicts version taken = true := by
      simp [conflicts, hversionType, htakenType, hparent, htakenParent, hnumber,
        htakenNumber, hfollows.id]
    rw [hfree taken htakenMem] at hconflict
    cases hconflict

/-! ## Creations -/

theorem createMemory_committed
    {py : Interpreter} {call : MemoryCall} {view : View} {current next : List Resource}
    {storeId : String} {body : MemoryCreateRequest} {viewName : Option String}
    {outcome : Outcome} (hseen : Seen view current)
    (hrequest : call.request = .create storeId body viewName)
    (houtcome : createMemory py call.supply call.workspaceId storeId body viewName view =
      .ok outcome)
    (hcommit : commit current outcome.statements = some next) :
    MemoryCommit py call view current next := by
  unfold createMemory at houtcome
  simp only [bind_eq_ok, pure_eq_ok, raiseIf_eq_ok, ne_eq, not_not] at houtcome
  obtain ⟨-, -, store, hstore, ⟨⟩, hroom, data, hdata, key, hkey, _, hfound, -, rfl,
    rfl⟩ :=
    houtcome
  unfold mustWriteMemoryStore at hstore
  simp only [bind_eq_ok, pure_eq_ok, raiseIf_eq_ok] at hstore
  obtain ⟨found, hexists, -⟩ := hstore
  obtain ⟨later, hlater, hid, htype, hworkspace⟩ := hseen.store_kept hexists
  rw [memoryPathKey_eq_ok] at hkey
  simp only [insertMemory, updateResource, Dict.equal_self, if_true, createResource,
    commit_insert, commit_update, updateRow_nothing, commit_nil, Option.some.injEq]
    at hcommit
  obtain ⟨hfresh, hversionFresh, rfl⟩ := hcommit
  refine .created _ _ ?_
  exact
    { request :=
        ⟨storeId, body, viewName, key, hrequest, hdata, hroom, hfound, rfl, rfl, hkey⟩
      fresh := fun other hother => ne_id_of_conflicts (hfresh other hother)
      versionFresh := fun other hother => ne_id_of_conflicts (hversionFresh other hother)
      resourceType := rfl
      workspaceId := rfl
      live := rfl
      store := ⟨later, hlater, htype, congrArg some hid.symm, hworkspace.symm⟩
      inserted :=
        ⟨rfl, rfl, rfl, rfl, (memoryVersionData_get ..).1, (memoryVersionData_get ..).2.1⟩
      versionId := rfl
      versionData := ⟨_, rfl⟩ }

/-! ## Updates -/

theorem History.storedMemoryVersion_eq
    {py : Interpreter} {rows : List Resource} {memory : Resource}
    (hhistory : History rows memory) :
    storedMemoryVersion py memory.data = .ok (versionNumber memory) := by
  have hpos := hhistory.versionNumber_pos
  have htruthy : versionNumber memory ≠ 0 := by omega
  simp [storedMemoryVersion, hhistory.stored, Json.or, Json.truthy, htruthy]

theorem conflicts_write
    {row other : Resource} {columns : Columns} :
    conflicts row (columns.write other) = conflicts row other := rfl

theorem conflicts_updateRow
    {rows : List Resource} {row : Resource} {resourceId : String} {columns : Columns} :
    (∀ other ∈ updateRow rows resourceId columns, conflicts row other = false) ↔
      ∀ other ∈ rows, conflicts row other = false := by
  unfold updateRow
  rw [List.forall_mem_map]
  apply forall₂_congr
  intro other _
  by_cases hid : other.id = resourceId <;> simp [hid, conflicts_write]

theorem follows_next
    {memory after : Resource}
    (hnumber : Dict.get after.data "version" = .int (versionNumber memory + 1))
    (hlive : memory.deletedAt = none) (hid : after.id = memory.id)
    (hresourceType : after.resourceType = memory.resourceType)
    (hworkspace : after.workspaceId = memory.workspaceId)
    (hparent : after.parentId = memory.parentId)
    (hversion : after.version = memory.version)
    (htype : memory.resourceType = .memory) : Follows memory after where
  id := hid
  resourceType := hresourceType
  workspaceId := hworkspace
  parentId := hparent
  version := hversion
  memory := by
    intro _
    refine Or.inr ⟨?_, fun hdeleted => absurd hlive hdeleted⟩
    rw [versionNumber_of_get hnumber]
    exact Int.lt_succ _
  operation := by
    intro hother
    rw [htype] at hother
    cases hother

/-- The write of a changed memory goes through only on the row that was read. -/
theorem writeMemory_advance
    {py : Interpreter} {supply : Supply} {view : View} {current next : List Resource}
    {query : ℕ} {memory : Resource} {data : Dict} {outcome : Outcome}
    (hseen : Seen view current) (hmem : memory ∈ view query)
    (htype : memory.resourceType = .memory) (hlive : memory.deletedAt = none)
    (hnumber : Dict.get data "version" = .int (versionNumber memory + 1))
    (hwrite : writeMemory py supply memory.workspaceId memory data = .ok outcome)
    (hcommit : commit current outcome.statements = some next) :
    ∃ key version, Dict.get data "path_key" = .str key ∧
      Advance current memory { memory with data := data, name := some key } version ∧
      next = replaceRow current { memory with data := data, name := some key } ++
        [version] ∧
      version.id = supply.newId .memoryVersion 0 ∧
      ∃ actor, version.data =
        memoryVersionData memory (versionNumber memory + 1) actor "modified" data := by
  unfold writeMemory at hwrite
  simp only [bind_eq_ok, pure_eq_ok, hnumber, toInt_int, Except.ok.injEq] at hwrite
  obtain ⟨key, hkey, _, rfl, rfl⟩ := hwrite
  rw [memoryPathKey_eq_ok] at hkey
  have hstored := ((hseen.views query).memories memory hmem htype).stored
  have hchanged : Dict.equal data memory.data = false :=
    Dict.equal_of_int_ne hnumber hstored (by omega)
  simp only [updateResource, Dict.equal_self, if_true, Option.some_or, commit_insert,
    commit_update, updateRow_nothing, commit_nil, Option.some.injEq, hchanged,
    Bool.false_eq_true, if_false, conflicts_updateRow] at hcommit
  obtain ⟨hfree, rfl⟩ := hcommit
  have hcurrent := hseen.memory_current hmem htype rfl rfl rfl hfree
  have hwritten : updateRow current memory.id
      { data := some data, name := if some key = memory.name then none else some key } =
        replaceRow current { memory with data := data, name := some key } := by
    rw [updateRow_eq_replaceRow hseen.rows.ids hcurrent]
    congr 1
    by_cases hname : some key = memory.name <;> simp [Columns.write, hname]
  refine ⟨key, _, hkey, ?_, congrArg (· ++ _) hwritten, rfl, _, rfl⟩
  exact
    { mem := hcurrent
      resourceType := htype
      live := hlive
      follows := follows_next hnumber hlive rfl rfl rfl rfl rfl htype
      versionFresh := fun other hother => ne_id_of_conflicts (hfree other hother)
      inserted :=
        { resourceType := rfl
          parentId := rfl
          workspaceId := rfl
          column := rfl
          number := (memoryVersionData_get ..).1
          operation := by
            rw [hlive]
            exact (memoryVersionData_get ..).2.1 }
      number := hnumber
      key := ⟨key, hkey, rfl⟩
      snapshot := fun _ => (memoryVersionData_get ..).2.2.1 }

theorem updateMemory_committed
    {py : Interpreter} {call : MemoryCall} {view : View} {current next : List Resource}
    {storeId memoryId : String} {body : MemoryUpdateRequest} {viewName : Option String}
    {outcome : Outcome} (hseen : Seen view current)
    (hrequest : call.request = .update storeId memoryId body viewName)
    (houtcome : updateMemory py call.supply call.workspaceId storeId memoryId body viewName
      view = .ok outcome)
    (hwrites : outcome.statements ≠ [])
    (hcommit : commit current outcome.statements = some next) :
    MemoryCommit py call view current next := by
  unfold updateMemory at houtcome
  simp only [bind_eq_ok] at houtcome
  obtain ⟨_, -, memory, hexists, ⟨⟩, hchecked, houtcome⟩ := houtcome
  obtain ⟨hmem, -, htype, hworkspace, hlive, hparent⟩ := mustExist_found hexists
  have hhistory := (hseen.views 0).memories memory hmem htype
  split at houtcome
  · simp only [answerStaleContent, bind_eq_ok, pure_eq_ok] at houtcome
    obtain ⟨-, -, -, -, rfl⟩ := houtcome
    exact absurd rfl hwrites
  next hfresh =>
    obtain ⟨data, hdata, houtcome⟩ := bind_eq_ok.mp houtcome
    split at houtcome
    next hmaterial =>
      obtain ⟨⟨⟩, hpath, hwrite⟩ := bind_eq_ok.mp houtcome
      obtain ⟨number, hstored, hnumber⟩ := (mergeMemoryData_merged hdata).version
      rw [hhistory.storedMemoryVersion_eq, Except.ok.injEq] at hstored
      subst hstored
      rw [← hworkspace] at hwrite
      obtain ⟨key, version, hkey, hadvance, rfl, hid, hversion⟩ :=
        writeMemory_advance hseen hmem htype hlive hnumber hwrite hcommit
      rw [Bool.not_eq_true] at hfresh
      exact .updated memory _ version
        { request := ⟨storeId, memoryId, body, viewName, key, hrequest, hexists, hchecked,
            hfresh, hdata, hmaterial, hpath, rfl, hkey⟩
          advance := hadvance
          live := hlive
          versionId := hid
          versionData := hversion }
    · rw [pure_eq_ok] at houtcome
      subst houtcome
      exact absurd rfl hwrites

/-! ## Deletions -/

theorem updateRow_append
    {rows : List Resource} {row : Resource} {resourceId : String} {columns : Columns}
    (hne : row.id ≠ resourceId) :
    updateRow (rows ++ [row]) resourceId columns =
      updateRow rows resourceId columns ++ [row] := by
  simp [updateRow, hne]

theorem updateRow_updateRow
    {rows : List Resource} {row : Resource} {first second : Columns}
    (hids : (rows.map ManagedResource.id).Nodup) (hrow : row ∈ rows) :
    updateRow (updateRow rows row.id first) row.id second =
      replaceRow rows (second.write (first.write row)) := by
  unfold updateRow replaceRow
  rw [List.map_map]
  apply List.map_congr_left
  intro other hother
  by_cases hid : other.id = row.id
  · obtain rfl := List.inj_on_of_nodup_map hids hother hrow hid
    simp [Columns.write]
  · have hne : ¬other.id = (second.write (first.write row)).id := hid
    simp [hid, hne]

theorem removeMemory_advance
    {py : Interpreter} {supply : Supply} {view : View} {current next : List Resource}
    {query : ℕ} {memory : Resource} {data : Dict} {outcome : Outcome}
    (hseen : Seen view current) (hmem : memory ∈ view query)
    (htype : memory.resourceType = .memory) (hlive : memory.deletedAt = none)
    (hnumber : Dict.get data "version" = .int (versionNumber memory + 1))
    (hkeys : Dict.get data "path_key" = Dict.get memory.data "path_key")
    (hwrite : removeMemory py supply memory.workspaceId memory data = .ok outcome)
    (hcommit : commit current outcome.statements = some next) :
    ∃ after version, Advance current memory after version ∧
      next = replaceRow current after ++ [version] ∧ after.deletedAt ≠ none ∧
      (∃ pointer, after.data = Dict.set data "memory_version_id" pointer) ∧
      Dict.get version.data "operation" = .str "deleted" := by
  unfold removeMemory at hwrite
  simp only [bind_eq_ok, pure_eq_ok, hnumber, toInt_int, Except.ok.injEq] at hwrite
  obtain ⟨_, rfl, rfl⟩ := hwrite
  have hhistory := (hseen.views query).memories memory hmem htype
  simp only [commit_insert, updateResource, deleteResource, commit_update, commit_nil,
    Option.some.injEq] at hcommit
  obtain ⟨hfree, rfl⟩ := hcommit
  have hcurrent := hseen.memory_current hmem htype rfl rfl rfl hfree
  have hne := (ne_id_of_conflicts (hfree memory hcurrent)).symm
  have hpointed :
      ∀ pointer, Dict.get (Dict.set data "memory_version_id" pointer) "version" =
      .int (versionNumber memory + 1) := by
    intro pointer
    rw [Dict.get_set_other _ (by decide), hnumber]
  have hchanged := fun pointer =>
    Dict.equal_of_int_ne (hpointed pointer) hhistory.stored (by omega)
  rw [updateRow_append hne, updateRow_append hne,
    updateRow_updateRow hseen.rows.ids hcurrent]
  obtain ⟨key, hkey, hname⟩ := hhistory.key
  refine ⟨_, _, ?_, rfl, ?_, ⟨_, by simp [Columns.write, hchanged]; rfl⟩,
    (memoryVersionData_get ..).2.1⟩
  · exact
      { mem := hcurrent
        resourceType := htype
        live := hlive
        follows := follows_next (by simp [Columns.write, hchanged, hpointed]) hlive
          rfl rfl rfl rfl rfl htype
        versionFresh := fun other hother => ne_id_of_conflicts (hfree other hother)
        inserted :=
          { resourceType := rfl
            parentId := rfl
            workspaceId := rfl
            column := rfl
            number := (memoryVersionData_get ..).1
            operation := by
              simp only [Columns.write, Option.some_or, Option.isSome_some]
              exact (memoryVersionData_get ..).2.1 }
        number := by simp [Columns.write, hchanged, hpointed]
        key := ⟨key, by simp [Columns.write, hchanged, hkeys, hkey], by
          simp [Columns.write, hname]⟩
        snapshot := by simp [Columns.write] }
  · simp [Columns.write]

theorem deleteMemory_committed
    {py : Interpreter} {call : MemoryCall} {view : View} {current next : List Resource}
    {storeId memoryId : String} {expected : Option String} {outcome : Outcome}
    (hseen : Seen view current)
    (hrequest : call.request = .delete storeId memoryId expected)
    (houtcome : deleteMemory py call.supply call.workspaceId storeId memoryId expected view =
      .ok outcome)
    (hcommit : commit current outcome.statements = some next) :
    MemoryCommit py call view current next := by
  unfold deleteMemory at houtcome
  simp only [bind_eq_ok, raiseIf_eq_ok, Bool.not_eq_true] at houtcome
  obtain ⟨_, -, memory, hexists, ⟨⟩, hfresh, data, hdata, hwrite⟩ := houtcome
  obtain ⟨hmem, -, htype, hworkspace, hlive, -⟩ := mustExist_found hexists
  have hhistory := (hseen.views 1).memories memory hmem htype
  obtain ⟨number, hstored, hnumber⟩ := deletedMemoryData_version hdata
  rw [hhistory.storedMemoryVersion_eq, Except.ok.injEq] at hstored
  subst hstored
  rw [← hworkspace] at hwrite
  obtain ⟨after, version, hadvance, rfl, hdeleted, ⟨pointer, hpointed⟩, hversion⟩ :=
    removeMemory_advance hseen hmem htype hlive hnumber
      (deletedMemoryData_get hdata (by decide)) hwrite
      hcommit
  have hkept : ∀ key ∉ ["version", "updated_by", "updated_at", "memory_version_id"],
      Dict.get after.data key = Dict.get memory.data key := by
    intro key hkey
    have hne : "memory_version_id" ≠ key := fun hsame => hkey (by simp [← hsame])
    rw [hpointed, Dict.get_set_other _ hne]
    exact deletedMemoryData_get hdata fun hmem => hkey (by
      simp only [List.mem_cons, List.not_mem_nil, or_false] at hmem ⊢
      tauto)
  exact .deleted memory after version
    { request := ⟨storeId, memoryId, expected, hrequest, hexists, hfresh⟩
      advance := hadvance
      deleted := hdeleted
      data := hkept
      versionData := hversion }

/-! ## Redactions -/

theorem findMemoryVersion_found
    {view : View} {query : ℕ} {workspaceId storeId versionId : String}
    {version memory : Resource}
    (hfound : findMemoryVersion view query workspaceId storeId versionId =
      .ok (version, memory)) :
    (version ∈ view query ∧ version.id = versionId ∧
      version.resourceType = .memoryVersion) ∧
      memory ∈ view (query + 1) ∧ memory.resourceType = .memory ∧
        memory.id = version.parentId.getD "" := by
  unfold findMemoryVersion at hfound
  split at hfound
  · cases hfound
  next found hversion =>
    split at hfound
    · cases hfound
    next owner howner =>
      cases hfound
      obtain ⟨hmem, hid, hselects⟩ := getResource_eq_some hversion
      obtain ⟨hownerMem, hownerId, hownerSelects⟩ := getResource_eq_some howner
      simp only [ResourceQuery.selects, memoryQuery, decide_eq_true_eq]
        at hselects hownerSelects
      exact ⟨⟨hmem, hid, hselects.1⟩, hownerMem, hownerSelects.1, hownerId⟩

/-- The number of a version that was read before its memory. -/
theorem Seen.version_number
    {view : View} {current : List Resource} {query : ℕ} {version memory : Resource}
    (hseen : Seen view current) (hversion : version ∈ view query)
    (hversionType : version.resourceType = .memoryVersion)
    (hmemory : memory ∈ view (query + 1)) (htype : memory.resourceType = .memory)
    (hid : memory.id = version.parentId.getD "") :
    version.parentId = some memory.id ∧ ∃ number, version.version = some number ∧
      1 ≤ number ∧ number ≤ versionNumber memory := by
  obtain ⟨parent, -, -, hparent, -⟩ :=
    ((hseen.views query).versions version hversion hversionType).memory
  rw [hparent, Option.getD_some] at hid
  rw [← hid] at hparent
  obtain ⟨later, hlater, hfollows⟩ :=
    hseen.later query (query + 1) (Nat.le_succ query) version hversion
  have hmem : later ∈ versionsOf (view (query + 1)) memory.id :=
    mem_versionsOf.mpr ⟨hlater, hfollows.resourceType.trans hversionType,
      hfollows.parentId.trans hparent⟩
  obtain ⟨number, hnumber, hbounds⟩ :=
    ((hseen.views (query + 1)).memories memory hmemory htype).mem_version hmem
  exact ⟨hparent, number, hfollows.version.symm.trans hnumber, hbounds⟩

theorem isLiveMemoryVersion_eq_false
    {py : Interpreter} {rows : List Resource} {memory version : Resource} {number : ℤ}
    (hhistory : History rows memory) (hnumber : version.version = some number)
    (hpos : 1 ≤ number) (hnot : isLiveMemoryVersion py memory version = .ok false) :
    memory.deletedAt ≠ none ∨ versionNumber memory ≠ number := by
  by_cases hdeleted : memory.deletedAt = none
  · refine Or.inr ?_
    have htruthy : versionNumber memory ≠ 0 := by
      have := hhistory.versionNumber_pos
      omega
    have hsome : number ≠ 0 := by omega
    unfold isLiveMemoryVersion at hnot
    simp only [hdeleted, ne_eq, not_true_eq_false, if_false] at hnot
    split at hnot
    · cases hnot
    · simp only [hhistory.stored, hnumber, optionalInt, Json.or, Json.truthy, htruthy,
        hsome, ne_eq, not_false_eq_true, decide_true, if_true, toInt_int, bind_eq_ok,
        pure_eq_ok, Except.ok.injEq, decide_eq_false_iff_not] at hnot
      obtain ⟨_, rfl, _, rfl, hne⟩ := hnot
      exact hne
  · exact Or.inl hdeleted

/-- The branch of a redaction which empties the memory itself is never taken. -/
theorem Seen.memory_not_emptied
    {py : Interpreter} {view : View} {current : List Resource} {now : Time}
    {workspaceId storeId versionId : String} {version memory : Resource} {data : Dict}
    (hseen : Seen view current)
    (hfound : findMemoryVersion view 1 workspaceId storeId versionId =
      .ok (version, memory))
    (hlive : isLiveMemoryVersion py memory version = .ok false)
    (hdata : redactedVersionData py now version.data = .ok data) :
    ¬(memory.deletedAt = none ∧
      Json.equal (Dict.get memory.data "version") (Dict.get data "memory_version") =
        true) := by
  obtain ⟨⟨hversion, -, hversionType⟩, hmemory, htype, hid⟩ :=
    findMemoryVersion_found hfound
  obtain ⟨-, number, hnumber, hpos, -⟩ :=
    hseen.version_number hversion hversionType hmemory htype hid
  have hhistory := (hseen.views 2).memories memory hmemory htype
  have hnot := isLiveMemoryVersion_eq_false hhistory hnumber hpos hlive
  have hrecorded := ((hseen.views 1).versions version hversion hversionType).number
  rintro ⟨hdeleted, hequal⟩
  rw [hhistory.stored, redactedVersionData_get hdata (by decide), hrecorded,
    hnumber] at hequal
  rcases hnot with hnot | hnot
  · exact hnot hdeleted
  · have hsame : number = versionNumber memory := by
      simpa [Json.equal, Json.number, optionalInt] using hequal
    exact hnot hsame.symm

theorem redactMemoryVersion_committed
    {py : Interpreter} {call : MemoryCall} {view : View} {current next : List Resource}
    {storeId versionId : String} {outcome : Outcome} (hseen : Seen view current)
    (hrequest : call.request = .redact storeId versionId)
    (houtcome : redactMemoryVersion py call.supply call.workspaceId storeId versionId view =
      .ok outcome)
    (hcommit : commit current outcome.statements = some next) :
    MemoryCommit py call view current next := by
  unfold redactMemoryVersion at houtcome
  simp only [bind_eq_ok, pure_eq_ok, raiseIf_eq_ok, Bool.not_eq_true] at houtcome
  obtain ⟨_, -, ⟨version, memory⟩, hfound, live, hlive, ⟨⟩, rfl, data, hdata, rfl⟩ :=
    houtcome
  obtain ⟨⟨hversion, -, hversionType⟩, hmemory, htype, hid⟩ :=
    findMemoryVersion_found hfound
  obtain ⟨hparent, number, hnumber, hpos, hle⟩ :=
    hseen.version_number hversion hversionType hmemory htype hid
  have hhistory := (hseen.views 2).memories memory hmemory htype
  have hnot := isLiveMemoryVersion_eq_false hhistory hnumber hpos hlive
  have hother := hseen.memory_not_emptied hfound hlive hdata
  simp only [redactRows, updateResource, hother, if_false, commit_update, commit_nil,
    Option.some.injEq] at hcommit
  subst hcommit
  obtain ⟨later, hlater, hfollows⟩ := hseen.kept 1 version hversion
  have hlaterType := hfollows.resourceType.trans hversionType
  rw [← hfollows.id, updateRow_eq_replaceRow hseen.rows.ids hlater]
  refine .redacted later _ (by rw [hrequest]; rfl) ⟨⟨hlater, hlaterType, ?_, ?_⟩, ?_⟩
  · refine ⟨rfl, rfl, rfl, rfl, rfl, ?_, ?_⟩
    · intro hmemoryType
      rw [hlaterType] at hmemoryType
      cases hmemoryType
    · intro _ key hkey
      simp only [Columns.write]
      split
      · rfl
      · rw [Option.getD_some, redactedVersionData_get hdata hkey,
          hfollows.operation hversionType key hkey]
  · intro owner howner hownerType hownerParent hownerLive
    have hsameId : owner.id = memory.id :=
      Option.some.inj (hownerParent.symm.trans (hfollows.parentId.trans hparent))
    have hfree := hseen.memory_kept hmemory htype howner hsameId
    rw [hfollows.version, hnumber, ne_eq, Option.some.injEq]
    rcases hfree with rfl | ⟨hlt, hdeleted⟩
    · rcases hnot with hnot | hnot
      · exact absurd hownerLive hnot
      · exact hnot.symm
    · omega
  · simp only [Columns.write]
    split
    · exact Or.inl rfl
    · exact Or.inr (redactedVersionData_redacted hdata)

/-! ## Stores -/

theorem createMemoryStore_committed
    {py : Interpreter} {call : MemoryCall} {view : View} {current next : List Resource}
    {body : MemoryStoreCreateRequest} {outcome : Outcome}
    (hrequest : call.request = .createStore body)
    (houtcome : createMemoryStore py call.supply call.workspaceId body = .ok outcome)
    (hcommit : commit current outcome.statements = some next) :
    MemoryCommit py call view current next := by
  unfold createMemoryStore at houtcome
  simp only [bind_eq_ok, pure_eq_ok] at houtcome
  obtain ⟨data, -, name, -, rfl⟩ := houtcome
  simp only [commit_insert, commit_nil, Option.some.injEq] at hcommit
  obtain ⟨hfree, rfl⟩ := hcommit
  exact .storeAdded _ (by rw [hrequest]; rfl)
    (fun other hother => ne_id_of_conflicts (hfree other hother)) rfl

theorem follows_write
    {row : Resource} {columns : Columns} (htype : row.resourceType = .memoryStore) :
    Follows row (columns.write row) where
  id := rfl
  resourceType := rfl
  workspaceId := rfl
  parentId := rfl
  version := rfl
  memory := by
    intro hmemory
    rw [htype] at hmemory
    cases hmemory
  operation := by
    intro hversion
    rw [htype] at hversion
    cases hversion

/-- A write of columns of a store that was read. -/
theorem Seen.store_written
    {py : Interpreter} {call : MemoryCall} {view : View} {current next : List Resource}
    {query : ℕ} {workspaceId storeId : String} {store : Resource} {columns : Columns}
    (hseen : Seen view current) (hrequest : call.request.addsVersion = false)
    (hstore : mustExist (view query) workspaceId storeId .memoryStore none = .ok store)
    (hcommit : commit current [.update store.id columns] = some next) :
    MemoryCommit py call view current next := by
  obtain ⟨later, hlater, hid, htype, -⟩ := hseen.store_kept hstore
  rw [commit_update, commit_nil, Option.some.injEq, (mustExist_found hstore).2.1, ← hid,
    updateRow_eq_replaceRow hseen.rows.ids hlater] at hcommit
  subst hcommit
  exact .storeWritten later _ hrequest hlater htype (follows_write htype)

theorem updateMemoryStore_committed
    {py : Interpreter} {call : MemoryCall} {view : View} {current next : List Resource}
    {storeId : String} {body : MemoryStoreUpdateRequest} {outcome : Outcome}
    (hseen : Seen view current)
    (hrequest : call.request = .updateStore storeId body)
    (houtcome : updateMemoryStore py call.workspaceId storeId body view = .ok outcome)
    (hcommit : commit current outcome.statements = some next) :
    MemoryCommit py call view current next := by
  unfold updateMemoryStore at houtcome
  simp only [bind_eq_ok, pure_eq_ok] at houtcome
  obtain ⟨store, hstore, merged, -, data, -, name, -, rfl⟩ := houtcome
  exact hseen.store_written (by rw [hrequest]; rfl) hstore hcommit

theorem archiveMemoryStore_committed
    {py : Interpreter} {call : MemoryCall} {view : View} {current next : List Resource}
    {storeId : String} {outcome : Outcome} (hseen : Seen view current)
    (hrequest : call.request = .archiveStore storeId)
    (houtcome : archiveMemoryStore call.supply call.workspaceId storeId view =
      .ok outcome)
    (hcommit : commit current outcome.statements = some next) :
    MemoryCommit py call view current next := by
  unfold archiveMemoryStore at houtcome
  simp only [bind_eq_ok, pure_eq_ok] at houtcome
  obtain ⟨store, hstore, rfl⟩ := houtcome
  exact hseen.store_written (by rw [hrequest]; rfl) hstore hcommit

theorem deleteMemoryStore_committed
    {py : Interpreter} {call : MemoryCall} {view : View} {current next : List Resource}
    {storeId : String} {outcome : Outcome} (hseen : Seen view current)
    (hrequest : call.request = .deleteStore storeId)
    (houtcome : deleteMemoryStore call.supply call.workspaceId storeId view = .ok outcome)
    (hcommit : commit current outcome.statements = some next) :
    MemoryCommit py call view current next := by
  unfold deleteMemoryStore at houtcome
  simp only [bind_eq_ok, pure_eq_ok] at houtcome
  obtain ⟨store, hstore, rfl⟩ := houtcome
  exact hseen.store_written (by rw [hrequest]; rfl) hstore hcommit

/-! ## All requests -/

theorem MemoryCall.committed
    {py : Interpreter} {call : MemoryCall} {view : View} {current next : List Resource}
    (hseen : Seen view current) (hbody : call.body py view current = some next) :
    MemoryCommit py call view current next := by
  obtain ⟨outcome, houtcome, hwrites, hcommit⟩ := MemoryCall.body_eq_some.mp hbody
  cases hrequest : call.request with
  | createStore body =>
      rw [MemoryCall.handle, hrequest] at houtcome
      exact createMemoryStore_committed hrequest houtcome hcommit
  | updateStore storeId body =>
      rw [MemoryCall.handle, hrequest] at houtcome
      exact updateMemoryStore_committed hseen hrequest houtcome hcommit
  | archiveStore storeId =>
      rw [MemoryCall.handle, hrequest] at houtcome
      exact archiveMemoryStore_committed hseen hrequest houtcome hcommit
  | deleteStore storeId =>
      rw [MemoryCall.handle, hrequest] at houtcome
      exact deleteMemoryStore_committed hseen hrequest houtcome hcommit
  | create storeId body viewName =>
      rw [MemoryCall.handle, hrequest] at houtcome
      exact createMemory_committed hseen hrequest houtcome hcommit
  | update storeId memoryId body viewName =>
      rw [MemoryCall.handle, hrequest] at houtcome
      exact updateMemory_committed hseen hrequest houtcome hwrites hcommit
  | delete storeId memoryId expected =>
      rw [MemoryCall.handle, hrequest] at houtcome
      exact deleteMemory_committed hseen hrequest houtcome hcommit
  | redact storeId versionId =>
      rw [MemoryCall.handle, hrequest] at houtcome
      exact redactMemoryVersion_committed hseen hrequest houtcome hcommit

/-! ## Runs -/

theorem MemoryRows.start : MemoryRows [] where
  ids := List.nodup_nil
  memories := by simp
  versions := by simp

theorem memory_run_from
    {py : Interpreter} {allowed : MemoryWorld → MemoryCall × List ℕ → Prop}
    {Property : List Resource → Prop}
    (hkeeps : ∀ (world : MemoryWorld) (call : MemoryCall) (ages : List ℕ) next,
      allowed world (call, ages) → Seen (world.view ages) world.current →
      (∀ query, Property (world.view ages query)) → Property world.current →
      call.body py (world.view ages) world.current = some next →
      MemoryCommit py call (world.view ages) world.current next → Property next)
    {calls : List (MemoryCall × List ℕ)} {first last : MemoryWorld}
    (hfirst : first.Ordered (fun rows => MemoryRows rows ∧ Property rows) EarlierRows)
    (hallowed : AllSteps (memoryStep py) allowed first calls)
    (hrun : run (memoryStep py) first calls = some last) :
    last.Ordered (fun rows => MemoryRows rows ∧ Property rows) EarlierRows := by
  refine run_ordered EarlierRows.refl EarlierRows.trans ?_ hfirst hallowed hrun
  intro world call ages next hallow hviews hlater hkept hcurrent hbody
  have hseen : Seen (world.view ages) world.current :=
    ⟨fun query => (hviews query).1, hlater, hkept, hcurrent.1⟩
  have hcommitted := MemoryCall.committed hseen hbody
  refine ⟨⟨hcommitted.rows hcurrent.1, ?_⟩, hcommitted.earlier hcurrent.1⟩
  exact hkeeps world call ages next hallow hseen (fun query => (hviews query).2)
    hcurrent.2 hbody hcommitted

/-- A property of committed rows which the commits of the allowed steps keep
holds of all of them. -/
theorem memory_run_property
    {py : Interpreter} {allowed : MemoryWorld → MemoryCall × List ℕ → Prop}
    {Property : List Resource → Prop} (hstart : Property [])
    (hkeeps : ∀ (world : MemoryWorld) (call : MemoryCall) (ages : List ℕ) next,
      allowed world (call, ages) → Seen (world.view ages) world.current →
      (∀ query, Property (world.view ages query)) → Property world.current →
      call.body py (world.view ages) world.current = some next →
      MemoryCommit py call (world.view ages) world.current next → Property next)
    {calls : List (MemoryCall × List ℕ)} {last : MemoryWorld}
    (hallowed : AllSteps (memoryStep py) allowed MemoryWorld.start calls)
    (hrun : run (memoryStep py) MemoryWorld.start calls = some last) :
    last.Ordered (fun rows => MemoryRows rows ∧ Property rows) EarlierRows := by
  refine memory_run_from hkeeps ⟨?_, ?_⟩ hallowed hrun
  · intro rows hrows
    obtain rfl : rows = [] := by simpa [Timeline.history, MemoryWorld.start] using hrows
    exact ⟨MemoryRows.start, hstart⟩
  · simp [Timeline.history, MemoryWorld.start]

theorem memory_run_ordered
    {py : Interpreter} {calls : List (MemoryCall × List ℕ)} {last : MemoryWorld}
    (hrun : run (memoryStep py) MemoryWorld.start calls = some last) :
    last.Ordered (fun rows => MemoryRows rows ∧ True) EarlierRows :=
  memory_run_property trivial (fun _ _ _ _ _ _ _ _ _ _ => trivial)
    (allSteps_true _ _) hrun

theorem seen_of_ordered
    {world : MemoryWorld} {Property : List Resource → Prop} {ages : List ℕ}
    (hordered : world.Ordered (fun rows => MemoryRows rows ∧ Property rows) EarlierRows)
    (hages : Admissible world ages) : Seen (world.view ages) world.current where
  views := fun query => (hordered.states _ (Timeline.view_mem hages query)).1
  later := fun _ _ hle => hordered.view_earlier EarlierRows.refl hages hle
  kept := fun query => hordered.view_earlier_current EarlierRows.refl hages query
  rows := (hordered.states _ List.mem_cons_self).1

/-- The condition which a request must meet if it commits. -/
def WhenCommitted (py : Interpreter) (condition : MemoryCall → View → Prop)
    (world : MemoryWorld) (label : MemoryCall × List ℕ) : Prop :=
  (label.1.body py (world.view label.2) world.current).isSome →
    condition label.1 (world.view label.2)

instance (py : Interpreter) (condition : MemoryCall → View → Prop)
    [∀ call view, Decidable (condition call view)] (world : MemoryWorld)
    (label : MemoryCall × List ℕ) : Decidable (WhenCommitted py condition world label) :=
  inferInstanceAs (Decidable (_ → _))

/-- A property which a commit keeps exactly under a condition holds of all
committed rows of a run exactly if its committed requests meet the condition. -/
theorem memory_run_iff
    {py : Interpreter} {condition : MemoryCall → View → Prop}
    {Property : List Resource → Prop} (hstart : Property [])
    (hcommit : ∀ (call : MemoryCall) (view : View) current next, Seen view current →
      (∀ query, Property (view query)) → Property current →
      MemoryCommit py call view current next → (Property next ↔ condition call view))
    {calls : List (MemoryCall × List ℕ)} {last : MemoryWorld}
    (hrun : run (memoryStep py) MemoryWorld.start calls = some last) :
    (∀ rows ∈ last.history, Property rows) ↔
      AllSteps (memoryStep py) (WhenCommitted py condition) MemoryWorld.start calls := by
  have hordered : MemoryWorld.start.Ordered MemoryRows EarlierRows := by
    constructor <;> simp [Timeline.history, MemoryWorld.start, MemoryRows.start]
  have hseen : ∀ view current, Reads MemoryRows EarlierRows view current →
      Seen view current := fun view current hreads =>
    ⟨hreads.views, hreads.later, hreads.kept, hreads.invariant⟩
  have hcommitted : ∀ (call : MemoryCall) view current next,
      Reads MemoryRows EarlierRows view current → call.body py view current = some next →
      MemoryCommit py call view current next := fun call view current next hreads hbody =>
    MemoryCall.committed (hseen view current hreads) hbody
  have hiff := @run_iff _ _ (MemoryCall.body py) MemoryRows EarlierRows
    (fun call view _ => condition call view) Property EarlierRows.refl EarlierRows.trans
    (fun call view current next hreads hbody =>
      ⟨(hcommitted call view current next hreads hbody).rows hreads.invariant,
        (hcommitted call view current next hreads hbody).earlier hreads.invariant⟩)
    (fun call view current next hreads hviews hcurrent hbody =>
      hcommit call view current next (hseen view current hreads) hviews hcurrent
        (hcommitted call view current next hreads hbody))
    _ _ _ hordered hrun
  rw [hiff]
  apply and_iff_right
  simpa [Timeline.history, MemoryWorld.start] using hstart

end ManagedAgents
