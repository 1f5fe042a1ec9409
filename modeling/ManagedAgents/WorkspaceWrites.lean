import ManagedAgents.LatestVersions
import ManagedAgents.MemoryCommits
import ManagedAgents.WorkspaceRequests

/-!
# What the requests of a workspace write

Every statement updates a row which the request has found in its workspace, or
inserts a row of the workspace below such a row.
-/

namespace ManagedAgents

open Fallible

/-! ## Statements of a workspace -/

/-- The statements write rows of the workspace only, where `known` are the identifiers
of rows that it has found or inserted. -/
def OwnedStatements (workspaceId : String) : (String → Prop) → List Statement → Prop
  | _, [] => True
  | known, .insert row :: rest =>
      row.workspaceId = workspaceId ∧
        (∀ parentId, row.parentId = some parentId → known parentId) ∧
        OwnedStatements workspaceId (fun rowId => known rowId ∨ rowId = row.id) rest
  | known, .update resourceId _ :: rest =>
      known resourceId ∧ OwnedStatements workspaceId known rest

/-- A query has found the row in the workspace. -/
def FoundIn (workspaceId : String) (view : View) (rowId : String) : Prop :=
  ∃ query, ∃ row ∈ view query, row.id = rowId ∧ row.workspaceId = workspaceId

section

variable {workspaceId resourceId : String} {view : View} {row : Resource}

theorem mustExist_owned
    {resourceType : ResourceType} {parentId : Option String} {query : ℕ}
    (hrow : mustExist (view query) workspaceId resourceId resourceType parentId =
      .ok row) :
    FoundIn workspaceId view row.id ∧ row.id = resourceId := by
  obtain ⟨hmem, hid, -, hworkspace, -⟩ := mustExist_found hrow
  exact ⟨⟨query, row, hmem, rfl, hworkspace⟩, hid⟩

theorem getResource_owned
    {query : ResourceQuery} {index : ℕ}
    (hrow : getResource (view index) resourceId query = some row) :
    FoundIn query.workspaceId view row.id ∧ row.id = resourceId := by
  obtain ⟨hmem, hid, hselects⟩ := getResource_eq_some hrow
  exact ⟨⟨index, row, hmem, rfl, selects_workspace hselects⟩, hid⟩

/-! ## Requests -/

variable {py : Interpreter} {cipher : SecretCipher} {supply : Supply}
  {normalize : Dict → Except HTTPException Dict} {resourceType : ResourceType}
  {body : Dict} {outcome : Outcome}

theorem createTopLevel_owned
    {known : String → Prop}
    (houtcome : createTopLevel normalize supply workspaceId resourceType body =
      .ok outcome) : OwnedStatements workspaceId known outcome.statements := by
  unfold createTopLevel at houtcome
  simp only [bind_eq_ok, pure_eq_ok] at houtcome
  obtain ⟨data, -, name, -, rfl⟩ := houtcome
  exact ⟨rfl, by simp [createResource], trivial⟩

theorem updateTopLevel_owned
    (houtcome : updateTopLevel normalize workspaceId resourceType resourceId body view =
      .ok outcome) :
    OwnedStatements workspaceId (FoundIn workspaceId view) outcome.statements := by
  unfold updateTopLevel at houtcome
  simp only [bind_eq_ok, pure_eq_ok] at houtcome
  obtain ⟨held, hheld, merged, -, data, -, name, -, rfl⟩ := houtcome
  exact ⟨(mustExist_owned hheld).1, trivial⟩

theorem archiveTopLevel_owned
    (houtcome : archiveTopLevel supply workspaceId resourceType resourceId view =
      .ok outcome) :
    OwnedStatements workspaceId (FoundIn workspaceId view) outcome.statements := by
  unfold archiveTopLevel at houtcome
  simp only [bind_eq_ok, pure_eq_ok] at houtcome
  obtain ⟨held, hheld, rfl⟩ := houtcome
  exact ⟨(mustExist_owned hheld).1, trivial⟩

theorem deleteTopLevel_owned
    (houtcome : deleteTopLevel supply workspaceId resourceType resourceId view =
      .ok outcome) :
    OwnedStatements workspaceId (FoundIn workspaceId view) outcome.statements := by
  unfold deleteTopLevel at houtcome
  simp only [bind_eq_ok, pure_eq_ok] at houtcome
  obtain ⟨held, hheld, rfl⟩ := houtcome
  exact ⟨(mustExist_owned hheld).1, trivial⟩

/-! ### Credentials -/

variable {vaultId credentialId : String}

theorem createCredential_owned
    (houtcome : createCredential py cipher supply workspaceId vaultId body view =
      .ok outcome) :
    OwnedStatements workspaceId (FoundIn workspaceId view) outcome.statements := by
  unfold createCredential at houtcome
  simp only [bind_eq_ok, pure_eq_ok] at houtcome
  obtain ⟨vault, hvault, data, -, name, -, rfl⟩ := houtcome
  obtain ⟨hfound, rfl⟩ := mustExist_owned hvault
  refine ⟨rfl, ?_, trivial⟩
  rintro parentId ⟨⟩
  exact hfound

theorem updateCredential_owned
    (houtcome : updateCredential py cipher workspaceId vaultId credentialId body view =
      .ok outcome) :
    OwnedStatements workspaceId (FoundIn workspaceId view) outcome.statements := by
  unfold updateCredential at houtcome
  simp only [bind_eq_ok, pure_eq_ok] at houtcome
  obtain ⟨held, hheld, merged, -, data, -, name, -, rfl⟩ := houtcome
  exact ⟨(mustExist_owned hheld).1, trivial⟩

theorem archiveCredential_owned
    (houtcome : archiveCredential py supply workspaceId vaultId credentialId view =
      .ok outcome) :
    OwnedStatements workspaceId (FoundIn workspaceId view) outcome.statements := by
  unfold archiveCredential at houtcome
  simp only [bind_eq_ok, pure_eq_ok] at houtcome
  obtain ⟨held, hheld, rfl⟩ := houtcome
  have hfound := (mustExist_owned hheld).1
  exact ⟨hfound, hfound, trivial⟩

theorem deleteCredential_owned
    (houtcome : deleteCredential py supply workspaceId vaultId credentialId view =
      .ok outcome) :
    OwnedStatements workspaceId (FoundIn workspaceId view) outcome.statements := by
  unfold deleteCredential at houtcome
  simp only [bind_eq_ok, pure_eq_ok] at houtcome
  obtain ⟨held, hheld, rfl⟩ := houtcome
  have hfound := (mustExist_owned hheld).1
  exact ⟨hfound, hfound, trivial⟩

theorem validateCredential_owned
    (houtcome : validateCredential py supply workspaceId vaultId credentialId view =
      .ok outcome) :
    OwnedStatements workspaceId (FoundIn workspaceId view) outcome.statements := by
  unfold validateCredential at houtcome
  simp only [bind_eq_ok, pure_eq_ok] at houtcome
  obtain ⟨held, hheld, data, -, rfl⟩ := houtcome
  exact ⟨(mustExist_owned hheld).1, trivial⟩

/-! ### Memories -/

variable {storeId memoryId : String} {viewName : Option String}

theorem createMemory_owned
    {request : MemoryCreateRequest}
    (houtcome : createMemory py supply workspaceId storeId request viewName view =
      .ok outcome) :
    OwnedStatements workspaceId (FoundIn workspaceId view) outcome.statements := by
  unfold createMemory at houtcome
  simp only [bind_eq_ok, pure_eq_ok] at houtcome
  obtain ⟨shownView, -, store, hstore, -, -, data, -, key, -, found, -, -, -, rfl⟩ :=
    houtcome
  unfold mustWriteMemoryStore at hstore
  simp only [bind_eq_ok, pure_eq_ok] at hstore
  obtain ⟨held, hheld, -, -, rfl⟩ := hstore
  obtain ⟨hfound, rfl⟩ := mustExist_owned hheld
  refine ⟨rfl, ?_, rfl, ?_, .inl (.inr rfl), trivial⟩
  · rintro parentId ⟨⟩
    exact hfound
  · rintro parentId ⟨⟩
    exact .inr rfl

theorem updateMemory_owned
    {request : MemoryUpdateRequest}
    (houtcome : updateMemory py supply workspaceId storeId memoryId request viewName view =
      .ok outcome) :
    OwnedStatements workspaceId (FoundIn workspaceId view) outcome.statements := by
  unfold updateMemory at houtcome
  simp only [bind_eq_ok] at houtcome
  obtain ⟨shownView, -, memory, hmemory, -, -, houtcome⟩ := houtcome
  have hfound := (mustExist_owned hmemory).1
  split at houtcome
  · unfold answerStaleContent at houtcome
    simp only [bind_eq_ok, pure_eq_ok] at houtcome
    obtain ⟨inEffect, -, -, -, rfl⟩ := houtcome
    trivial
  · obtain ⟨data, -, houtcome⟩ := bind_eq_ok.mp houtcome
    split at houtcome
    · obtain ⟨-, -, houtcome⟩ := bind_eq_ok.mp houtcome
      unfold writeMemory at houtcome
      simp only [bind_eq_ok, pure_eq_ok] at houtcome
      obtain ⟨key, -, version, -, rfl⟩ := houtcome
      refine ⟨hfound, rfl, ?_, .inl hfound, trivial⟩
      rintro parentId ⟨⟩
      exact hfound
    · rw [pure_eq_ok] at houtcome
      subst houtcome
      trivial

theorem deleteMemory_owned
    {expectedContentSha256 : Option String}
    (houtcome : deleteMemory py supply workspaceId storeId memoryId
      expectedContentSha256 view = .ok outcome) :
    OwnedStatements workspaceId (FoundIn workspaceId view) outcome.statements := by
  unfold deleteMemory at houtcome
  simp only [bind_eq_ok] at houtcome
  obtain ⟨store, -, memory, hmemory, -, -, data, -, houtcome⟩ := houtcome
  have hfound := (mustExist_owned hmemory).1
  unfold removeMemory at houtcome
  simp only [bind_eq_ok, pure_eq_ok] at houtcome
  obtain ⟨version, -, rfl⟩ := houtcome
  refine ⟨rfl, ?_, .inl hfound, .inl hfound, trivial⟩
  rintro parentId ⟨⟩
  exact hfound

theorem redactMemoryVersion_owned
    {versionId : String}
    (houtcome : redactMemoryVersion py supply workspaceId storeId versionId view =
      .ok outcome) :
    OwnedStatements workspaceId (FoundIn workspaceId view) outcome.statements := by
  unfold redactMemoryVersion at houtcome
  simp only [bind_eq_ok, pure_eq_ok] at houtcome
  obtain ⟨store, -, ⟨version, memory⟩, hfound, live, -, -, -, data, -, rfl⟩ := houtcome
  unfold findMemoryVersion at hfound
  split at hfound
  · cases hfound
  next found hversion =>
    split at hfound
    · cases hfound
    next held hmemory =>
      cases hfound
      have hversionFound := (getResource_owned hversion).1
      unfold redactRows
      dsimp only
      split
      · exact ⟨hversionFound, (getResource_owned hmemory).1, trivial⟩
      · exact ⟨hversionFound, trivial⟩

theorem memoryRequest_owned
    {request : MemoryRequest}
    (houtcome : MemoryCall.handle py ⟨workspaceId, supply, request⟩ view = .ok outcome) :
    OwnedStatements workspaceId (FoundIn workspaceId view) outcome.statements := by
  cases request with
  | createStore body =>
      have hcreated : createTopLevel (normalizeMemoryStoreData py) supply workspaceId
          .memoryStore body.modelDump = .ok outcome := houtcome
      exact createTopLevel_owned hcreated
  | updateStore storeId body =>
      have hupdated : updateTopLevel (normalizeMemoryStoreData py) workspaceId
          .memoryStore storeId body.modelDump view = .ok outcome := houtcome
      exact updateTopLevel_owned hupdated
  | archiveStore storeId =>
      have harchived : archiveTopLevel supply workspaceId .memoryStore storeId view =
          .ok outcome := houtcome
      exact archiveTopLevel_owned harchived
  | deleteStore storeId =>
      have hdeleted : deleteTopLevel supply workspaceId .memoryStore storeId view =
          .ok outcome := houtcome
      exact deleteTopLevel_owned hdeleted
  | create storeId body viewName => exact createMemory_owned houtcome
  | update storeId memoryId body viewName => exact updateMemory_owned houtcome
  | delete storeId memoryId expectedContentSha256 => exact deleteMemory_owned houtcome
  | redact storeId versionId => exact redactMemoryVersion_owned houtcome

/-! ### Skills -/

variable {context : SkillContext} {skillId : String}
  {payload : Except HTTPException SkillPayload}

theorem findSkill_owned
    (hskill : findSkill workspaceId skillId view = .ok row) :
    FoundIn workspaceId view row.id := by
  unfold findSkill at hskill
  split at hskill
  next skill hfound =>
    cases hskill
    have howned := (getResource_owned hfound).1
    exact howned
  next => cases hskill

theorem findSkillVersion_owned
    {version : ℤ}
    (hversion : findSkillVersion workspaceId skillId version view = .ok row) :
    FoundIn workspaceId view row.id := by
  unfold findSkillVersion at hversion
  obtain ⟨found, hfound, hversion⟩ := bind_eq_ok.mp hversion
  cases found with
  | none => cases hversion
  | some held =>
      cases hversion
      unfold getResourceVersion at hfound
      have hmem : row ∈ (view 0).filter fun row =>
          (skillVersionQuery workspaceId skillId).selects row ∧
            row.version = some version := by
        rw [scalarOneOrNone_eq_some.mp hfound]
        exact List.mem_singleton_self _
      obtain ⟨hrow, hselected⟩ := List.mem_filter.mp hmem
      simp only [decide_eq_true_eq] at hselected
      have hworkspace := selects_workspace hselected.1
      rw [skillVersionQuery_workspaceId] at hworkspace
      exact ⟨0, row, hrow, rfl, hworkspace⟩

theorem createSkillVersionResource_owned
    {draw : ℕ} {versionNumber : ℤ} {content : SkillPayload}
    (hversion : createSkillVersionResource context draw skillId versionNumber content =
      .ok row) :
    row.workspaceId = context.workspaceId ∧ row.parentId = some skillId := by
  obtain ⟨hselects, -⟩ := createSkillVersionResource_eq_ok hversion
  obtain ⟨-, hworkspace, -, hparent⟩ := selects_skillVersion.mp hselects
  exact ⟨hworkspace, hparent⟩

theorem createSkill_owned
    {python : Python} (houtcome : createSkill python context payload = .ok outcome) :
    OwnedStatements context.workspaceId (FoundIn context.workspaceId view)
      outcome.statements := by
  unfold createSkill at houtcome
  simp only [bind_eq_ok, pure_eq_ok] at houtcome
  obtain ⟨content, -, versionNumber, -, name, -, version, hversion, rfl⟩ := houtcome
  obtain ⟨hworkspace, hparent⟩ := createSkillVersionResource_owned hversion
  refine ⟨rfl, by simp [createResource], hworkspace, ?_, trivial⟩
  intro parentId hparentId
  rw [hparent] at hparentId
  cases hparentId
  exact .inr rfl

theorem createSkillVersion_owned
    {python : Python}
    (houtcome : createSkillVersion python context skillId payload view = .ok outcome) :
    OwnedStatements context.workspaceId (FoundIn context.workspaceId view)
      outcome.statements := by
  unfold createSkillVersion at houtcome
  simp only [bind_eq_ok, pure_eq_ok] at houtcome
  obtain ⟨skill, hskill, content, -, versionNumber, -, version, hversion, rfl⟩ := houtcome
  have hfound := findSkill_owned hskill
  obtain ⟨hworkspace, hparent⟩ := createSkillVersionResource_owned hversion
  refine ⟨hworkspace, ?_, .inl hfound, trivial⟩
  intro parentId hparentId
  rw [hparent] at hparentId
  cases hparentId
  exact hfound

theorem deleteSkill_owned
    (houtcome : deleteSkill context skillId view = .ok outcome) :
    OwnedStatements context.workspaceId (FoundIn context.workspaceId view)
      outcome.statements := by
  unfold deleteSkill at houtcome
  simp only [bind_eq_ok, pure_eq_ok] at houtcome
  obtain ⟨skill, hskill, rfl⟩ := houtcome
  exact ⟨findSkill_owned hskill, trivial⟩

theorem deleteSkillVersion_owned
    {version : ℤ}
    (houtcome : deleteSkillVersion supply workspaceId skillId version view =
      .ok outcome) :
    OwnedStatements workspaceId (FoundIn workspaceId view) outcome.statements := by
  unfold deleteSkillVersion at houtcome
  simp only [bind_eq_ok, pure_eq_ok] at houtcome
  obtain ⟨held, hheld, rfl⟩ := houtcome
  exact ⟨findSkillVersion_owned hheld, trivial⟩

end

/-- A request writes rows of its workspace only. -/
theorem WorkspaceCall.handle_owned
    {settings : WorkspaceSettings} {call : WorkspaceCall} {view : View}
    {outcome : WorkspaceOutcome} (houtcome : call.handle settings view = .ok outcome) :
    OwnedStatements call.workspaceId (FoundIn call.workspaceId view)
      outcome.statements := by
  unfold WorkspaceCall.handle at houtcome
  cases hrequest : call.request <;> simp only [hrequest] at houtcome
  all_goals obtain ⟨written, hwritten, rfl⟩ := map_eq_ok.mp houtcome
  case createVault => exact createTopLevel_owned hwritten
  case updateVault => exact updateTopLevel_owned hwritten
  case archiveVault => exact archiveTopLevel_owned hwritten
  case deleteVault => exact deleteTopLevel_owned hwritten
  case createCredential => exact createCredential_owned hwritten
  case updateCredential => exact updateCredential_owned hwritten
  case archiveCredential => exact archiveCredential_owned hwritten
  case deleteCredential => exact deleteCredential_owned hwritten
  case validateCredential => exact validateCredential_owned hwritten
  case writeMemory => exact memoryRequest_owned hwritten
  case createSkill =>
    exact @createSkill_owned view _ (call.skillContext settings) _ _ hwritten
  case createSkillVersion =>
    exact @createSkillVersion_owned view _ (call.skillContext settings) _ _ _ hwritten
  case deleteSkill =>
    exact @deleteSkill_owned view _ (call.skillContext settings) _ hwritten
  case deleteSkillVersion => exact deleteSkillVersion_owned hwritten
  case retrieveCredential =>
    unfold retrieveCredential at hwritten
    simp only [bind_eq_ok, pure_eq_ok] at hwritten
    obtain ⟨credential, -, rfl⟩ := hwritten
    trivial
  case retrieveSkillVersion =>
    unfold retrieveSkillVersion at hwritten
    simp only [bind_eq_ok, pure_eq_ok] at hwritten
    obtain ⟨skillVersion, -, rfl⟩ := hwritten
    trivial
  all_goals trivial

end ManagedAgents
