import ManagedAgents.ErrorCodes

/-!
# Children of deleted parents

Most requests to a child look it up by its identifier and its parent's, and do
not look the parent up.  They answer 404 exactly when the child itself is
missing, whatever has become of the parent.
-/

namespace ManagedAgents

open Fallible LabelledRuns ReadCommitted

/-! ## Requests to children -/

inductive ChildRequest
  | retrieveCredential (vaultId credentialId : String)
  | updateCredential (vaultId credentialId : String) (body : Dict)
  | archiveCredential (vaultId credentialId : String)
  | deleteCredential (vaultId credentialId : String)
  | validateCredential (vaultId credentialId : String)
  | retrieveMemory (storeId memoryId : String) (viewName : Option String)
  | updateMemory (storeId memoryId : String) (body : MemoryUpdateRequest)
      (viewName : Option String)
  | deleteMemory (storeId memoryId : String) (expectedContentSha256 : Option String)
  | versionsOfMemory (storeId memoryId : String)
  | versionOfMemory (storeId memoryId : String) (version : ℤ)
  | retrieveVersion (storeId versionId : String) (viewName : Option String)
  | redactVersion (storeId versionId : String)
  | retrieveSkillVersion (skillId : String) (version : ℤ)
  | downloadSkillVersion (skillId : String) (version : ℤ)
  | deleteSkillVersion (skillId : String) (version : ℤ)

/-- A request in a workspace with what it draws from outside. -/
structure ChildCall where
  workspaceId : String
  supply : Supply
  cipher : SecretCipher
  objects : ObjectStore
  request : ChildRequest

/-- The writes of the request. -/
def ChildCall.handle (py : Interpreter) (call : ChildCall) (view : View) :
    Except HTTPException (List Statement) :=
  match call.request with
  | .retrieveCredential vaultId credentialId =>
      Outcome.statements <$> retrieveCredential call.workspaceId vaultId credentialId view
  | .updateCredential vaultId credentialId body =>
      Outcome.statements <$>
        updateCredential py call.cipher call.workspaceId vaultId credentialId body view
  | .archiveCredential vaultId credentialId =>
      Outcome.statements <$>
        archiveCredential py call.supply call.workspaceId vaultId credentialId view
  | .deleteCredential vaultId credentialId =>
      Outcome.statements <$>
        deleteCredential py call.supply call.workspaceId vaultId credentialId view
  | .validateCredential vaultId credentialId =>
      Outcome.statements <$>
        validateCredential py call.supply call.workspaceId vaultId credentialId view
  | .retrieveMemory storeId memoryId viewName =>
      (fun _ => []) <$> retrieveMemory call.workspaceId storeId memoryId viewName view
  | .updateMemory storeId memoryId body viewName =>
      Outcome.statements <$>
        updateMemory py call.supply call.workspaceId storeId memoryId body viewName view
  | .deleteMemory storeId memoryId expectedContentSha256 =>
      Outcome.statements <$>
        deleteMemory py call.supply call.workspaceId storeId memoryId
          expectedContentSha256 view
  | .versionsOfMemory storeId memoryId =>
      (fun _ => []) <$> listMemoryVersionsForMemory call.workspaceId storeId memoryId view
  | .versionOfMemory storeId memoryId version =>
      (fun _ => []) <$>
        retrieveMemoryVersionForMemory call.workspaceId storeId memoryId version view
  | .retrieveVersion storeId versionId viewName =>
      (fun _ => []) <$>
        retrieveMemoryVersion call.workspaceId storeId versionId viewName view
  | .redactVersion storeId versionId =>
      Outcome.statements <$>
        redactMemoryVersion py call.supply call.workspaceId storeId versionId view
  | .retrieveSkillVersion skillId version =>
      Outcome.statements <$> retrieveSkillVersion call.workspaceId skillId version view
  | .downloadSkillVersion skillId version =>
      (fun _ => []) <$>
        downloadSkillVersion call.objects call.workspaceId skillId version view
  | .deleteSkillVersion skillId version =>
      Outcome.statements <$>
        deleteSkillVersion call.supply call.workspaceId skillId version view

/-- The rows after the request, or the error it answers with. -/
def ChildCall.run (py : Interpreter) (call : ChildCall) (view : View)
    (current : List Resource) : Except HTTPException (List Resource) := do
  let statements ← call.handle py view
  match commit current statements with
  | some next => return next
  | none => throw internalServerError

/-- An error leaves the rows as they are. -/
def ChildCall.rowsAfter (py : Interpreter) (call : ChildCall) (view : View)
    (current : List Resource) : List Resource :=
  match call.run py view current with
  | .ok next => next
  | .error _ => current

def AnswersNotFound (py : Interpreter) (call : ChildCall) (view : View)
    (current : List Resource) : Prop :=
  (∃ error, call.run py view current = .error error ∧ error.statusCode = 404) ∧
    call.rowsAfter py view current = current

/-! ## Missing children -/

/-- No row of the type which is not deleted has the identifier. -/
def NoLiveParent (rows : List Resource) (workspaceId : String)
    (resourceType : ResourceType) (parentId : String) : Prop :=
  ∀ row ∈ rows, row.resourceType = resourceType → row.workspaceId = workspaceId →
    row.deletedAt = none → row.id ≠ parentId

/-- No row of the type which is not deleted has the parent and the name. -/
def NoLiveChild (rows : List Resource) (workspaceId : String)
    (resourceType : ResourceType) (parentId : String) (named : Resource → Prop) : Prop :=
  ∀ row ∈ rows, row.resourceType = resourceType → row.workspaceId = workspaceId →
    row.parentId = some parentId → row.deletedAt = none → ¬named row

/-- The version is missing, or its memory is not one of the store. -/
def VersionMissing (view : View) (workspaceId storeId versionId : String) : Prop :=
  ∀ version ∈ getResource (view 1) versionId
      { resourceType := .memoryVersion, workspaceId := workspaceId },
    getResource (view 2) (version.parentId.getD "")
      { memoryQuery workspaceId storeId with includeDeleted := true } = none

/-- The store which the request finds is not archived. -/
def StoreOpen (rows : List Resource) (workspaceId storeId : String) : Prop :=
  ∃ store ∈ getResource rows storeId
      { resourceType := .memoryStore, workspaceId := workspaceId },
    store.archivedAt = none

def ViewAccepted (viewName : Option String) : Prop :=
  ∀ name ∈ viewName, String.ofList (lower name) ∈ MEMORY_VIEWS

/-- The row which the request names is missing.  Three requests look the parent
up too; for the others its row plays no part. -/
def ChildMissing (call : ChildCall) (view : View) : Prop :=
  match call.request with
  | .retrieveCredential vaultId credentialId
  | .updateCredential vaultId credentialId _
  | .archiveCredential vaultId credentialId
  | .deleteCredential vaultId credentialId
  | .validateCredential vaultId credentialId =>
      NoLiveChild (view 0) call.workspaceId .credential vaultId (·.id = credentialId)
  | .retrieveMemory storeId memoryId viewName
  | .updateMemory storeId memoryId _ viewName =>
      ViewAccepted viewName ∧
        NoLiveChild (view 0) call.workspaceId .memory storeId (·.id = memoryId)
  | .deleteMemory storeId memoryId _ =>
      NoLiveParent (view 0) call.workspaceId .memoryStore storeId ∨
        StoreOpen (view 0) call.workspaceId storeId ∧
          NoLiveChild (view 1) call.workspaceId .memory storeId (·.id = memoryId)
  | .versionsOfMemory storeId memoryId =>
      NoLiveChild (view 0) call.workspaceId .memory storeId (·.id = memoryId)
  | .versionOfMemory storeId memoryId version =>
      NoLiveChild (view 0) call.workspaceId .memory storeId (·.id = memoryId) ∨
        NoLiveChild (view 1) call.workspaceId .memoryVersion memoryId
          (·.version = some version)
  | .retrieveVersion storeId versionId viewName =>
      ViewAccepted viewName ∧
        (NoLiveParent (view 0) call.workspaceId .memoryStore storeId ∨
          VersionMissing view call.workspaceId storeId versionId)
  | .redactVersion storeId versionId =>
      NoLiveParent (view 0) call.workspaceId .memoryStore storeId ∨
        VersionMissing view call.workspaceId storeId versionId
  | .retrieveSkillVersion skillId version
  | .downloadSkillVersion skillId version
  | .deleteSkillVersion skillId version =>
      NoLiveChild (view 0) call.workspaceId .skillVersion skillId
        (·.version = some version)

/-! ### Look-ups -/

/-- The computation answers 404. -/
abbrev NotFound {Value : Type} (computation : Except HTTPException Value) : Prop :=
  Raises (fun error => error.statusCode = 404) computation

theorem not_notFound
    {Value : Type} {computation : Except HTTPException Value}
    (hnever : NeverNotFound computation) : ¬NotFound computation :=
  hnever.not_raises fun _ hother => hother

theorem notFound_bind
    {Value Result : Type} {first : Except HTTPException Value}
    {second : Value → Except HTTPException Result}
    (hsecond : ∀ value, NeverNotFound (second value)) :
    NotFound (first >>= second) ↔ NotFound first := by
  refine raises_bind.trans (or_iff_left ?_)
  rintro ⟨value, -, hvalue⟩
  exact not_notFound (hsecond value) hvalue

theorem selects_child
    (workspaceId parentId : String) (resourceType : ResourceType) (row : Resource) :
    ({ resourceType := resourceType, workspaceId := workspaceId,
       parentId := some parentId } : ResourceQuery).selects row = true ↔
      row.resourceType = resourceType ∧ row.workspaceId = workspaceId ∧
        row.parentId = some parentId ∧ row.deletedAt = none := by
  simp [ResourceQuery.selects]
  tauto

theorem notFound_mustExist
    {rows : List Resource} {workspaceId resourceId : String} {parentId : Option String}
    {resourceType : ResourceType} :
    NotFound (mustExist rows workspaceId resourceId resourceType parentId) ↔
      ∀ row ∈ rows,
        ({ resourceType := resourceType, workspaceId := workspaceId,
           parentId := parentId } : ResourceQuery).selects row = true →
          row.id ≠ resourceId := by
  unfold mustExist
  cases hfound : getResource rows resourceId
      { resourceType := resourceType, workspaceId := workspaceId,
        parentId := parentId } with
  | some row =>
      obtain ⟨hrow, hid, hselects⟩ := getResource_eq_some hfound
      refine iff_of_false (not_raises_ok _ _) fun hmissing => ?_
      exact hmissing row hrow hselects hid
  | none =>
      refine iff_of_true (by simp [resourceNotFound]) ?_
      intro row hrow hselects hid
      have hnot := List.find?_eq_none.mp hfound row hrow
      simp [hid, hselects] at hnot

theorem notFound_child
    {rows : List Resource} {workspaceId childId parentId : String}
    {resourceType : ResourceType} :
    NotFound (mustExist rows workspaceId childId resourceType (some parentId)) ↔
      NoLiveChild rows workspaceId resourceType parentId (·.id = childId) := by
  simp only [notFound_mustExist, selects_child, and_imp, NoLiveChild, ne_eq]

theorem notFound_parent
    {rows : List Resource} {workspaceId parentId : String} {resourceType : ResourceType} :
    NotFound (mustExist rows workspaceId parentId resourceType none) ↔
      NoLiveParent rows workspaceId resourceType parentId := by
  simp only [notFound_mustExist, ResourceQuery.selects, NoLiveParent]
  simp

theorem noLiveChild_version
    {rows : List Resource} {workspaceId parentId : String} {resourceType : ResourceType}
    {version : ℤ} :
    NoLiveChild rows workspaceId resourceType parentId (·.version = some version) ↔
      (rows.filter fun row =>
        ({ resourceType := resourceType, workspaceId := workspaceId,
           parentId := some parentId } : ResourceQuery).selects row ∧
          row.version = some version) = [] := by
  simp only [NoLiveChild, List.filter_eq_nil_iff, decide_eq_true_eq, selects_child,
    not_and, and_imp]

theorem mustExist_error
    {rows : List Resource} {workspaceId resourceId : String}
    {resourceType : ResourceType} {parentId : Option String} {error : HTTPException}
    (herror : mustExist rows workspaceId resourceId resourceType parentId =
      .error error) :
    error.statusCode = 404 := by
  unfold mustExist at herror
  split at herror
  · cases herror
  · cases herror
    rfl

/-- A version is looked up by its number; several such rows are another error. -/
theorem notFound_version
    {rows : List Resource} {workspaceId parentId : String} {resourceType : ResourceType}
    {version : ℤ} {missing : HTTPException} (hmissing : missing.statusCode = 404) :
    NotFound (do
        let found ← getResourceVersion rows
          { resourceType := resourceType, workspaceId := workspaceId,
            parentId := some parentId } version
        match found with
        | some row => return row
        | none => throw missing) ↔
      NoLiveChild rows workspaceId resourceType parentId (·.version = some version) := by
  rw [noLiveChild_version]
  unfold getResourceVersion
  cases rows.filter fun row =>
      ({ resourceType := resourceType, workspaceId := workspaceId,
         parentId := some parentId } : ResourceQuery).selects row ∧
        row.version = some version with
  | nil => exact iff_of_true ⟨missing, rfl, hmissing⟩ rfl
  | cons row rest =>
      refine iff_of_false ?_ (List.cons_ne_nil row rest)
      cases rest with
      | nil => exact not_raises_ok _ row
      | cons second others =>
          rintro ⟨error, herror, hcode⟩
          cases herror
          simp [internalServerError] at hcode

theorem notFound_view
    {Result : Type} {viewName : Option String} {rest : Except HTTPException Result} :
    NotFound (do
        let _ ← normalizeMemoryView viewName
        rest) ↔ ViewAccepted viewName ∧ NotFound rest := by
  refine raises_bind.trans ?_
  rw [or_iff_right (not_notFound (neverNotFound_memoryView viewName))]
  unfold ViewAccepted normalizeMemoryView
  cases viewName with
  | none => simp
  | some name =>
      by_cases haccepted : String.ofList (lower name) ∈ MEMORY_VIEWS <;> simp [haccepted]

theorem notFound_versionById
    {view : View} {workspaceId storeId versionId : String} :
    NotFound (findMemoryVersion view 1 workspaceId storeId versionId) ↔
      VersionMissing view workspaceId storeId versionId := by
  unfold findMemoryVersion VersionMissing
  cases getResource (view 1) versionId
      { resourceType := .memoryVersion, workspaceId := workspaceId } with
  | none => simp
  | some version =>
      simp only [Option.mem_some_iff, forall_eq']
      cases getResource (view 2) (version.parentId.getD "")
          { memoryQuery workspaceId storeId with includeDeleted := true } with
      | none => simp
      | some memory => simp

section

variable {Result : Type} {rows : List Resource} {workspaceId storeId : String}
  {rest : Resource → Except HTTPException Result} {missing : Prop}

theorem notFound_store_bind :
    NotFound (mustExist rows workspaceId storeId .memoryStore none >>= rest) ↔
      NoLiveParent rows workspaceId .memoryStore storeId ∨
        ∃ store ∈ getResource rows storeId
            { resourceType := .memoryStore, workspaceId := workspaceId },
          NotFound (rest store) := by
  refine raises_bind.trans (or_congr notFound_parent ?_)
  simp only [mustExist_eq_ok, Option.mem_def]

/-- What is missing in a store counts also when the store itself is missing. -/
theorem notFound_inStore_bind (hrest : ∀ store, NotFound (rest store) ↔ missing) :
    NotFound (mustExist rows workspaceId storeId .memoryStore none >>= rest) ↔
      NoLiveParent rows workspaceId .memoryStore storeId ∨ missing := by
  rw [notFound_store_bind]
  simp only [hrest]
  cases hfound : getResource rows storeId
      { resourceType := .memoryStore, workspaceId := workspaceId } with
  | some store => simp
  | none =>
      have hparent : NoLiveParent rows workspaceId .memoryStore storeId :=
        notFound_parent.mp ⟨_, by unfold mustExist; rw [hfound], rfl⟩
      simp [hparent]

theorem notFound_inOpenStore_bind (hrest : ∀ store, NotFound (rest store) ↔ missing) :
    NotFound (mustWriteMemoryStore rows workspaceId storeId >>= rest) ↔
      NoLiveParent rows workspaceId .memoryStore storeId ∨
        StoreOpen rows workspaceId storeId ∧ missing := by
  unfold mustWriteMemoryStore StoreOpen
  simp only [bind_assoc, pure_bind]
  rw [notFound_store_bind]
  have hguard : ∀ store : Resource,
      NotFound (do
          raiseIf (store.archivedAt ≠ none) ⟨409, "Memory store is archived"⟩
          rest store) ↔ store.archivedAt = none ∧ missing := by
    intro store
    by_cases harchived : store.archivedAt = none
    · simp [raises_bind, raiseIf, harchived, hrest]
    · simp [raises_bind, raiseIf, harchived]
  simp only [hguard, ← and_assoc, exists_and_right]

end

/-! ### Credentials -/

section

variable {py : Interpreter} {supply : Supply} {cipher : SecretCipher}
  {workspaceId vaultId credentialId : String} {view : View}

theorem notFound_retrieveCredential :
    NotFound (retrieveCredential workspaceId vaultId credentialId view) ↔
      NoLiveChild (view 0) workspaceId .credential vaultId (·.id = credentialId) :=
  (notFound_bind fun _ => onlyRaises_pure _ _).trans notFound_child

theorem notFound_updateCredential {body : Dict} :
    NotFound (updateCredential py cipher workspaceId vaultId credentialId body view) ↔
      NoLiveChild (view 0) workspaceId .credential vaultId (·.id = credentialId) := by
  refine (notFound_bind fun credential => ?_).trans notFound_child
  simp [onlyRaises_bind, neverNotFound_credentialUpdate, neverNotFound_credentialData,
    neverNotFound_nameOr]

theorem notFound_archiveCredential :
    NotFound (archiveCredential py supply workspaceId vaultId credentialId view) ↔
      NoLiveChild (view 0) workspaceId .credential vaultId (·.id = credentialId) :=
  (notFound_bind fun _ => onlyRaises_pure _ _).trans notFound_child

theorem notFound_deleteCredential :
    NotFound (deleteCredential py supply workspaceId vaultId credentialId view) ↔
      NoLiveChild (view 0) workspaceId .credential vaultId (·.id = credentialId) :=
  (notFound_bind fun _ => onlyRaises_pure _ _).trans notFound_child

theorem notFound_validateCredential :
    NotFound (validateCredential py supply workspaceId vaultId credentialId view) ↔
      NoLiveChild (view 0) workspaceId .credential vaultId (·.id = credentialId) := by
  refine (notFound_bind fun credential => ?_).trans notFound_child
  simp [validatedCredentialData, neverNotFound_toDict]

end

/-! ### Memories and versions -/

section

variable {py : Interpreter} {supply : Supply} {objects : ObjectStore}
  {workspaceId storeId memoryId skillId : String} {version : ℤ}
  {viewName : Option String} {view : View}

theorem notFound_retrieveMemory :
    NotFound (retrieveMemory workspaceId storeId memoryId viewName view) ↔
      ViewAccepted viewName ∧
        NoLiveChild (view 0) workspaceId .memory storeId (·.id = memoryId) :=
  notFound_view.trans (and_congr_right fun _ => notFound_child)

theorem notFound_updateMemory {body : MemoryUpdateRequest} :
    NotFound (updateMemory py supply workspaceId storeId memoryId body viewName view) ↔
      ViewAccepted viewName ∧
        NoLiveChild (view 0) workspaceId .memory storeId (·.id = memoryId) := by
  refine notFound_view.trans (and_congr_right fun _ => ?_)
  refine (notFound_bind fun memory => ?_).trans notFound_child
  simp [onlyRaises_bind, neverNotFound_memoryVersion, neverNotFound_staleContent,
    neverNotFound_mergeMemoryData, neverNotFound_checkMemoryPath,
      neverNotFound_writeMemory]

theorem notFound_deleteMemory {expectedContentSha256 : Option String} :
    NotFound
        (deleteMemory py supply workspaceId storeId memoryId expectedContentSha256 view) ↔
      NoLiveParent (view 0) workspaceId .memoryStore storeId ∨
        StoreOpen (view 0) workspaceId storeId ∧
          NoLiveChild (view 1) workspaceId .memory storeId (·.id = memoryId) := by
  refine notFound_inOpenStore_bind fun store => ?_
  refine (notFound_bind fun memory => ?_).trans notFound_child
  simp [onlyRaises_bind, deletedMemoryData, storedMemoryVersion, removeMemory,
    neverNotFound_toInt]

theorem notFound_retrieveVersion {versionId : String} :
    NotFound (retrieveMemoryVersion workspaceId storeId versionId viewName view) ↔
      ViewAccepted viewName ∧
        (NoLiveParent (view 0) workspaceId .memoryStore storeId ∨
          VersionMissing view workspaceId storeId versionId) := by
  refine notFound_view.trans (and_congr_right fun _ => ?_)
  refine notFound_inStore_bind fun store => ?_
  exact (notFound_bind fun _ => onlyRaises_pure _ _).trans notFound_versionById

theorem notFound_redactVersion {versionId : String} :
    NotFound (redactMemoryVersion py supply workspaceId storeId versionId view) ↔
      NoLiveParent (view 0) workspaceId .memoryStore storeId ∨
        VersionMissing view workspaceId storeId versionId := by
  refine notFound_inStore_bind fun store => ?_
  refine (notFound_bind fun found => ?_).trans notFound_versionById
  simp [onlyRaises_bind, isLiveMemoryVersion, redactedVersionData, neverNotFound_toInt,
    neverNotFound_toDict]

theorem notFound_versionsOfMemory :
    NotFound (listMemoryVersionsForMemory workspaceId storeId memoryId view) ↔
      NoLiveChild (view 0) workspaceId .memory storeId (·.id = memoryId) :=
  (notFound_bind fun _ => onlyRaises_pure _ _).trans notFound_child

theorem notFound_versionOfMemory :
    NotFound (retrieveMemoryVersionForMemory workspaceId storeId memoryId version view) ↔
      NoLiveChild (view 0) workspaceId .memory storeId (·.id = memoryId) ∨
        NoLiveChild (view 1) workspaceId .memoryVersion memoryId
          (·.version = some version) := by
  refine raises_bind.trans ⟨?_, ?_⟩
  · rintro (hmemory | ⟨memory, -, hversion⟩)
    · exact Or.inl (notFound_child.mp hmemory)
    · exact Or.inr ((notFound_version rfl).mp hversion)
  · rintro (hmemory | hversion)
    · exact Or.inl (notFound_child.mpr hmemory)
    · -- without the memory the version is not even looked up
      cases hfound : mustExist (view 0) workspaceId memoryId .memory (some storeId) with
      | error error => exact Or.inl ⟨error, rfl, mustExist_error hfound⟩
      | ok memory => exact Or.inr ⟨memory, rfl, (notFound_version rfl).mpr hversion⟩

theorem notFound_findSkillVersion :
    NotFound (findSkillVersion workspaceId skillId version view) ↔
      NoLiveChild (view 0) workspaceId .skillVersion skillId (·.version = some version) :=
  notFound_version rfl

theorem notFound_retrieveSkillVersion :
    NotFound (retrieveSkillVersion workspaceId skillId version view) ↔
      NoLiveChild (view 0) workspaceId .skillVersion skillId (·.version = some version) :=
  (notFound_bind fun _ => onlyRaises_pure _ _).trans notFound_findSkillVersion

theorem notFound_downloadSkillVersion :
    NotFound (downloadSkillVersion objects workspaceId skillId version view) ↔
      NoLiveChild (view 0) workspaceId .skillVersion skillId
        (·.version = some version) := by
  refine (notFound_bind fun skillVersion => ?_).trans notFound_findSkillVersion
  split
  · simp
  · split <;> simp

theorem notFound_deleteSkillVersion :
    NotFound (deleteSkillVersion supply workspaceId skillId version view) ↔
      NoLiveChild (view 0) workspaceId .skillVersion skillId (·.version = some version) :=
  (notFound_bind fun _ => onlyRaises_pure _ _).trans notFound_findSkillVersion

end

/-! ### All requests -/

theorem notFound_handle
    {py : Interpreter} {call : ChildCall} {view : View} :
    NotFound (call.handle py view) ↔ ChildMissing call view := by
  unfold ChildCall.handle ChildMissing
  cases call.request with
  | retrieveCredential vaultId credentialId =>
      exact raises_map.trans notFound_retrieveCredential
  | updateCredential vaultId credentialId body =>
      exact raises_map.trans notFound_updateCredential
  | archiveCredential vaultId credentialId =>
      exact raises_map.trans notFound_archiveCredential
  | deleteCredential vaultId credentialId =>
      exact raises_map.trans notFound_deleteCredential
  | validateCredential vaultId credentialId =>
      exact raises_map.trans notFound_validateCredential
  | retrieveMemory storeId memoryId viewName =>
      exact raises_map.trans notFound_retrieveMemory
  | updateMemory storeId memoryId body viewName =>
      exact raises_map.trans notFound_updateMemory
  | deleteMemory storeId memoryId expectedContentSha256 =>
      exact raises_map.trans notFound_deleteMemory
  | retrieveVersion storeId versionId viewName =>
      exact raises_map.trans notFound_retrieveVersion
  | redactVersion storeId versionId =>
      exact raises_map.trans notFound_redactVersion
  | versionsOfMemory storeId memoryId =>
      exact raises_map.trans notFound_versionsOfMemory
  | versionOfMemory storeId memoryId version =>
      exact raises_map.trans notFound_versionOfMemory
  | retrieveSkillVersion skillId version =>
      exact raises_map.trans notFound_retrieveSkillVersion
  | downloadSkillVersion skillId version =>
      exact raises_map.trans notFound_downloadSkillVersion
  | deleteSkillVersion skillId version =>
      exact raises_map.trans notFound_deleteSkillVersion

theorem child_not_found_iff
    (py : Interpreter) (call : ChildCall) (view : View) (current : List Resource) :
    AnswersNotFound py call view current ↔ ChildMissing call view := by
  have hrun : NotFound (call.run py view current) ↔ ChildMissing call view := by
    refine (notFound_bind fun statements => ?_).trans notFound_handle
    split <;> simp
  refine and_iff_left_of_imp ?_ |>.trans hrun
  rintro ⟨error, herror, -⟩
  unfold ChildCall.rowsAfter
  rw [herror]

/-! ## A memory of a deleted store -/

def DeletedParent (parentId : String) (rows : List Resource) : Prop :=
  ∃ row ∈ rows, row.id = parentId ∧ row.deletedAt ≠ none

instance (parentId : String) (rows : List Resource) :
    Decidable (DeletedParent parentId rows) :=
  inferInstanceAs (Decidable (∃ row ∈ rows, _))

def sampleStoreDeletion : List (MemoryCall × List ℕ) :=
  [sampleStore, sampleMemory "b" "draft" [],
   (sampleCall "c" (.deleteStore "memstore_a0"), [])]

def sampleStoreDeletionWorld : MemoryWorld :=
  (run (memoryStep sampleInterpreter) MemoryWorld.start sampleStoreDeletion).get
    (by decide)

/-- An update of the memory which is left behind. -/
def sampleOrphanUpdate : ChildCall where
  workspaceId := "wrkspc_default"
  supply := sampleSupply "d"
  cipher :=
    { encryptionKey := .ok none
      nonce := fun _ => []
      aesgcmEncrypt := fun _ _ plaintext => plaintext }
  objects := { storageKey := fun _ => none, download := fun _ => none }
  request := .updateMemory "memstore_a0" "mem_b0" sampleFinalBody none

theorem sample_orphan_updated :
    run (memoryStep sampleInterpreter) MemoryWorld.start sampleStoreDeletion =
        some sampleStoreDeletionWorld ∧
      DeletedParent "memstore_a0" sampleStoreDeletionWorld.current ∧
      ¬AnswersNotFound sampleInterpreter sampleOrphanUpdate
        (sampleStoreDeletionWorld.view []) sampleStoreDeletionWorld.current := by
  refine ⟨(Option.some_get _).symm, by decide, fun hanswer => ?_⟩
  have hwritten : sampleOrphanUpdate.rowsAfter sampleInterpreter
      (sampleStoreDeletionWorld.view []) sampleStoreDeletionWorld.current ≠
        sampleStoreDeletionWorld.current := by decide +kernel
  exact hwritten hanswer.2

end ManagedAgents
