import ManagedAgents.MemoryCommits
import ManagedAgents.StoredMetadata

/-!
# Rows of vaults, memory stores and credentials

Every statement of a request writes valid metadata, where a validation has room for
its key and a purge meets no secret in the metadata.
-/

namespace ManagedAgents

open Fallible

/-! ## Rows -/

/-- The metadata are valid and the identifiers are short. -/
structure MetadataRow (row : Resource) : Prop where
  metadata : HoldsMetadata row.data
  id : ShortText 64 row.id
  parent : ∀ parentId, row.parentId = some parentId → ShortText 64 parentId

def MetadataRows (rows : List Resource) : Prop :=
  ∀ row ∈ rows, CarriesMetadata row → MetadataRow row

/-- What the statement writes is sound. -/
def Statement.Sound : Statement → Prop
  | .insert row => MetadataRow row
  | .update _ columns => ∀ data, columns.data = some data → HoldsMetadata data

theorem MetadataRow.write
    {row : Resource} {columns : Columns} (hrow : MetadataRow row)
    (hcolumns : ∀ data, columns.data = some data → HoldsMetadata data) :
    MetadataRow (columns.write row) := by
  refine ⟨?_, hrow.id, hrow.parent⟩
  unfold Columns.write
  cases hdata : columns.data with
  | none => exact hrow.metadata
  | some data => exact hcolumns data hdata

theorem MetadataRows.commit
    {rows next : List Resource} {statements : List Statement} (hrows : MetadataRows rows)
    (hstatements : ∀ statement ∈ statements, statement.Sound)
    (hcommit : commit rows statements = some next) : MetadataRows next := by
  induction statements generalizing rows with
  | nil =>
      rw [commit_nil, Option.some.injEq] at hcommit
      exact hcommit ▸ hrows
  | cons statement rest ih =>
      obtain ⟨hfirst, hrest⟩ := List.forall_mem_cons.mp hstatements
      cases statement with
      | insert inserted =>
          obtain ⟨-, hcommit⟩ := commit_insert.mp hcommit
          refine ih ?_ hrest hcommit
          intro row hrow hcarries
          rcases List.mem_append.mp hrow with hrow | hrow
          · exact hrows row hrow hcarries
          · obtain rfl := List.mem_singleton.mp hrow
            exact hfirst
      | update resourceId columns =>
          rw [commit_update] at hcommit
          refine ih ?_ hrest hcommit
          intro row hrow hcarries
          rcases mem_updateRow.mp hrow with ⟨hrow, -⟩ | ⟨old, hold, -, rfl⟩
          · exact hrows row hrow hcarries
          · exact (hrows old hold hcarries).write hfirst

/-- The statement leaves the rows of a kind alone. -/
def Statement.Spares (Kind : Resource → Prop) (current : List Resource) :
    Statement → Prop
  | .insert row => ¬Kind row
  | .update resourceId _ => ∀ row ∈ current, row.id = resourceId → ¬Kind row

/-- A row of a kind that the statements leave alone is a row from before. -/
theorem kept_of_spares
    {Kind : Resource → Prop} {current rows next : List Resource}
    {statements : List Statement} {row : Resource}
    (hkind : ∀ columns row, Kind (Columns.write columns row) → Kind row)
    (hspares : ∀ statement ∈ statements, statement.Spares Kind current)
    (hrows : ∀ row ∈ rows, Kind row → row ∈ current)
    (hcommit : ManagedAgents.commit rows statements = some next) (hrow : row ∈ next)
    (hsame : Kind row) : row ∈ current := by
  induction statements generalizing rows with
  | nil =>
      rw [commit_nil, Option.some.injEq] at hcommit
      exact hrows row (hcommit ▸ hrow) hsame
  | cons statement rest ih =>
      obtain ⟨hfirst, hrest⟩ := List.forall_mem_cons.mp hspares
      cases statement with
      | insert inserted =>
          obtain ⟨-, hcommit⟩ := commit_insert.mp hcommit
          refine ih hrest ?_ hcommit
          intro other hother hothers
          rcases List.mem_append.mp hother with hother | hother
          · exact hrows other hother hothers
          · obtain rfl := List.mem_singleton.mp hother
            exact absurd hothers hfirst
      | update resourceId columns =>
          rw [commit_update] at hcommit
          refine ih hrest ?_ hcommit
          intro other hother hothers
          rcases mem_updateRow.mp hother with ⟨hother, -⟩ | ⟨old, hold, hid, rfl⟩
          · exact hrows other hother hothers
          · have holdKind := hkind columns old hothers
            exact absurd holdKind (hfirst old (hrows old hold holdKind) hid)

theorem MetadataRows.of_spares
    {current next : List Resource} {statements : List Statement}
    (hrows : MetadataRows current)
    (hspares : statements.all (Statement.sparesMetadata current) = true)
    (hcommit : ManagedAgents.commit current statements = some next) :
    MetadataRows next := by
  intro row hrow hcarries
  refine hrows row ?_ hcarries
  refine kept_of_spares (fun _ _ hkind => hkind) ?_ (fun _ hother _ => hother) hcommit
    hrow hcarries
  intro statement hstatement
  have hspared := List.all_eq_true.mp hspares statement hstatement
  cases statement with
  | insert inserted => simpa [Statement.Spares, Statement.sparesMetadata] using hspared
  | update resourceId columns =>
      intro other hother hid
      have hothers := List.all_eq_true.mp hspared other hother
      simpa [hid] using hothers

/-! ## Identifiers -/

theorem ShortText.append
    {first second : ℕ} {left right : String} (hleft : ShortText first left)
    (hright : ShortText second right) : ShortText (first + second) (left ++ right) := by
  refine ⟨?_, ?_⟩
  · rw [String.length_append]
    exact Nat.add_le_add hleft.1 hright.1
  · intro char hchar
    rw [String.toList_append, List.mem_append] at hchar
    exact hchar.elim (hleft.2 char) (hright.2 char)

theorem newId_short
    {supply : Supply} (huuids : IsUuidHex supply.uuidHex) (resourceType : ResourceType)
    (draw : ℕ) : ShortText 64 (supply.newId resourceType draw) := by
  have hfront : ShortText 32 (resourceType.idPrefix ++ "_") := by
    cases resourceType <;> decide
  exact hfront.append (huuids draw)

section

variable {supply : Supply} {workspaceId : String} {resourceType : ResourceType}
  {name : Option String} {data : Dict}

theorem createResource_sound
    (huuids : IsUuidHex supply.uuidHex) {parentId : Option String}
    (hparent : ∀ parent, parentId = some parent → ShortText 64 parent)
    (hdata : HoldsMetadata data) :
    MetadataRow
      (createResource supply 0 0 workspaceId resourceType parentId none name data) :=
  ⟨hdata, newId_short huuids resourceType 0, hparent⟩

theorem updateResource_sound
    {held : Resource} (hdata : HoldsMetadata data) :
    (updateResource held data name).2.Sound := by
  intro written hwritten
  split at hwritten
  · cases hwritten
  · cases hwritten
    exact hdata

end

/-! ## Resources without a parent -/

section

variable {normalize : Dict → Except HTTPException Dict} {supply : Supply}
  {workspaceId resourceId : String} {resourceType : ResourceType} {body : Dict}
  {view : View} {outcome : Outcome}

theorem createTopLevel_sound
    (hnormalize : ∀ data result, normalize data = .ok result → HoldsMetadata result)
    (huuids : IsUuidHex supply.uuidHex)
    (houtcome : createTopLevel normalize supply workspaceId resourceType body =
      .ok outcome) :
    ∀ statement ∈ outcome.statements, statement.Sound := by
  unfold createTopLevel at houtcome
  simp only [bind_eq_ok, pure_eq_ok] at houtcome
  obtain ⟨data, hdata, name, -, rfl⟩ := houtcome
  rw [List.forall_mem_singleton]
  exact createResource_sound huuids (by simp) (hnormalize body data hdata)

theorem updateTopLevel_sound
    (hnormalize : ∀ data result, normalize data = .ok result → HoldsMetadata result)
    (houtcome : updateTopLevel normalize workspaceId resourceType resourceId body view =
      .ok outcome) :
    ∀ statement ∈ outcome.statements, statement.Sound := by
  unfold updateTopLevel at houtcome
  simp only [bind_eq_ok, pure_eq_ok] at houtcome
  obtain ⟨held, -, merged, -, data, hdata, name, -, rfl⟩ := houtcome
  rw [List.forall_mem_singleton]
  exact updateResource_sound (hnormalize merged data hdata)

theorem archiveTopLevel_sound
    (houtcome : archiveTopLevel supply workspaceId resourceType resourceId view =
      .ok outcome) :
    ∀ statement ∈ outcome.statements, statement.Sound := by
  unfold archiveTopLevel at houtcome
  simp only [bind_eq_ok, pure_eq_ok] at houtcome
  obtain ⟨held, -, rfl⟩ := houtcome
  rw [List.forall_mem_singleton]
  intro data hdata
  cases hdata

theorem deleteTopLevel_sound
    (houtcome : deleteTopLevel supply workspaceId resourceType resourceId view =
      .ok outcome) :
    ∀ statement ∈ outcome.statements, statement.Sound := by
  unfold deleteTopLevel at houtcome
  simp only [bind_eq_ok, pure_eq_ok] at houtcome
  obtain ⟨held, -, rfl⟩ := houtcome
  rw [List.forall_mem_singleton]
  intro data hdata
  cases hdata

end

/-! ## Credentials -/

section

variable {py : Interpreter} {cipher : SecretCipher} {supply : Supply}
  {workspaceId vaultId credentialId : String} {body : Dict} {view : View}
  {outcome : Outcome}

theorem createCredential_sound
    (huuids : IsUuidHex supply.uuidHex) (hview : MetadataRows (view 0))
    (houtcome : createCredential py cipher supply workspaceId vaultId body view =
      .ok outcome) :
    ∀ statement ∈ outcome.statements, statement.Sound := by
  unfold createCredential at houtcome
  simp only [bind_eq_ok, pure_eq_ok] at houtcome
  obtain ⟨vault, hvault, data, hdata, name, -, rfl⟩ := houtcome
  obtain ⟨hmem, rfl, htype, -⟩ := mustExist_found hvault
  rw [List.forall_mem_singleton]
  refine createResource_sound huuids ?_ (normalizeCredentialData_holds hdata)
  rintro parent ⟨⟩
  exact (hview vault hmem (.inl htype)).id

theorem updateCredential_sound
    (houtcome : updateCredential py cipher workspaceId vaultId credentialId body view =
      .ok outcome) :
    ∀ statement ∈ outcome.statements, statement.Sound := by
  unfold updateCredential at houtcome
  simp only [bind_eq_ok, pure_eq_ok] at houtcome
  obtain ⟨held, -, merged, -, data, hdata, name, -, rfl⟩ := houtcome
  rw [List.forall_mem_singleton]
  exact updateResource_sound (normalizeCredentialData_holds hdata)

theorem mustExistCredential_sound
    {held : Resource} (hview : MetadataRows (view 0))
    (hheld : mustExistCredential workspaceId vaultId credentialId view = .ok held) :
    MetadataRow held ∧ ShortText 64 vaultId := by
  obtain ⟨hmem, -, htype, -, -, hparent⟩ := mustExist_found hheld
  have hsound := hview held hmem (.inr (.inl htype))
  rcases hparent with hnone | hparent
  · cases hnone
  · exact ⟨hsound, hsound.parent vaultId hparent⟩

theorem archiveCredential_sound
    (hview : MetadataRows (view 0))
    (hsecrets : ∀ held, mustExistCredential workspaceId vaultId credentialId view =
      .ok held → NoSecretMetadata held.data)
    (houtcome : archiveCredential py supply workspaceId vaultId credentialId view =
      .ok outcome) :
    ∀ statement ∈ outcome.statements, statement.Sound := by
  unfold archiveCredential at houtcome
  simp only [bind_eq_ok, pure_eq_ok] at houtcome
  obtain ⟨held, hheld, rfl⟩ := houtcome
  have hmetadata := (mustExistCredential_sound hview hheld).1.metadata
  rw [List.forall_mem_cons, List.forall_mem_singleton]
  refine ⟨updateResource_sound
    ((purgeCredentialSecretData_holds hmetadata).mpr (hsecrets held hheld)), ?_⟩
  intro data hdata
  cases hdata

theorem deleteCredential_sound
    (hview : MetadataRows (view 0))
    (hsecrets : ∀ held, mustExistCredential workspaceId vaultId credentialId view =
      .ok held → NoSecretMetadata held.data)
    (houtcome : deleteCredential py supply workspaceId vaultId credentialId view =
      .ok outcome) :
    ∀ statement ∈ outcome.statements, statement.Sound := by
  unfold deleteCredential at houtcome
  simp only [bind_eq_ok, pure_eq_ok] at houtcome
  obtain ⟨held, hheld, rfl⟩ := houtcome
  have hmetadata := (mustExistCredential_sound hview hheld).1.metadata
  rw [List.forall_mem_cons, List.forall_mem_singleton]
  refine ⟨updateResource_sound
    ((purgeCredentialSecretData_holds hmetadata).mpr (hsecrets held hheld)), ?_⟩
  intro data hdata
  cases hdata

theorem validateCredential_sound
    (hview : MetadataRows (view 0)) (htimestamps : ∀ now, ShortText 32 (py.isoformat now))
    (hroom : ∀ held, mustExistCredential workspaceId vaultId credentialId view =
      .ok held → RoomForValidation held.data)
    (houtcome : validateCredential py supply workspaceId vaultId credentialId view =
      .ok outcome) :
    ∀ statement ∈ outcome.statements, statement.Sound := by
  unfold validateCredential at houtcome
  simp only [bind_eq_ok, pure_eq_ok] at houtcome
  obtain ⟨held, hheld, data, hdata, rfl⟩ := houtcome
  obtain ⟨hsound, hvault⟩ := mustExistCredential_sound hview hheld
  rw [List.forall_mem_singleton]
  exact updateResource_sound ((validatedCredentialData_holds hsound.metadata
    (htimestamps _) hsound.id hvault hdata).mpr (hroom held hheld))

end

/-! ## Requests -/

/-- A validation finds its key in the metadata or room for it, and the metadata of a
credential that is archived or deleted have no key of a secret. -/
def ContainerCall.Keeps (call : ContainerCall) (view : View) : Prop :=
  match call.request with
  | .validateCredential vaultId credentialId =>
      ∀ held ∈ (mustExistCredential call.workspaceId vaultId credentialId view).toOption,
        RoomForValidation held.data
  | .archiveCredential vaultId credentialId | .deleteCredential vaultId credentialId =>
      ∀ held ∈ (mustExistCredential call.workspaceId vaultId credentialId view).toOption,
        NoSecretMetadata held.data
  | _ => True

instance (call : ContainerCall) (view : View) : Decidable (call.Keeps view) := by
  unfold ContainerCall.Keeps
  split <;> infer_instance

section

variable {settings : MetadataSettings} {call : ContainerCall} {view : View}
  {current next : List Resource}

theorem ContainerCall.handle_sound
    {statements : List Statement} (hview : MetadataRows (view 0))
    (hkeeps : call.Keeps view)
    (hown : ∀ given, call.request ≠ .other given)
    (hhandle : call.handle settings view = .ok statements) :
    ∀ statement ∈ statements, statement.Sound := by
  unfold ContainerCall.handle at hhandle
  unfold ContainerCall.Keeps at hkeeps
  cases hrequest : call.request <;> simp only [hrequest] at hhandle hkeeps
  case other given => exact absurd hrequest (hown given)
  all_goals obtain ⟨outcome, houtcome, rfl⟩ := map_eq_ok.mp hhandle
  case createVault body =>
    exact createTopLevel_sound (fun _ _ => normalizeVaultData_holds) call.uuids houtcome
  case updateVault vaultId body =>
    exact updateTopLevel_sound (fun _ _ => normalizeVaultData_holds) houtcome
  case archiveVault vaultId => exact archiveTopLevel_sound houtcome
  case deleteVault vaultId => exact deleteTopLevel_sound houtcome
  case createMemoryStore body =>
    rw [createMemoryStore_eq] at houtcome
    exact createTopLevel_sound (fun _ _ => normalizeMemoryStoreData_holds) call.uuids
      houtcome
  case updateMemoryStore storeId body =>
    rw [updateMemoryStore_eq] at houtcome
    exact updateTopLevel_sound (fun _ _ => normalizeMemoryStoreData_holds) houtcome
  case archiveMemoryStore storeId =>
    rw [archiveMemoryStore_eq] at houtcome
    exact archiveTopLevel_sound houtcome
  case deleteMemoryStore storeId =>
    rw [deleteMemoryStore_eq] at houtcome
    exact deleteTopLevel_sound houtcome
  case createCredential vaultId body =>
    exact createCredential_sound call.uuids hview houtcome
  case updateCredential vaultId credentialId body => exact updateCredential_sound houtcome
  case archiveCredential vaultId credentialId =>
    exact archiveCredential_sound hview
      (fun held hheld => hkeeps held (Except.toOption_eq_some.mpr hheld)) houtcome
  case deleteCredential vaultId credentialId =>
    exact deleteCredential_sound hview
      (fun held hheld => hkeeps held (Except.toOption_eq_some.mpr hheld)) houtcome
  case validateCredential vaultId credentialId =>
    exact validateCredential_sound hview settings.timestamps
      (fun held hheld => hkeeps held (Except.toOption_eq_some.mpr hheld)) houtcome

theorem ContainerCall.sound
    (hview : MetadataRows (view 0)) (hcurrent : MetadataRows current)
    (hkeeps : call.Keeps view)
    (hbody : call.body settings view current = some next) : MetadataRows next := by
  unfold ContainerCall.body at hbody
  split at hbody
  next given statements hrequest hhandle =>
    split at hbody
    next hspares => exact hcurrent.of_spares hspares hbody
    next => cases hbody
  next statements hhandle hother =>
    exact hcurrent.commit (handle_sound hview hkeeps hother hhandle) hbody
  next => cases hbody

end

end ManagedAgents
