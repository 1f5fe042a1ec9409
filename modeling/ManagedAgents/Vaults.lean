import ManagedAgents.Credentials
import ManagedAgents.MemoryRequests

/-!
# Vaults and user profiles

How a body becomes the stored dictionary of a vault or of a user profile, and the
requests that write them.
-/

namespace ManagedAgents

open Fallible

/-! ## Resources without a parent -/

section

variable (normalize : Dict → Except HTTPException Dict) (supply : Supply)
  (workspaceId : String) (resourceType : ResourceType)

/-- `_create_top_level`. -/
def createTopLevel (body : Dict) : Except HTTPException Outcome := do
  let data ← normalize body
  let name ← nameOr (resourceName data) none
  let resource := createResource supply 0 0 workspaceId resourceType none none name data
  return { statements := [.insert resource], shown := resource }

/-- `_update`. -/
def updateTopLevel (resourceId : String) (body : Dict) (view : View) :
    Except HTTPException Outcome := do
  let resource ← mustExist (view 0) workspaceId resourceId resourceType none
  let merged ← mergeData resource.data body
  let data ← normalize merged
  let name ← nameOr (resourceName data) resource.name
  let (shown, changed) := updateResource resource data name
  return { statements := [changed], shown := shown }

/-- `_archive`. -/
def archiveTopLevel (resourceId : String) (view : View) :
    Except HTTPException Outcome := do
  let resource ← mustExist (view 0) workspaceId resourceId resourceType none
  let (shown, archived) := archiveResource resource (supply.clock 0)
  return { statements := [archived], shown := shown }

/-- `_delete`. -/
def deleteTopLevel (resourceId : String) (view : View) :
    Except HTTPException Outcome := do
  let resource ← mustExist (view 0) workspaceId resourceId resourceType none
  let (shown, deleted) := deleteResource resource (supply.clock 0)
  return { statements := [deleted], shown := shown }

end

/-! ## Vaults -/

def normalizeVaultData (data : Dict) : Except HTTPException Dict := do
  let displayName ← displayNameFromData data "vault" true
  let normalized := withDisplayName data displayName
  let metadata ← normalizeMetadata (Dict.get normalized "metadata")
  return Dict.set normalized "metadata" (.dict metadata)

def createVault (supply : Supply) (workspaceId : String) (body : Dict) :
    Except HTTPException Outcome :=
  createTopLevel normalizeVaultData supply workspaceId .vault body

def updateVault (workspaceId vaultId : String) (body : Dict) (view : View) :
    Except HTTPException Outcome :=
  updateTopLevel normalizeVaultData workspaceId .vault vaultId body view

def archiveVault (supply : Supply) (workspaceId vaultId : String) (view : View) :
    Except HTTPException Outcome :=
  archiveTopLevel supply workspaceId .vault vaultId view

def deleteVault (supply : Supply) (workspaceId vaultId : String) (view : View) :
    Except HTTPException Outcome :=
  deleteTopLevel supply workspaceId .vault vaultId view

/-! ## Memory stores -/

theorem createMemoryStore_eq
    (py : Interpreter) (supply : Supply) (workspaceId : String)
    (body : MemoryStoreCreateRequest) :
    createMemoryStore py supply workspaceId body =
      createTopLevel (normalizeMemoryStoreData py) supply workspaceId .memoryStore
        body.modelDump := rfl

theorem updateMemoryStore_eq
    (py : Interpreter) (workspaceId storeId : String) (body : MemoryStoreUpdateRequest)
    (view : View) :
    updateMemoryStore py workspaceId storeId body view =
      updateTopLevel (normalizeMemoryStoreData py) workspaceId .memoryStore storeId
        body.modelDump view := rfl

theorem archiveMemoryStore_eq
    (supply : Supply) (workspaceId storeId : String) (view : View) :
    archiveMemoryStore supply workspaceId storeId view =
      archiveTopLevel supply workspaceId .memoryStore storeId view := rfl

theorem deleteMemoryStore_eq
    (supply : Supply) (workspaceId storeId : String) (view : View) :
    deleteMemoryStore supply workspaceId storeId view =
      deleteTopLevel supply workspaceId .memoryStore storeId view := rfl

/-! ## User profiles -/

/-- Profiles are neither archived nor deleted. -/
structure UserProfile where
  id : String
  workspaceId : String
  name : Option String
  data : Dict
  createdAt : Time
deriving DecidableEq

def USER_PROFILE_RELATIONSHIPS : List String := ["external", "internal", "resold"]
def MAX_USER_PROFILE_FIELD_CHARS : ℕ := 255

def validateUserProfileField (data : Dict) (field : String) : Except HTTPException Unit :=
  match Dict.get data field with
  | .null => .ok ()
  | .str value =>
      if value.length > MAX_USER_PROFILE_FIELD_CHARS then
        .error ⟨422, "user_profile " ++ field ++ " must be at most 255 characters"⟩
      else .ok ()
  | _ => .error ⟨422, "user_profile " ++ field ++ " must be a string"⟩

def validateUserProfileData (data : Dict) : Except HTTPException Unit := do
  let relationship ← memberText (Dict.get data "relationship") USER_PROFILE_RELATIONSHIPS
    "user_profile relationship must be external, internal, or resold"
  validateUserProfileField data "external_id"
  validateUserProfileField data "name"
  raiseIf (relationship = "resold" ∧ (Dict.get data "name").truthy = false)
    ⟨422, "user_profile name is required when relationship is resold"⟩

def normalizeUserProfileData (data : Dict) : Except HTTPException Dict := do
  let normalized := Dict.setdefault data "relationship" (.str "external")
  let metadata ← normalizeMetadata (Dict.get normalized "metadata")
  let normalized := Dict.set normalized "metadata" (.dict metadata)
  validateUserProfileData normalized
  return Dict.setdefault normalized "trust_grants" (.dict [])

def createUserProfile (supply : Supply) (workspaceId : String) (body : Dict) :
    Except HTTPException UserProfile := do
  let data ← normalizeUserProfileData body
  let name ← nameOr (resourceName data) none
  return {
    id := "uprof_" ++ supply.uuidHex 0
    workspaceId := workspaceId
    name := name
    data := data
    createdAt := supply.clock 0 }

def findUserProfile (profiles : List UserProfile) (workspaceId profileId : String) :
    Except HTTPException UserProfile :=
  match profiles.find? fun row => row.id = profileId ∧ row.workspaceId = workspaceId with
  | some row => .ok row
  | none => .error ⟨404, "user_profile not found"⟩

/-- The row that was read and what it is to hold. -/
def updateUserProfile (workspaceId profileId : String) (body : Dict)
    (profiles : List UserProfile) : Except HTTPException (UserProfile × UserProfile) := do
  let profile ← findUserProfile profiles workspaceId profileId
  let merged ← mergeData profile.data body
  let data ← normalizeUserProfileData merged
  let name ← nameOr (resourceName data) profile.name
  return (profile, { profile with data := data, name := name })

inductive ProfileRequest
  | create (body : Dict)
  | update (profileId : String) (body : Dict)

structure ProfileCall where
  workspaceId : String
  supply : Supply
  request : ProfileRequest

/-- A flush writes the columns which differ from the row that was read. -/
def flushProfile (read written current : UserProfile) : UserProfile :=
  { current with
    data := if Dict.equal written.data read.data then current.data else written.data
    name := if written.name = read.name then current.name else written.name }

/-- The rows after the commit. -/
def ProfileCall.body (call : ProfileCall) (view : ℕ → List UserProfile)
    (current : List UserProfile) : Option (List UserProfile) :=
  match call.request with
  | .create body =>
      match createUserProfile call.supply call.workspaceId body with
      | .error _ => none
      | .ok profile =>
          if profile.id ∈ current.map UserProfile.id then none
          else some (current ++ [profile])
  | .update profileId body =>
      match updateUserProfile call.workspaceId profileId body (view 0) with
      | .error _ => none
      | .ok (read, written) =>
          some (current.map fun row =>
            if row.id = read.id then flushProfile read written row else row)

end ManagedAgents
