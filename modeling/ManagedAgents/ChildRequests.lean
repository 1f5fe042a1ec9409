import ManagedAgents.Credentials
import ManagedAgents.MemoryReads
import ManagedAgents.MemorySystem

/-!
# Requests to children

The endpoints of the credentials of a vault and of the versions of a skill, and
all requests which name a child of a vault, a memory store or a skill.
-/

namespace ManagedAgents

open Fallible

/-! ## Credentials -/

def credentialQuery (workspaceId vaultId : String) : ResourceQuery where
  resourceType := .credential
  workspaceId := workspaceId
  parentId := some vaultId

/-- `_create_child`, after the vault was looked up. -/
def createCredential (py : Interpreter) (cipher : SecretCipher) (supply : Supply)
    (workspaceId vaultId : String) (body : Dict) (view : View) :
    Except HTTPException Outcome := do
  let _ ← mustExist (view 0) workspaceId vaultId .vault none
  let data ← normalizeCredentialData py cipher body
  let name ← nameOr (resourceName data) none
  let credential :=
    createResource supply 0 0 workspaceId .credential (some vaultId) none name data
  return { statements := [.insert credential], shown := credential }

/-- `_list_child`, after the vault was looked up. -/
def listCredentials (workspaceId vaultId : String) (includeArchived : Bool)
    (view : View) :
    Except HTTPException (List Resource) := do
  let _ ← mustExist (view 0) workspaceId vaultId .vault none
  return listResources (view 1)
    { credentialQuery workspaceId vaultId with includeArchived := includeArchived } 1000

def mustExistCredential (workspaceId vaultId credentialId : String) (view : View) :
    Except HTTPException Resource :=
  mustExist (view 0) workspaceId credentialId .credential (some vaultId)

def retrieveCredential (workspaceId vaultId credentialId : String) (view : View) :
    Except HTTPException Outcome := do
  let credential ← mustExistCredential workspaceId vaultId credentialId view
  return { shown := credential }

def updateCredential (py : Interpreter) (cipher : SecretCipher)
    (workspaceId vaultId credentialId : String) (body : Dict) (view : View) :
    Except HTTPException Outcome := do
  let credential ← mustExistCredential workspaceId vaultId credentialId view
  let merged ← mergeCredentialUpdate credential.data body
  let data ← normalizeCredentialData py cipher merged
  let name ← nameOr (resourceName data) credential.name
  let (shown, changed) := updateResource credential data name
  return { statements := [changed], shown := shown }

def archiveCredential (py : Interpreter) (supply : Supply)
    (workspaceId vaultId credentialId : String) (view : View) :
    Except HTTPException Outcome := do
  let credential ← mustExistCredential workspaceId vaultId credentialId view
  let data := purgeCredentialSecretData py (supply.clock 0) credential.data
  let (purged, changed) := updateResource credential data none
  let (shown, archived) := archiveResource purged (supply.clock 1)
  return { statements := [changed, archived], shown := shown }

def deleteCredential (py : Interpreter) (supply : Supply)
    (workspaceId vaultId credentialId : String) (view : View) :
    Except HTTPException Outcome := do
  let credential ← mustExistCredential workspaceId vaultId credentialId view
  let data := purgeCredentialSecretData py (supply.clock 0) credential.data
  let (purged, changed) := updateResource credential data none
  let (shown, deleted) := deleteResource purged (supply.clock 1)
  return { statements := [changed, deleted], shown := shown }

def validateCredential (py : Interpreter) (supply : Supply)
    (workspaceId vaultId credentialId : String) (view : View) :
    Except HTTPException Outcome := do
  let credential ← mustExistCredential workspaceId vaultId credentialId view
  let data ← validatedCredentialData py (supply.clock 0) credential vaultId
  let (shown, changed) := updateResource credential data none
  return { statements := [changed], shown := shown }

/-! ## Versions of skills -/

def skillVersionQuery (workspaceId skillId : String) : ResourceQuery where
  resourceType := .skillVersion
  workspaceId := workspaceId
  parentId := some skillId

def skillVersionNotFound : HTTPException := ⟨404, "Skill version not found"⟩

def findSkillVersion (workspaceId skillId : String) (version : ℤ) (view : View) :
    Except HTTPException Resource := do
  let found ← getResourceVersion (view 0) (skillVersionQuery workspaceId skillId) version
  match found with
  | some row => return row
  | none => throw skillVersionNotFound

def retrieveSkillVersion (workspaceId skillId : String) (version : ℤ) (view : View) :
    Except HTTPException Outcome := do
  let skillVersion ← findSkillVersion workspaceId skillId version view
  return { shown := skillVersion }

def deleteSkillVersion (supply : Supply) (workspaceId skillId : String) (version : ℤ)
    (view : View) : Except HTTPException Outcome := do
  let skillVersion ← findSkillVersion workspaceId skillId version view
  let (shown, deleted) := deleteResource skillVersion (supply.clock 0)
  return { statements := [deleted], shown := shown }

/-- The object store: the key of a row in it, if the row is kept there, and what
is stored under a key, if the store answers. -/
structure ObjectStore where
  storageKey : Resource → Option String
  download : String → Option (List UInt8)

def downloadSkillVersion (objects : ObjectStore) (workspaceId skillId : String)
    (version : ℤ) (view : View) : Except HTTPException (Resource × List UInt8) := do
  let skillVersion ← findSkillVersion workspaceId skillId version view
  match objects.storageKey skillVersion with
  | none => throw ⟨500, "Skill version object is not stored in object storage"⟩
  | some key =>
      match objects.download key with
      | none => throw internalServerError
      | some content => return (skillVersion, content)

end ManagedAgents
