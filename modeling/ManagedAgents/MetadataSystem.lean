import ManagedAgents.CredentialSystem
import ManagedAgents.DeploymentWrites
import ManagedAgents.MetadataMerges
import ManagedAgents.Vaults

/-!
# Writers of metadata

The rows with metadata and all calls that write them: requests for vaults, memory
stores, credentials, user profiles and deployments, scheduler ticks, requests that
create a session and the transactions of a session.
-/

namespace ManagedAgents

open Fallible LabelledRuns ReadCommitted

/-! ## Vaults, memory stores and credentials -/

inductive ContainerRequest
  | createVault (body : Dict)
  | updateVault (vaultId : String) (body : Dict)
  | archiveVault (vaultId : String)
  | deleteVault (vaultId : String)
  | createMemoryStore (body : MemoryStoreCreateRequest)
  | updateMemoryStore (storeId : String) (body : MemoryStoreUpdateRequest)
  | archiveMemoryStore (storeId : String)
  | deleteMemoryStore (storeId : String)
  | createCredential (vaultId : String) (body : Dict)
  | updateCredential (vaultId credentialId : String) (body : Dict)
  | archiveCredential (vaultId credentialId : String)
  | deleteCredential (vaultId credentialId : String)
  | validateCredential (vaultId credentialId : String)
  | other (statements : List Statement)

/-- At most `limit` characters, none of which JSON escapes. -/
def ShortText (limit : ℕ) (text : String) : Prop :=
  text.length ≤ limit ∧ ∀ char ∈ text.toList, JsonString.isPlain char.toNat = true

instance (limit : ℕ) (text : String) : Decidable (ShortText limit text) :=
  inferInstanceAs (Decidable (_ ∧ _))

/-- The identifiers are those of `uuid4().hex`. -/
def IsUuidHex (uuidHex : ℕ → String) : Prop := ∀ draw, ShortText 32 (uuidHex draw)

structure ContainerCall where
  workspaceId : String
  supply : Supply
  uuids : IsUuidHex supply.uuidHex
  nonce : ℕ → List UInt8
  request : ContainerRequest

/-- The interpreter, the encryption and the calendar which all calls share; a
timestamp is a short text. -/
structure MetadataSettings where
  py : Interpreter
  encryption : EncryptionSettings
  deployments : DeploymentSettings
  timestamps : ∀ now, ShortText 32 (py.isoformat now)

def ContainerCall.cipher (settings : MetadataSettings) (call : ContainerCall) :
    SecretCipher where
  encryptionKey := settings.encryption.encryptionKey
  nonce := call.nonce
  aesgcmEncrypt := settings.encryption.aesgcmEncrypt

/-- The rows of the table whose data have metadata. -/
def CarriesMetadata (row : Resource) : Prop :=
  row.resourceType = .vault ∨ row.resourceType = .credential ∨
    row.resourceType = .memoryStore

instance (row : Resource) : Decidable (CarriesMetadata row) :=
  inferInstanceAs (Decidable (_ ∨ _))

/-- The statement leaves the rows with metadata alone. -/
def Statement.sparesMetadata (current : List Resource) : Statement → Bool
  | .insert row => ¬CarriesMetadata row
  | .update resourceId _ =>
      current.all fun row => row.id ≠ resourceId ∨ ¬CarriesMetadata row

/-- The writes of the request; those for other rows are given. -/
def ContainerCall.handle (settings : MetadataSettings) (call : ContainerCall)
    (view : View) : Except HTTPException (List Statement) :=
  let py := settings.py
  let cipher := call.cipher settings
  let workspaceId := call.workspaceId
  match call.request with
  | .createVault body =>
      Outcome.statements <$> createVault call.supply workspaceId body
  | .updateVault vaultId body =>
      Outcome.statements <$> updateVault workspaceId vaultId body view
  | .archiveVault vaultId =>
      Outcome.statements <$> archiveVault call.supply workspaceId vaultId view
  | .deleteVault vaultId =>
      Outcome.statements <$> deleteVault call.supply workspaceId vaultId view
  | .createMemoryStore body =>
      Outcome.statements <$> createMemoryStore py call.supply workspaceId body
  | .updateMemoryStore storeId body =>
      Outcome.statements <$> updateMemoryStore py workspaceId storeId body view
  | .archiveMemoryStore storeId =>
      Outcome.statements <$> archiveMemoryStore call.supply workspaceId storeId view
  | .deleteMemoryStore storeId =>
      Outcome.statements <$> deleteMemoryStore call.supply workspaceId storeId view
  | .createCredential vaultId body =>
      Outcome.statements <$>
        createCredential py cipher call.supply workspaceId vaultId body view
  | .updateCredential vaultId credentialId body =>
      Outcome.statements <$>
        updateCredential py cipher workspaceId vaultId credentialId body view
  | .archiveCredential vaultId credentialId =>
      Outcome.statements <$>
        archiveCredential py call.supply workspaceId vaultId credentialId view
  | .deleteCredential vaultId credentialId =>
      Outcome.statements <$>
        deleteCredential py call.supply workspaceId vaultId credentialId view
  | .validateCredential vaultId credentialId =>
      Outcome.statements <$>
        validateCredential py call.supply workspaceId vaultId credentialId view
  | .other statements => .ok statements

/-- The rows after the commit. -/
def ContainerCall.body (settings : MetadataSettings) (call : ContainerCall) (view : View)
    (current : List Resource) : Option (List Resource) :=
  match call.request, call.handle settings view with
  | .other _, .ok statements =>
      if statements.all (Statement.sparesMetadata current) then
        commit current statements
      else none
  | _, .ok statements => commit current statements
  | _, .error _ => none

/-! ## Sessions -/

structure SessionCreateRequest where
  agentId : String
  version : Option ℤ := none
  environmentId : String
  title : Option String := none
  metadata : Dict := []
  resources : List Dict := []
  vaultIds : List String := []

/-- The loop of `_validate_session_vault_ids`. -/
def resolveSessionVaultIds (surroundings : Surroundings) (workspaceId : String)
    (resolved : List String) : List String → Except HTTPException (List String)
  | [] => .ok resolved
  | vaultId :: rest =>
      if vaultId = "" then .error ⟨422, "vault_ids must not contain empty values"⟩
      else if vaultId ∈ resolved then
        resolveSessionVaultIds surroundings workspaceId resolved rest
      else if vaultUsable surroundings workspaceId vaultId then
        resolveSessionVaultIds surroundings workspaceId (resolved ++ [vaultId]) rest
      else .error ⟨404, "Vault not found"⟩

/-- The agent with the version to which the session is pinned. -/
def findSessionAgent (surroundings : Surroundings) (workspaceId : String)
    (body : SessionCreateRequest) : Except HTTPException (Agent × AgentVersionRow) :=
  match getAgent surroundings.agents workspaceId body.agentId with
  | none => .error ⟨404, "Agent not found"⟩
  | some agent =>
      if agent.archivedAt ≠ none then .error ⟨404, "Agent not found"⟩
      else
        let version := (body.version.filter (· ≠ 0)).getD agent.activeVersion
        match getAgentVersion surroundings.agents agent.id version workspaceId with
        | none => .error ⟨404, "Agent version not found"⟩
        | some agentVersion => .ok (agent, agentVersion)

def findSessionEnvironment (surroundings : Surroundings) (workspaceId : String)
    (environmentId : String) : Except HTTPException EnvironmentRow :=
  match getEnvironment surroundings workspaceId environmentId with
  | none => .error ⟨404, "Environment not found"⟩
  | some environment =>
      if environment.deletedAt ≠ none ∨ environment.archivedAt ≠ none then
        .error ⟨404, "Environment not found"⟩
      else .ok environment

structure SessionCreateCall where
  workspaceId : String
  surroundings : Surroundings
  attachments : AttachmentContext
  uuidHex : String
  body : SessionCreateRequest

/-- The session row of `create_session`. -/
def SessionCreateCall.session (call : SessionCreateCall) :
    Except HTTPException ManagedSession := do
  let (agent, version) ← findSessionAgent call.surroundings call.workspaceId call.body
  let environment ← findSessionEnvironment call.surroundings call.workspaceId
    call.body.environmentId
  let vaultIds ← resolveSessionVaultIds call.surroundings agent.workspaceId []
    call.body.vaultIds
  let metadata ← normalizeMetadata (.dict call.body.metadata)
  let id := "sess_" ++ call.uuidHex
  let _ ← attachSessionResources call.attachments call.surroundings
    { id := id, workspaceId := agent.workspaceId } [] (call.body.resources.map .dict)
  return newSession {
    id := id
    agentId := agent.id
    agentVersion := version.version
    environmentId := environment.id
    title := call.body.title
    metadata := metadata
    vaultIds := vaultIds }

def insertSession (sessions : List ManagedSession) (session : ManagedSession) :
    Option (List ManagedSession) :=
  if session.id ∈ sessions.map ManagedSession.id then none
  else some (sessions ++ [session])

/-- The row of the session of a run. -/
def DeploymentSession.row (session : DeploymentSession) : ManagedSession :=
  newSession {
    id := session.id
    agentId := session.agentId
    agentVersion := session.agentVersion.toNat
    environmentId := session.environmentId
    title := session.title
    metadata := session.metadata
    vaultIds := session.vaultIds }

/-- A transaction of a session, with the events and the work items that it reads. -/
structure SessionCall where
  sessionId : String
  transaction : Transaction
  context : Context
  events : List SessionEvent
  work : List EnvironmentWork

def SessionCall.body (py : Python) (call : SessionCall)
    (view : ℕ → List ManagedSession) (current : List ManagedSession) :
    Option (List ManagedSession) :=
  match (view 0).find? fun session => session.id = call.sessionId with
  | none => none
  | some read =>
      let db := { session := read, events := call.events, work := call.work }
      (call.transaction.body py (Tx.begin db call.context)).map fun tx =>
        current.map fun row =>
          if row.id = read.id then flushSession read tx.session row else row

/-! ## The system -/

structure MetadataDb where
  resources : List Resource
  profiles : List UserProfile
  deployments : DeploymentDb
  sessions : List ManagedSession

def MetadataDb.empty : MetadataDb where
  resources := []
  profiles := []
  deployments := { deployments := [], runs := [], sessions := [] }
  sessions := []

/-- The identifiers which the call draws are those of `uuid4().hex`. -/
def DeploymentCall.DrawsUuids : DeploymentCall → Prop
  | .request _ _ draws _ => IsUuidHex draws.uuidHex
  | .scheduled tick => ∀ deploymentId, IsUuidHex (tick.draws deploymentId).uuidHex

inductive MetadataCall
  | container (call : ContainerCall)
  | profile (call : ProfileCall)
  | deployment (call : DeploymentCall) (uuids : call.DrawsUuids)
  | createSession (call : SessionCreateCall)
  | session (call : SessionCall)

abbrev MetadataView := ℕ → MetadataDb

/-- The rows after a call for deployments; the sessions of its runs join the
others. -/
def deploymentBody (settings : DeploymentSettings) (call : DeploymentCall)
    (view : MetadataView) (current : MetadataDb) : Option MetadataDb :=
  let answer := call.answer settings fun query => (view query).deployments
  (commitDeployments current.deployments answer.statements).map fun deployments =>
    { current with
      deployments := deployments
      sessions := current.sessions ++
        (answer.statements.filterMap DeploymentStatement.newSession).map
          DeploymentSession.row }

/-- The state after the commit. -/
def MetadataCall.body (settings : MetadataSettings) (call : MetadataCall)
    (view : MetadataView) (current : MetadataDb) : Option MetadataDb :=
  match call with
  | .container call =>
      (call.body settings (fun query => (view query).resources) current.resources).map
        fun rows => { current with resources := rows }
  | .profile call =>
      (call.body (fun query => (view query).profiles) current.profiles).map
        fun rows => { current with profiles := rows }
  | .deployment call _ => deploymentBody settings.deployments call view current
  | .createSession call =>
      (call.session.toOption.bind (insertSession current.sessions)).map
        fun rows => { current with sessions := rows }
  | .session call =>
      (call.body settings.py.toPython (fun query => (view query).sessions)
        current.sessions).map fun rows => { current with sessions := rows }

abbrev MetadataWorld := Timeline MetadataDb

def MetadataWorld.start : MetadataWorld where
  current := MetadataDb.empty
  past := []

def metadataStep (settings : MetadataSettings) (world : MetadataWorld)
    (label : MetadataCall × List ℕ) : Option MetadataWorld :=
  ReadCommitted.step (MetadataCall.body settings) world label

end ManagedAgents
