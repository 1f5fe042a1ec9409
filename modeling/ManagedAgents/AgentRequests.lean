import ManagedAgents.Agents

/-!
# Requests to agents

The endpoints which write agents.  An update names the version it was made for;
its patch is merged onto that version, and a merge that changes nothing adds no
version.
-/

namespace ManagedAgents

open Fallible

/-! ## Statements -/

/-- The columns of an agent which an `UPDATE` sets. -/
structure AgentColumns where
  activeVersion : Option ℕ := none
  name : Option String := none
  description : Option (Option String) := none
  metadata : Option Dict := none
  archivedAt : Option Time := none

def AgentColumns.write (columns : AgentColumns) (agent : Agent) : Agent :=
  { agent with
    activeVersion := columns.activeVersion.getD agent.activeVersion
    name := columns.name.getD agent.name
    description := columns.description.getD agent.description
    metadata := columns.metadata.getD agent.metadata
    archivedAt := columns.archivedAt.or agent.archivedAt }

inductive AgentStatement
  | insertAgent (agent : Agent)
  | insertVersion (version : AgentVersionRow)
  | updateAgent (agentId : String) (columns : AgentColumns)
  | updateRoster (versionId : String) (multiagent : Json)

/-- The primary key and `unique(agent_id, version)`.  The constraint with
`workspace_id` follows from it. -/
def versionConflicts (version other : AgentVersionRow) : Bool :=
  version.id = other.id ∨
    (version.agentId = other.agentId ∧ version.version = other.version)

def updateAgentRow (agents : List Agent) (agentId : String) (columns : AgentColumns) :
    List Agent :=
  agents.map fun agent => if agent.id = agentId then columns.write agent else agent

def updateRosterColumn (versions : List AgentVersionRow) (versionId : String)
    (multiagent : Json) : List AgentVersionRow :=
  versions.map fun version =>
    if version.id = versionId then { version with multiagent := multiagent } else version

def AgentStatement.execute (rows : AgentRows) : AgentStatement → Option AgentRows
  | .insertAgent agent =>
      if rows.agents.any fun other => other.id = agent.id then none
      else some { rows with agents := rows.agents ++ [agent] }
  | .insertVersion version =>
      if rows.versions.any (versionConflicts version) then none
      else some { rows with versions := rows.versions ++ [version] }
  | .updateAgent agentId columns =>
      some { rows with agents := updateAgentRow rows.agents agentId columns }
  | .updateRoster versionId multiagent =>
      some { rows with
        versions := updateRosterColumn rows.versions versionId multiagent }

def commitAgents (rows : AgentRows) (statements : List AgentStatement) :
    Option AgentRows :=
  statements.foldlM AgentStatement.execute rows

/-- What a request that ends without an error writes, and the rows of its
response. -/
structure AgentOutcome where
  statements : List AgentStatement := []
  agent : Agent
  version : AgentVersionRow

/-- What a request draws from outside: identifiers, the clock and the rows of
the skills, which other requests may change between its queries. -/
structure AgentContext where
  workspaceId : String
  supply : Supply
  resources : ℕ → List Resource

/-! ## Configurations -/

/-- The fields of a version which a request determines. -/
structure AgentConfig where
  name : String
  model : Json
  system : Option String
  description : Option String
  tools : List Json
  mcpServers : List Json
  skills : List Json
  multiagent : Json
  metadata : Dict
  runtime : Json

def AgentConfig.toVersion (config : AgentConfig) (id workspaceId agentId : String)
    (version : ℕ) : AgentVersionRow where
  id := id
  workspaceId := workspaceId
  agentId := agentId
  version := version
  name := config.name
  model := config.model
  system := config.system
  description := config.description
  tools := config.tools
  mcpServers := config.mcpServers
  skills := config.skills
  multiagent := config.multiagent
  runtime := config.runtime
  metadata := config.metadata

/-- The dumped body of an update with its rosters, skills and tools normalised. -/
structure AgentUpdate where
  name : Option (Option String)
  model : Option Json
  system : Option (Option String)
  description : Option (Option String)
  tools : Option (List Json)
  mcpServers : Option (Option (List Dict))
  skills : Option (List Json)
  multiagent : Option Json
  metadata : Option (Option Dict)
  runtime : Option (Option Dict)

/-- Normalise a field if it is set. -/
def normalizeField {Raw Value : Type} (field : Option Raw)
    (normalize : Raw → Except HTTPException Value) : Except HTTPException
      (Option Value) :=
  match field with
  | none => .ok none
  | some raw => do return some (← normalize raw)

def normalizeAgentUpdate (py : Python) (context : AgentContext) (agent : Agent)
    (body : AgentUpdateRequest) (view : AgentView) (query : ℕ) :
    Except HTTPException AgentUpdate := do
  let multiagent ← normalizeField body.multiagent
    (normalizeMultiagentRoster py context.workspaceId (some agent) view query)
  let skills ← normalizeField body.skills fun skills =>
    normalizeSkillRefs py context.workspaceId context.resources (skills.getD [])
  let tools ← normalizeField body.tools fun tools =>
    normalizeAgentTools py (.list ((tools.getD []).map .dict))
  return {
    name := body.name
    model := body.model
    system := body.system
    description := body.description
    tools := tools
    mcpServers := body.mcpServers
    skills := skills
    multiagent := multiagent
    metadata := body.metadata
    runtime := body.runtime }

/-- The value of a field after the update. -/
def mergeField {Raw Value : Type} (active : Value) (field : Option Raw)
    (normalize : Raw → Except HTTPException Value) : Except HTTPException Value :=
  match field with
  | none => .ok active
  | some raw => normalize raw

def optionalDict (value : Option Dict) : Json :=
  match value with
  | some fields => .dict fields
  | none => .null

def mergeAgentUpdate (active : AgentVersionRow) (update : AgentUpdate) :
    Except HTTPException AgentConfig := do
  let name ← mergeField active.name update.name normalizeAgentName
  let model ← mergeField active.model update.model normalizeAgentModel
  let metadata ← mergeField active.metadata update.metadata fun patch =>
    mergeMetadata (.dict active.metadata) (optionalDict patch)
  return {
    name := name
    model := model
    system := update.system.getD active.system
    description := update.description.getD active.description
    tools := update.tools.getD active.tools
    mcpServers :=
      (update.mcpServers.map fun servers => (servers.getD []).map .dict).getD
        active.mcpServers
    skills := update.skills.getD active.skills
    multiagent := update.multiagent.getD active.multiagent
    metadata := metadata
    runtime := (update.runtime.map fun runtime => .dict (runtime.getD [])).getD
      active.runtime }

/-- The comparison of `update_agent` in the queries. -/
def configUnchanged (active : AgentVersionRow) (config : AgentConfig) : Bool :=
  active.name = config.name ∧ active.description = config.description ∧
    Dict.equal active.metadata config.metadata ∧
    Json.equal active.model config.model ∧ active.system = config.system ∧
    Json.equalItems active.tools config.tools ∧
    Json.equalItems active.mcpServers config.mcpServers ∧
    Json.equalItems active.skills config.skills ∧
    Json.equal active.multiagent config.multiagent ∧
    Json.equal active.runtime config.runtime

/-! ## Writes -/

/-- The roster of a version with its self entries resolved, if it is not `None`. -/
def resolvedMultiagent (multiagent : Json) (agentId : String) (version : ℕ) :
    Except HTTPException Json :=
  match multiagent with
  | .null => .ok .null
  | .dict fields => do
      return .dict (← resolveMultiagentSelfEntries fields agentId version)
  | _ => .error internalServerError

/-- The assignment of the resolved roster; the flush writes a changed column. -/
def resolveRoster (outcome : AgentOutcome) : Except HTTPException AgentOutcome := do
  let stored := outcome.version.multiagent
  let resolved ← resolvedMultiagent stored outcome.agent.id outcome.version.version
  return { outcome with
    statements :=
      if resolved = stored ∨ Json.equal resolved stored then outcome.statements
      else outcome.statements ++ [.updateRoster outcome.version.id resolved]
    version := { outcome.version with multiagent := resolved } }

/-- The columns which differ from the row that the session holds. -/
def changedColumns (agent : Agent) (config : AgentConfig) : AgentColumns where
  activeVersion := some (agent.activeVersion + 1)
  name := if config.name = agent.name then none else some config.name
  description :=
    if config.description = agent.description then none else some config.description
  metadata :=
    if Dict.equal config.metadata agent.metadata then none else some config.metadata

/-- The row of the agent as the session holds it after the writes. -/
def updatedAgent (agent : Agent) (config : AgentConfig) : Agent :=
  { agent with
    activeVersion := agent.activeVersion + 1
    name := config.name
    description := config.description
    metadata := config.metadata }

def nextVersion (supply : Supply) (agent : Agent) (config : AgentConfig) :
    AgentVersionRow :=
  config.toVersion ("agtv_" ++ supply.uuidHex 0) agent.workspaceId agent.id
    (agent.activeVersion + 1)

/-- `update_agent` of the queries.  It looks the active version up again, which
the session holds. -/
def writeAgentVersion (supply : Supply) (rows : AgentRows) (agent : Agent)
    (active : AgentVersionRow) (config : AgentConfig) :
    Except HTTPException AgentOutcome := do
  raiseIf ((getActiveAgentVersion rows agent).isNone = true) internalServerError
  if configUnchanged active config then return { agent := agent, version := active }
  else
    let version := nextVersion supply agent config
    return {
      statements :=
        [.updateAgent agent.id (changedColumns agent config), .insertVersion version]
      agent := updatedAgent agent config
      version := version }

/-! ## Endpoints -/

def createAgent (py : Python) (context : AgentContext) (body : AgentCreateRequest)
    (view : AgentView) : Except HTTPException AgentOutcome := do
  let name ← normalizeAgentName (some body.name)
  let model ← normalizeAgentModel body.model
  let tools ← normalizeAgentTools py (.list (body.tools.map .dict))
  validateMcpBindings (body.mcpServers.map .dict) tools
  let multiagent ← normalizeMultiagentRoster py context.workspaceId none view 0
    body.multiagent
  let skills ← normalizeSkillRefs py context.workspaceId context.resources body.skills
  let metadata ← normalizeMetadata (.dict body.metadata)
  let config : AgentConfig :=
    { name := name
      model := model
      system := body.system
      description := body.description
      tools := tools
      mcpServers := body.mcpServers.map .dict
      skills := skills
      multiagent := multiagent
      metadata := metadata
      runtime := .dict body.runtime }
  let agent : Agent :=
    { id := "agt_" ++ context.supply.uuidHex 0
      workspaceId := context.workspaceId
      name := name
      description := body.description
      activeVersion := 1
      metadata := metadata }
  let version := config.toVersion ("agtv_" ++ context.supply.uuidHex 1)
    context.workspaceId agent.id 1
  resolveRoster
    { statements := [.insertAgent agent, .insertVersion version]
      agent := agent
      version := version }

def agentNotFound : HTTPException := ⟨404, "Agent not found"⟩

def agentVersionNotFound : HTTPException := ⟨404, "Agent version not found"⟩

def mustGetAgent (rows : AgentRows) (workspaceId agentId : String) :
    Except HTTPException Agent :=
  match getAgent rows workspaceId agentId with
  | some agent => .ok agent
  | none => .error agentNotFound

def mustGetActiveVersion (rows : AgentRows) (agent : Agent) :
    Except HTTPException AgentVersionRow :=
  match getActiveAgentVersion rows agent with
  | some version => .ok version
  | none => .error agentVersionNotFound

def versionMismatch (agent : Agent) (body : AgentUpdateRequest) : HTTPException :=
  ⟨409, "Version mismatch: expected " ++ toString agent.activeVersion ++ ", got " ++
    toString body.version⟩

/-- The last query of an update; those for its roster come before it. -/
def lastAgentQuery : ℕ := 2 + 2 * MAX_ROSTER_AGENTS

def updateAgent (py : Python) (context : AgentContext) (agentId : String)
    (body : AgentUpdateRequest)
    (view : AgentView) : Except HTTPException AgentOutcome := do
  let agent ← mustGetAgent (view 0) context.workspaceId agentId
  raiseIf (agent.archivedAt ≠ none) ⟨409, "Archived agents cannot be updated"⟩
  let active ← mustGetActiveVersion (view 1) agent
  raiseIf (body.version ≠ agent.activeVersion) (versionMismatch agent body)
  let update ← normalizeAgentUpdate py context agent body view 2
  let config ← mergeAgentUpdate active update
  validateMcpBindings config.mcpServers config.tools
  let outcome ← writeAgentVersion context.supply (view lastAgentQuery) agent active config
  resolveRoster outcome

def archiveAgent (context : AgentContext) (agentId : String) (view : AgentView) :
    Except HTTPException AgentOutcome := do
  let agent ← mustGetAgent (view 0) context.workspaceId agentId
  let version ← mustGetActiveVersion (view 1) agent
  let columns : AgentColumns := { archivedAt := some (context.supply.clock 0) }
  return {
    statements := [.updateAgent agent.id columns]
    agent := columns.write agent
    version := version }

end ManagedAgents
