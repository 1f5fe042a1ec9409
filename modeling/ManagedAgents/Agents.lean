import ManagedAgents.Metadata
import ManagedAgents.ResourceWrites

/-!
# Agents and their versions

An agent row names its active version and repeats the name, the description and
the metadata of that version.  A request checks and completes the configuration
it is given and is returned with the statements it writes.
-/

namespace ManagedAgents

open Fallible

/-! ## Rows -/

structure Agent where
  id : String
  workspaceId : String
  name : String
  description : Option String
  activeVersion : ℕ
  metadata : Dict
  archivedAt : Option Time := none
deriving DecidableEq

structure AgentVersionRow extends AgentVersion where
  workspaceId : String

structure AgentRows where
  agents : List Agent := []
  versions : List AgentVersionRow := []

/-- The rows which the queries of a request see. -/
abbrev AgentView := ℕ → AgentRows

def getAgent (rows : AgentRows) (workspaceId agentId : String) : Option Agent :=
  rows.agents.find? fun agent => agent.id = agentId ∧ agent.workspaceId = workspaceId

def getAgentVersion (rows : AgentRows) (agentId : String) (version : ℤ)
    (workspaceId : String) : Option AgentVersionRow :=
  rows.versions.find? fun row =>
    row.agentId = agentId ∧ (row.version : ℤ) = version ∧ row.workspaceId = workspaceId

def getActiveAgentVersion (rows : AgentRows) (agent : Agent) : Option AgentVersionRow :=
  getAgentVersion rows agent.id agent.activeVersion agent.workspaceId

/-! ## Requests -/

structure AgentCreateRequest where
  name : String
  model : Json
  system : Option String := none
  description : Option String := none
  tools : List Dict := []
  mcpServers : List Dict := []
  skills : List Dict := []
  multiagent : Option Dict := none
  metadata : Dict := []
  runtime : Dict := []

/-- A field that is not set is left alone; one that is set may be `None`. -/
structure AgentUpdateRequest where
  version : ℤ
  name : Option (Option String) := none
  model : Option Json := none
  system : Option (Option String) := none
  description : Option (Option String) := none
  tools : Option (Option (List Dict)) := none
  mcpServers : Option (Option (List Dict)) := none
  skills : Option (Option (List Dict)) := none
  multiagent : Option (Option Dict) := none
  metadata : Option (Option Dict) := none
  runtime : Option (Option Dict) := none

/-! ## Names and models -/

def normalizeAgentName (value : Option String) : Except HTTPException String :=
  match value with
  | some name =>
      if strip name = "" then .error ⟨422, "name must be a non-empty string"⟩
      else .ok (strip name)
  | none => .error ⟨422, "name must be a non-empty string"⟩

/-- `speed not in {None, "standard", "fast"}`; a value without a hash raises. -/
def checkModelSpeed (speed : Json) : Except HTTPException Unit :=
  match speed with
  | .list _ | .dict _ => .error internalServerError
  | _ =>
      raiseIf (speed ∉ [Json.null, .str "standard", .str "fast"])
        ⟨422, "model.speed must be standard or fast"⟩

def normalizeAgentModel (value : Json) : Except HTTPException Json :=
  match value with
  | .str text =>
      if strip text = "" then .error ⟨422, "model id must be a non-empty string"⟩
      else .ok (.dict [("id", .str (strip text))])
  | .dict fields =>
      match (Dict.get fields "id").or (Dict.get fields "model") with
      | .str modelId =>
          if strip modelId = "" then
            .error ⟨422, "model.id must be a non-empty string"⟩
          else do
            checkModelSpeed (Dict.get fields "speed")
            return .dict (Dict.set fields "id" (.str (strip modelId)))
      | _ => .error ⟨422, "model.id must be a non-empty string"⟩
  | _ => .error ⟨422, "model must be a string or object"⟩

/-! ## Rosters -/

def MAX_ROSTER_AGENTS : ℕ := 20

def notDistinct : HTTPException :=
  ⟨422, "multiagent.agents entries must reference distinct agents"⟩

/-- A text stands for an entry of the type `agent`. -/
def rosterEntry (entry : Json) : Except HTTPException Dict :=
  match entry with
  | .str agentId => .ok [("type", .str "agent"), ("id", .str agentId)]
  | .dict fields => .ok fields
  | _ => .error ⟨422, "multiagent.agents entries must be strings or objects"⟩

def rosterEntryId (entry : Dict) : Except HTTPException String :=
  match Dict.get entry "id" with
  | .str agentId =>
      if agentId = "" then .error ⟨422, "multiagent agent entries require id"⟩
      else .ok agentId
  | _ => .error ⟨422, "multiagent agent entries require id"⟩

def pinnedVersion (py : Python) (referenced : Agent) (rawVersion : Json) :
    Except HTTPException ℤ :=
  if rawVersion = .null then .ok referenced.activeVersion
  else
    match py.int rawVersion with
    | .ok version => .ok version
    | .error .overflowError => .error internalServerError
    | .error _ => .error ⟨422, "multiagent agent version must be an integer"⟩

/-- `get_agent` while the session holds the row of the agent that is updated. -/
def getReferencedAgent (rows : AgentRows) (workspaceId : String) (self : Option Agent)
    (agentId : String) : Option Agent :=
  (getAgent rows workspaceId agentId).map fun found =>
    match self with
    | some held => if held.id = found.id then held else found
    | none => found

/-- An entry of the type `agent` with the version it names, or the active one. -/
def pinRosterEntry (py : Python) (workspaceId : String) (self : Option Agent)
    (view : AgentView) (query : ℕ) (seen : List String) (entry : Dict) :
    Except HTTPException (String × Dict) := do
  let agentId ← rosterEntryId entry
  match getReferencedAgent (view query) workspaceId self agentId with
  | none => .error ⟨422, "Referenced agent not found: " ++ agentId⟩
  | some referenced =>
      raiseIf (referenced.archivedAt ≠ none)
        ⟨422, "Referenced agent not found: " ++ agentId⟩
      let pinned ← pinnedVersion py referenced (Dict.get entry "version")
      raiseIf (pinned < 1) ⟨422, "multiagent agent version must be at least 1"⟩
      match getAgentVersion (view (query + 1)) agentId pinned referenced.workspaceId with
      | none =>
          .error ⟨422, "Referenced agent version not found: " ++ agentId ++ "@" ++
            toString pinned⟩
      | some version =>
          raiseIf (version.multiagent ≠ .null)
            ⟨422, "multiagent agents cannot reference another multiagent agent"⟩
          raiseIf (agentId ∈ seen) notDistinct
          let entry := Dict.set entry "type" (.str "agent")
          let entry := Dict.set entry "id" (.str agentId)
          return (agentId, Dict.set entry "version" (.int pinned))

/-- `self_agent_id or "self"`. -/
def selfKey (self : Option Agent) : String :=
  (self.map Agent.id).getD "self"

/-- The loop over the entries, with two queries for each. -/
def rosterEntries (py : Python) (workspaceId : String) (self : Option Agent)
    (view : AgentView) :
    ℕ → List String → Bool → List Json → Except HTTPException (List Json)
  | _, _, _, [] => .ok []
  | query, seen, sawSelf, entry :: rest => do
      let fields ← rosterEntry entry
      if Dict.get fields "type" = .str "self" then
        raiseIf (sawSelf = true)
          ⟨422, "multiagent.agents may include at most one self entry"⟩
        raiseIf (selfKey self ∈ seen) notDistinct
        let entries ← rosterEntries py workspaceId self view (query + 2)
          (selfKey self :: seen) true rest
        return .dict fields :: entries
      else
        raiseIf (Dict.get fields "type" ≠ .str "agent")
          ⟨422, "multiagent.agents entries must be \"agent\" or \"self\""⟩
        let (agentId, pinned) ← pinRosterEntry py workspaceId self view query seen fields
        let entries ← rosterEntries py workspaceId self view (query + 2)
          (agentId :: seen) sawSelf rest
        return .dict pinned :: entries

/-- `normalized.get("agents", [])`. -/
def rosterAgents (multiagent : Dict) : Except HTTPException (List Json) :=
  if Dict.contains multiagent "agents" then
    match Dict.get multiagent "agents" with
    | .list items => .ok items
    | _ => .error ⟨422, "multiagent.agents must be an array"⟩
  else .ok []

def normalizeMultiagentRoster (py : Python) (workspaceId : String) (self : Option Agent)
    (view : AgentView) (query : ℕ) (multiagent : Option Dict) :
    Except HTTPException Json :=
  match multiagent with
  | none => .ok .null
  | some fields => do
      raiseIf (Dict.get fields "type" ≠ .str "coordinator")
        ⟨422, "multiagent.type must be \"coordinator\""⟩
      let agents ← rosterAgents fields
      raiseIf (agents = []) ⟨422, "multiagent.agents must contain at least one agent"⟩
      raiseIf (agents.length > MAX_ROSTER_AGENTS)
        ⟨422, "multiagent.agents supports at most 20 agents"⟩
      let entries ← rosterEntries py workspaceId self view query [] false agents
      return .dict (Dict.set fields "agents" (.list entries))

def resolveRosterEntry (agentId : String) (version : ℕ) (entry : Json) :
    Except HTTPException Json :=
  match entry with
  | .dict fields =>
      if Dict.get fields "type" = .str "self" then
        .ok (.dict [("type", .str "agent"), ("id", .str agentId),
          ("version", .int version)])
      else .ok (.dict fields)
  | _ => .error internalServerError

/-- Every roster is normalised before it gets here. -/
def resolveMultiagentSelfEntries (multiagent : Dict) (agentId : String) (version : ℕ) :
    Except HTTPException Dict :=
  match Dict.get multiagent "agents" with
  | .list entries => do
      let agents ← entries.mapM (resolveRosterEntry agentId version)
      return Dict.set multiagent "agents" (.list agents)
  | value =>
      if value.truthy then .error internalServerError
      else .ok (Dict.set multiagent "agents" (.list []))

/-! ## Skills -/

def skillReference (skillType skillId version : String) : Json :=
  .dict [("type", .str skillType), ("skill_id", .str skillId), ("version", .str version)]

def skillQuery (workspaceId : String) : ResourceQuery where
  resourceType := .skill
  workspaceId := workspaceId

/-- `"latest" if requested_version in (None, "", "latest") else str(requested_version)`. -/
def skillVersionText (py : Python) (requested : Json) : String :=
  if requested ∈ [Json.null, .str "", .str "latest"] then "latest" else py.str requested

def checkCustomSkill (py : Python) (workspaceId : String)
    (resources : ℕ → List Resource) (query : ℕ) (skillId version : String) :
    Except HTTPException Unit :=
  match getResource (resources query) skillId (skillQuery workspaceId) with
  | none => .error ⟨422, "Skill not found: " ++ skillId⟩
  | some skill =>
      if version = "latest" then
        raiseIf ((Dict.get skill.data "latest_version").truthy = false)
          ⟨422, "Skill has no latest version: " ++ skillId⟩
      else
        match py.intOfStr version with
        | none => .error ⟨422, "skill version must be an integer or latest"⟩
        | some number => do
            let found ← getResourceVersion (resources (query + 1))
              { skillQuery workspaceId with
                resourceType := .skillVersion, parentId := some skillId } number
            raiseIf (found = none)
              ⟨422, "Skill version not found: " ++ skillId ++ "@" ++ version⟩

/-- The reference which an entry stands for. -/
def normalizeSkillRef (py : Python) (workspaceId : String)
    (resources : ℕ → List Resource) (query : ℕ) (entry : Dict) :
    Except HTTPException (String × String × String) := do
  let skillType := py.str ((Dict.get entry "type").or (.str "custom"))
  match (Dict.get entry "id").or (Dict.get entry "skill_id") with
  | .str skillId =>
      raiseIf (skillId = "") ⟨422, "skills entries require skill_id"⟩
      let version := skillVersionText py (Dict.get entry "version")
      if skillType = "anthropic" then return ("anthropic", skillId, version)
      else
        raiseIf (skillType ∉ ["custom", "skill"])
          ⟨422, "skills entries type must be \"custom\" or \"anthropic\""⟩
        checkCustomSkill py workspaceId resources query skillId version
        return ("custom", skillId, version)
  | _ => .error ⟨422, "skills entries require skill_id"⟩

def skillRefs (py : Python) (workspaceId : String) (resources : ℕ → List Resource) :
    ℕ → List (String × String × String) → List Dict → Except HTTPException (List Json)
  | _, _, [] => .ok []
  | query, seen, entry :: rest => do
      let key ← normalizeSkillRef py workspaceId resources query entry
      if key ∈ seen then skillRefs py workspaceId resources (query + 2) seen rest
      else
        let refs ← skillRefs py workspaceId resources (query + 2) (key :: seen) rest
        return skillReference key.1 key.2.1 key.2.2 :: refs

def normalizeSkillRefs (py : Python) (workspaceId : String)
    (resources : ℕ → List Resource) (skills : List Dict) :
    Except HTTPException (List Json) :=
  skillRefs py workspaceId resources 0 [] skills

end ManagedAgents
