import ManagedAgents.CommittedStates
import ManagedAgents.Cron
import ManagedAgents.SessionAttachments

/-!
# Deployments

The data of a deployment: how a body becomes the stored dictionary and what is
checked of the agent, the environment and the initial events that it names.
-/

namespace ManagedAgents

open Fallible

/-! ## Rows -/

inductive DeploymentStatus
  | active
  | paused
  | archived
deriving DecidableEq, Repr

def DeploymentStatus.name : DeploymentStatus → String
  | .active => "active"
  | .paused => "paused"
  | .archived => "archived"

/-- A value for the column `status`. -/
def DeploymentStatus.ofJson (value : Json) : Except HTTPException DeploymentStatus :=
  if value = .str "active" then .ok .active
  else if value = .str "paused" then .ok .paused
  else if value = .str "archived" then .ok .archived
  else .error internalServerError

/-- Deployments are never deleted. -/
structure Deployment where
  id : String
  workspaceId : String
  name : Option String
  status : DeploymentStatus
  data : Dict
  createdAt : Time
  archivedAt : Option Time := none
deriving DecidableEq

/-! ## Conversions -/

/-- `int(value)`; the exceptions it raises are not caught. -/
def Python.toInt (py : Python) (value : Json) : Except HTTPException ℤ :=
  match py.int value with
  | .ok parsed => .ok parsed
  | .error _ => .error internalServerError

/-- `str(value or fallback)`. -/
def Python.textOf (py : Python) (value : Json) (fallback : String) : String :=
  py.str (value.or (.str fallback))

def MAX_DEPLOYMENT_RESOURCES : ℕ := 500
def MAX_DEPLOYMENT_VAULT_IDS : ℕ := 50

/-- `None` stands for the empty list. -/
def boundedList (value : Json) (limit : ℕ) (notList tooLong : String) :
    Except HTTPException (List Json) :=
  match value with
  | .null => .ok []
  | .list items =>
      if items.length > limit then .error ⟨422, tooLong⟩ else .ok items
  | _ => .error ⟨422, notList⟩

def normalizeDeploymentResources (resources : Json) : Except HTTPException (List Json) :=
  boundedList resources MAX_DEPLOYMENT_RESOURCES "Deployment resources must be an array"
    "Deployment resources supports at most 500 resources"

def normalizeDeploymentVaultIds (vaultIds : Json) : Except HTTPException (List Json) :=
  boundedList vaultIds MAX_DEPLOYMENT_VAULT_IDS "Deployment vault_ids must be an array"
    "Deployment vault_ids supports at most 50 vaults"

/-! ## The agent -/

/-- `value.get("id") or value.get("agent_id")`. -/
def agentIdField (value : Dict) : Json :=
  (Dict.get value "id").or (Dict.get value "agent_id")

def deploymentAgentReferenceInput (py : Python) : Json → Except HTTPException Dict
  | .str id => .ok [("type", .str "agent"), ("id", .str id)]
  | .dict value =>
      let normalized : Dict :=
        [("type", .str "agent"), ("id", .str (py.textOf (agentIdField value) ""))]
      if Dict.get value "version" = .null then .ok normalized
      else do
        let version ← py.toInt (Dict.get value "version")
        return Dict.set normalized "version" (.int version)
  | _ => .ok [("type", .str "agent"), ("id", .str "")]

/-- The identifier and the version of `_deployment_agent_ref`. -/
def deploymentAgentRef (py : Python) : Json → Except HTTPException (String × Option ℤ)
  | .str id => .ok (id, none)
  | .dict value =>
      if (agentIdField value).truthy then
        if Dict.get value "version" = .null then .ok (py.str (agentIdField value), none)
        else do
          let version ← py.toInt (Dict.get value "version")
          return (py.str (agentIdField value), some version)
      else .error ⟨422, "Deployment agent reference requires id"⟩
  | _ => .error ⟨422, "Deployment agent must be a string or object"⟩

def resolveDeploymentAgentReference (py : Python) (surroundings : Surroundings)
    (workspaceId : String) (value : Json) : Except HTTPException Dict := do
  let agentRef ← deploymentAgentReferenceInput py value
  let agentId := py.textOf (Dict.get agentRef "id") ""
  if agentId = "" then return agentRef
  else
    match getAgent surroundings.agents workspaceId agentId with
    | none => throw ⟨422, "Deployment agent not found"⟩
    | some agent =>
        raiseIf (agent.archivedAt ≠ none) ⟨422, "Deployment agent not found"⟩
        let version ←
          if Dict.get agentRef "version" = .null then pure (agent.activeVersion : ℤ)
          else py.toInt (Dict.get agentRef "version")
        raiseIf ((getAgentVersion surroundings.agents agent.id version
          workspaceId).isNone = true) ⟨422, "Deployment agent version not found"⟩
        return [("type", .str "agent"), ("id", .str agent.id), ("version", .int version)]

/-! ## The stored dictionary -/

def manualPause : Json := .dict [("type", .str "manual")]

/-- The status is active or paused, and only a pause has a reason. -/
def normalizeDeploymentStatus (py : Python) (data : Dict) : Except HTTPException Dict :=
  let status := py.textOf (Dict.get data "status") "active"
  if status = "paused" then
    .ok (Dict.setdefault
      (Dict.set data "status" (.str status)) "paused_reason" manualPause)
  else if status = "active" then
    .ok (Dict.pop (Dict.set data "status" (.str status)) "paused_reason")
  else .error ⟨422, "Deployment status must be active or paused"⟩

/-- `schedule.get("enabled", True)`. -/
def scheduleEnabled (schedule : Dict) : Bool :=
  if Dict.contains schedule "enabled" then (Dict.get schedule "enabled").truthy else true

def upcomingTexts (calendar : Calendar) (expression timezone : String) (utcnow : Time) :
    Except HTTPException Json :=
  match upcomingCronRuns calendar expression timezone utcnow with
  | some upcoming => .ok (.list (upcoming.map .str))
  | none => .error internalServerError

def normalizeDeploymentSchedule (calendar : Calendar) (utcnow : Time) :
    Json → Except HTTPException Dict
  | .dict schedule => do
      raiseIf (calendar.textOf (Dict.get schedule "type") "cron" ≠ "cron")
        ⟨422, "Only cron deployment schedules are supported"⟩
      let expression := strip (calendar.textOf
        ((Dict.get schedule "expression").or (Dict.get schedule "cron")) "")
      raiseIf (validCronExpression calendar.toPython expression = false)
        ⟨422, "Deployment cron schedule must have 5 fields"⟩
      let timezone := calendar.textOf (Dict.get schedule "timezone") "UTC"
      raiseIf ((calendar.zoneInfo timezone).isNone = true)
        ⟨422, "Unknown deployment schedule timezone: " ++ timezone⟩
      let upcoming ← upcomingTexts calendar expression timezone utcnow
      return Dict.update schedule
        [("type", .str "cron"), ("expression", .str expression),
         ("cron", .str expression), ("timezone", .str timezone),
         ("enabled", .bool (scheduleEnabled schedule)), ("upcoming_runs_at", upcoming)]
  | _ => .error ⟨422, "Deployment schedule must be an object"⟩

def normalizeDeploymentData (calendar : Calendar) (utcnow : Time) (data : Dict) :
    Except HTTPException Dict := do
  let data ← normalizeDeploymentStatus calendar.toPython data
  let agent ← deploymentAgentReferenceInput calendar.toPython (Dict.get data "agent")
  let data := Dict.set data "agent" (.dict agent)
  let data := Dict.setdefault data "environment_id" (.str "")
  let data := Dict.setdefault data "initial_events" (.list [])
  let resources ← normalizeDeploymentResources (Dict.get data "resources")
  let data := Dict.set data "resources" (.list resources)
  let vaultIds ← normalizeDeploymentVaultIds (Dict.get data "vault_ids")
  let data := Dict.set data "vault_ids" (.list vaultIds)
  let metadata ← normalizeMetadata (Dict.get data "metadata")
  let data := Dict.set data "metadata" (.dict metadata)
  if Dict.get data "schedule" = .null then return data
  else
    let schedule ← normalizeDeploymentSchedule calendar utcnow (Dict.get data "schedule")
    return Dict.set data "schedule" (.dict schedule)

/-! ## Initial events -/

/-- One round of the loop over a list whose entries need not be objects. -/
def rawEventType (py : Python) : Json → Except HTTPException String
  | .dict event => do
      raiseIf (initialEventType py event ∉ DEPLOYMENT_INITIAL_EVENTS)
        ⟨422, "Unsupported deployment initial event type"⟩
      if initialEventType py event = "user.define_outcome" then
        validateUserDefineOutcomeEvent py event
      return initialEventType py event
  | _ => .error ⟨422, "Deployment initial_events entries must be objects"⟩

/-- `_validate_deployment_initial_events` of any value. -/
def validateRawInitialEvents (py : Python) : Json → Except HTTPException Unit
  | .list events => do
      raiseIf (events = [])
        ⟨422, "Deployment initial_events must contain at least one event"⟩
      raiseIf (events.length > 50)
        ⟨422, "Deployment initial_events supports at most 50 events"⟩
      let eventTypes ← events.mapM (rawEventType py)
      validateSystemMessageBatch eventTypes
      raiseIf ("user.message" ∉ eventTypes)
        ⟨422, "Deployment initial_events must include a user.message event"⟩
  | _ => .error ⟨422, "Deployment initial_events must be an array"⟩

/-- `_validate_deployment_definition`, with the agent that it writes into the data. -/
def validateDeploymentDefinition (py : Python) (surroundings : Surroundings)
    (workspaceId : String) (data : Dict) : Except HTTPException Dict := do
  raiseIf (strip (py.textOf (Dict.get data "name") "") = "")
    ⟨422, "Deployment name is required"⟩
  let agentRef ← resolveDeploymentAgentReference py surroundings workspaceId
    (Dict.get data "agent")
  let data := Dict.set data "agent" (.dict agentRef)
  raiseIf (py.textOf (Dict.get agentRef "id") "" = "")
    ⟨422, "Deployment agent is required"⟩
  let environmentId := py.textOf (Dict.get data "environment_id") ""
  raiseIf (environmentId = "") ⟨422, "Deployment environment_id is required"⟩
  raiseIf ((getEnvironment surroundings workspaceId environmentId).all (fun environment =>
    environment.deletedAt ≠ none ∨ environment.archivedAt ≠ none) = true)
    ⟨422, "Deployment environment not found"⟩
  validateRawInitialEvents py ((Dict.get data "initial_events").or (.list []))
  return data

end ManagedAgents
