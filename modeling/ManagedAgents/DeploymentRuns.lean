import ManagedAgents.Deployments

/-!
# Runs of deployments

A run is a row of its own and may have a session.  Some errors end in a row of a
failed run, an agent that can not be used archives the deployment, and all other
errors end the request.
-/

namespace ManagedAgents

open Fallible NewestPage

/-! ## Rows -/

inductive RunStatus
  | queued
  | error
deriving DecidableEq, Repr

def RunStatus.name : RunStatus → String
  | .queued => "queued"
  | .error => "error"

/-- Who has created the run; the row does not say it. -/
inductive RunCreator
  | tick
  | request
deriving DecidableEq, Repr

structure DeploymentRun where
  id : String
  workspaceId : String
  deploymentId : String
  status : RunStatus
  data : Dict
  createdAt : Time
  creator : RunCreator
deriving DecidableEq

/-- A session with the resources and the events which it starts with. -/
structure DeploymentSession where
  id : String
  workspaceId : String
  agentId : String
  agentVersion : ℤ
  environmentId : String
  title : Option String
  metadata : Dict
  vaultIds : List String
  resources : List SessionResource
  events : List Dict
deriving DecidableEq

structure DeploymentDb where
  deployments : List Deployment
  runs : List DeploymentRun
  sessions : List DeploymentSession
deriving DecidableEq

/-- The columns which an `UPDATE` of a deployment sets. -/
structure DeploymentColumns where
  data : Option Dict := none
  name : Option String := none
  status : Option DeploymentStatus := none
  archivedAt : Option Time := none
deriving DecidableEq

def DeploymentColumns.write (columns : DeploymentColumns) (row : Deployment) :
    Deployment :=
  { row with
    data := columns.data.getD row.data
    name := columns.name.or row.name
    status := columns.status.getD row.status
    archivedAt := columns.archivedAt.or row.archivedAt }

inductive DeploymentStatement
  | insertDeployment (row : Deployment)
  | updateDeployment (deploymentId : String) (columns : DeploymentColumns)
  | insertRun (run : DeploymentRun)
  | insertSession (session : DeploymentSession)
deriving DecidableEq

/-- `update_resource` of a deployment and its flush. -/
def updateDeploymentRow (held : Deployment) (data : Dict) (name : Option String)
    (status : Option DeploymentStatus) : DeploymentStatement :=
  .updateDeployment held.id
    { data := if Dict.equal data held.data then none else some data
      name := if name = held.name then none else name
      status := if status = some held.status then none else status }

def archiveDeploymentRow (held : Deployment) (now : Time) : DeploymentStatement :=
  .updateDeployment held.id
    { archivedAt := some now
      status := if held.status = .archived then none else some .archived }

/-! ## What a request draws from outside -/

structure DeploymentContext where
  calendar : Calendar
  urlPath : UrlPath
  workspaceId : String

structure RunDraws where
  uuidHex : ℕ → String
  clock : ℕ → Time
  files : ℕ → FileContext

def RunDraws.runId (draws : RunDraws) : String := "deprun_" ++ draws.uuidHex 0
def RunDraws.sessionId (draws : RunDraws) : String := "sess_" ++ draws.uuidHex 1

def DeploymentContext.attachments (context : DeploymentContext) (draws : RunDraws) :
    AttachmentContext where
  py := context.calendar.toPython
  urlPath := context.urlPath
  files := draws.files
  clock := fun position => draws.clock (position + 3)

/-! ## Times -/

/-- `_parse_datetime`. -/
def parseDatetime (calendar : Calendar) : Json → Option Time
  | .str text => if text = "" then none else calendar.fromisoformat text
  | _ => none

def isDeploymentPaused (deployment : Deployment) : Bool :=
  deployment.status = .paused || Dict.get deployment.data "status" = .str "paused"

/-- The instants of `upcoming_runs_at` until now. -/
def dueCandidates (calendar : Calendar) (upcoming : List Json) (now : Time) : List Time :=
  (upcoming.filterMap (parseDatetime calendar)).filter (· ≤ now)

/-- The page of runs of a deployment. -/
def listDeploymentRuns (runs : List DeploymentRun) (workspaceId deploymentId : String) :
    List DeploymentRun :=
  page (fun run => toLex (run.createdAt, run.id))
    (runs.filter fun run =>
      run.workspaceId = workspaceId ∧ run.deploymentId = deploymentId) 1000

def isScheduledFor (calendar : Calendar) (scheduledFor : Time) (run : DeploymentRun) :
    Bool :=
  Dict.get run.data "trigger" = .str "schedule" &&
    parseDatetime calendar (Dict.get run.data "scheduled_for") = some scheduledFor

def scheduledDeploymentRunExists (context : DeploymentContext) (runs : List DeploymentRun)
    (deploymentId : String) (scheduledFor : Time) : Bool :=
  (listDeploymentRuns runs context.workspaceId deploymentId).any
    (isScheduledFor context.calendar scheduledFor)

/-- The first due instant before it is looked for among the runs. -/
def firstDueInstant (calendar : Calendar) (deployment : Deployment) (now : Time) :
    Except HTTPException (Option Time) :=
  if isDeploymentPaused deployment then .ok none
  else
    match (Dict.get deployment.data "schedule").or (.dict []) with
    | .dict schedule =>
        if scheduleEnabled schedule then do
          let upcoming ← listOf (Dict.get schedule "upcoming_runs_at")
          return (dueCandidates calendar upcoming now).min?
        else .ok none
    | _ => .ok none

def scheduledDeploymentDueAt (context : DeploymentContext) (runs : List DeploymentRun)
    (deployment : Deployment) (now : Time) : Except HTTPException (Option Time) := do
  match ← firstDueInstant context.calendar deployment now with
  | none => return none
  | some dueAt =>
      if scheduledDeploymentRunExists context runs deployment.id dueAt then return none
      else return some dueAt

/-! ## The session of a run -/

/-- `DeploymentRunCreationError`, and any other exception. -/
inductive SessionFailure
  | creation (errorType message : String)
  | raised (error : HTTPException)
deriving DecidableEq

def SessionFailure.lift {Result : Type} (result : Except HTTPException Result) :
    Except SessionFailure Result :=
  result.mapError .raised

/-- The agent and the version which the session runs. -/
def findRunAgent (context : DeploymentContext) (surroundings : Surroundings)
    (agentRef : Json) : Except SessionFailure (Agent × ℤ) := do
  let (agentId, requested) ←
    SessionFailure.lift (deploymentAgentRef context.calendar.toPython agentRef)
  match getAgent surroundings.agents context.workspaceId agentId with
  | none =>
      throw (.creation "agent_not_found_error"
        ("agent `" ++ agentId ++ "` was not found"))
  | some agent =>
      if agent.archivedAt ≠ none then
        throw (.creation "agent_archived_error" ("agent `" ++ agentId ++ "` is archived"))
      else
        let version := (requested.filter (· ≠ 0)).getD agent.activeVersion
        if (getAgentVersion surroundings.agents agent.id version
            context.workspaceId).isNone then
          throw (.creation "agent_version_not_found_error"
            ("agent `" ++ agentId ++ "` version `" ++ toString version ++
              "` was not found"))
        else return (agent, version)

def findRunEnvironment (context : DeploymentContext) (surroundings : Surroundings)
    (environmentId : Json) : Except SessionFailure EnvironmentRow :=
  let id := context.calendar.str environmentId
  match getEnvironment surroundings context.workspaceId id with
  | none =>
      .error (.creation "environment_not_found_error"
        ("environment `" ++ id ++ "` was not found"))
  | some environment =>
      if environment.deletedAt ≠ none then
        .error (.creation "environment_not_found_error"
          ("environment `" ++ id ++ "` was not found"))
      else if environment.archivedAt ≠ none then
        .error (.creation "environment_archived_error"
          ("environment `" ++ id ++ "` is archived"))
      else .ok environment

/-- The vault can be given to a session. -/
def vaultUsable (surroundings : Surroundings) (workspaceId vaultId : String) : Bool :=
  (getResource surroundings.resources vaultId
    { resourceType := .vault, workspaceId := workspaceId }).any fun vault =>
      vault.archivedAt = none

/-- The loop of `_validate_deployment_vault_ids`. -/
def resolveVaultIds (py : Python) (surroundings : Surroundings) (workspaceId : String)
    (resolved : List String) : List Json → Except HTTPException (List String)
  | [] => .ok resolved
  | rawId :: rest =>
      let vaultId := py.textOf rawId ""
      if vaultId = "" then .error ⟨422, "vault_ids must not contain empty values"⟩
      else if vaultId ∈ resolved then
        resolveVaultIds py surroundings workspaceId resolved rest
      else if vaultUsable surroundings workspaceId vaultId then
        resolveVaultIds py surroundings workspaceId (resolved ++ [vaultId]) rest
      else .error ⟨404, "Vault not found: " ++ vaultId⟩

def validateDeploymentVaultIds (py : Python) (surroundings : Surroundings)
    (workspaceId : String) (vaultIds : Json) : Except HTTPException (List String) := do
  let vaultIds ← normalizeDeploymentVaultIds vaultIds
  resolveVaultIds py surroundings workspaceId [] vaultIds

/-- The field of the request if it is there, else that of the deployment. -/
def givenOr (runInput data : Dict) (key : String) : Json :=
  if Dict.contains runInput key then Dict.get runInput key else Dict.get data key

def idleEvent : Dict :=
  [("type", .str "session.status_idle"), ("status", .str "idle"),
   ("stop_reason", .dict [("type", .str "end_turn")])]

/-- The payloads of `_append_deployment_session_events`. -/
def deploymentSessionEvents (py : Python) (initialEvents : Json) :
    Except HTTPException (List Dict) := do
  validateRawInitialEvents py initialEvents
  let events ← listOf initialEvents
  return idleEvent :: events.filterMap fun event =>
    match event with
    | .dict fields => some (Dict.set fields "type" (.str (initialEventType py fields)))
    | _ => none

/-- The metadata which the request gives are taken as they are. -/
def runSessionMetadata (deploymentId runId : String) (runInput : Dict) :
    Except HTTPException Dict := do
  let metadata ← toDict (Dict.get runInput "metadata")
  return Dict.update metadata
    [("deployment_id", .str deploymentId), ("deployment_run_id", .str runId)]

/-- The session with its resources and its events, for an agent and an environment. -/
def createRunSession (context : DeploymentContext) (draws : RunDraws)
    (surroundings : Surroundings) (deployment : Deployment) (data runInput : Dict)
    (agent : Agent) (version : ℤ) (environment : EnvironmentRow) :
    Except HTTPException DeploymentSession := do
  let py := context.calendar.toPython
  let metadata ← runSessionMetadata deployment.id draws.runId runInput
  let vaultIds ← validateDeploymentVaultIds py surroundings context.workspaceId
    (givenOr runInput data "vault_ids")
  let title ← nameOr
    (((Dict.get runInput "title").or (Dict.get data "title")).or (Dict.get data "name"))
    deployment.name
  let session : SessionRef := { id := draws.sessionId, workspaceId := agent.workspaceId }
  let given ← normalizeDeploymentResources (givenOr runInput data "resources")
  let resources ← attachSessionResources (context.attachments draws) surroundings session
    []
    given
  let events ← deploymentSessionEvents py
    (((Dict.get runInput "initial_events").or (Dict.get data "initial_events")).or
      (.list []))
  return {
    id := session.id
    workspaceId := session.workspaceId
    agentId := agent.id
    agentVersion := version
    environmentId := environment.id
    title := title
    metadata := metadata
    vaultIds := vaultIds
    resources := resources
    events := events }

def maybeCreateDeploymentSession (context : DeploymentContext) (draws : RunDraws)
    (surroundings : Surroundings) (deployment : Deployment) (data runInput : Dict) :
    Except SessionFailure (Option DeploymentSession) :=
  let agentRef := (Dict.get runInput "agent").or (Dict.get data "agent")
  let environmentId :=
    (Dict.get runInput "environment_id").or (Dict.get data "environment_id")
  if agentRef.truthy && environmentId.truthy then do
    let (agent, version) ← findRunAgent context surroundings agentRef
    let environment ← findRunEnvironment context surroundings environmentId
    let session ← SessionFailure.lift <| createRunSession context draws surroundings
      deployment data runInput agent version environment
    return some session
  else return none

/-! ## The run -/

/-- An exception before which the deployment was archived and committed, and any
other. -/
inductive RunFailure
  | archived (error : HTTPException)
  | raised (error : HTTPException)
deriving DecidableEq

def RunFailure.lift {Result : Type} (result : Except HTTPException Result) :
    Except RunFailure Result :=
  result.mapError .raised

def deploymentArchived : HTTPException := ⟨409, "Deployment is archived"⟩

def ensureDeploymentMutable (deployment : Deployment) : Except HTTPException Unit :=
  raiseIf (deployment.archivedAt ≠ none) deploymentArchived

/-- `_archive_if_deployment_agent_unusable`. -/
def checkRunAgent (context : DeploymentContext) (surroundings : Surroundings)
    (data : Dict) : Except RunFailure Unit := do
  let (agentId, _) ←
    RunFailure.lift (deploymentAgentRef context.calendar.toPython (Dict.get data "agent"))
  match getAgent surroundings.agents context.workspaceId agentId with
  | none =>
      throw (.archived ⟨409, "Deployment agent was not found; deployment archived"⟩)
  | some agent =>
      raiseIf (agent.archivedAt ≠ none)
        (.archived ⟨409, "Deployment agent is archived; deployment archived"⟩)

def runTrigger (runInput : Dict) : Json :=
  ((Dict.get runInput "trigger").or (Dict.get runInput "trigger_type")).or (.str "manual")

/-- A clock reading in place of a missing time is no JSON. -/
def triggerContext (runInput : Dict) : Except HTTPException Dict :=
  if runTrigger runInput = .str "schedule" then
    if (Dict.get runInput "scheduled_for").truthy then
      .ok [("type", .str "schedule"), ("scheduled_at", Dict.get runInput "scheduled_for")]
    else .error internalServerError
  else .ok [("type", .str "manual")]

/-- The schedule after a run: the upcoming runs are computed again. -/
def rescheduledData (calendar : Calendar) (utcnow : Time) (data : Dict) :
    Except HTTPException Dict := do
  let schedule ← toDict (Dict.get data "schedule")
  if (Dict.get schedule "expression").truthy && (Dict.get schedule "timezone").truthy then
    let upcoming ← upcomingTexts calendar (calendar.str (Dict.get schedule "expression"))
      (calendar.str (Dict.get schedule "timezone")) utcnow
    return Dict.set data "schedule" (.dict (Dict.update schedule
      [("last_run_at", .str (calendar.isoformat utcnow)),
        ("upcoming_runs_at", upcoming)]))
  else return data

/-- The data of the deployment that the run leaves behind. -/
def dataAfterRun (calendar : Calendar) (utcnow : Time) (data runInput : Dict) :
    Except HTTPException Dict :=
  if runTrigger runInput = .str "schedule" then rescheduledData calendar utcnow data
  else .ok data

structure RunOutcome where
  run : DeploymentRun
  session : Option DeploymentSession
  data : Dict

def createRun (context : DeploymentContext) (draws : RunDraws) (creator : RunCreator)
    (deployment : Deployment) (data runInput : Dict) :
    Except HTTPException DeploymentRun := do
  let attempt ← context.calendar.toInt ((Dict.get runInput "attempt").or (.int 1))
  let trigger ← triggerContext runInput
  return {
    id := draws.runId
    workspaceId := context.workspaceId
    deploymentId := deployment.id
    status := .queued
    data :=
      [("deployment_id", .str deployment.id), ("agent", Dict.get data "agent"),
       ("status", .str "queued"), ("attempt", .int attempt),
       ("trigger", runTrigger runInput), ("trigger_context", .dict trigger),
       ("scheduled_for", Dict.get runInput "scheduled_for")]
    createdAt := draws.clock 2
    creator := creator }

def DeploymentRun.failed (run : DeploymentRun) (errorType message : String) :
    DeploymentRun :=
  { run with
    status := .error
    data := Dict.update run.data
      [("status", .str "error"),
       ("error", .dict [("type", .str errorType), ("message", .str message)])] }

def DeploymentRun.withSession (run : DeploymentRun) (session : DeploymentSession) :
    DeploymentRun :=
  { run with data := Dict.set run.data "session_id" (.str session.id) }

/-- The run with its session, or the run that has failed without one. -/
def completeRun (run : DeploymentRun) :
    Except SessionFailure (Option DeploymentSession) →
      Except HTTPException (DeploymentRun × Option DeploymentSession)
  | .ok none => .ok (run, none)
  | .ok (some session) => .ok (run.withSession session, some session)
  | .error (.creation errorType message) => .ok (run.failed errorType message, none)
  | .error (.raised error) => .error error

/-- `_run_deployment_resource`. -/
def runDeploymentResource (context : DeploymentContext) (draws : RunDraws)
    (surroundings : Surroundings) (creator : RunCreator) (deployment : Deployment)
    (runInput : Dict) : Except RunFailure RunOutcome := do
  RunFailure.lift (ensureDeploymentMutable deployment)
  raiseIf (isDeploymentPaused deployment = true ∧ runTrigger runInput ≠ .str "manual")
    (.raised ⟨409, "Deployment schedule is paused"⟩)
  checkRunAgent context surroundings deployment.data
  let data ← RunFailure.lift
    (dataAfterRun context.calendar (draws.clock 0) deployment.data runInput)
  let run ← RunFailure.lift (createRun context draws creator deployment data runInput)
  let (run, session) ← RunFailure.lift <| completeRun run <|
    maybeCreateDeploymentSession context draws surroundings deployment data runInput
  return { run := run, session := session, data := data }

/-- The statements of the run. -/
def RunOutcome.statements (outcome : RunOutcome) (deployment : Deployment) :
    List DeploymentStatement :=
  updateDeploymentRow deployment outcome.data none none ::
    .insertRun outcome.run :: (outcome.session.map .insertSession).toList

end ManagedAgents
