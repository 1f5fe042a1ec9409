import ManagedAgents.DeploymentRuns
import ManagedAgents.Library.ReadCommitted

/-!
# Requests for deployments and scheduler ticks

Every request is one transaction.  A tick goes through the deployments in one
transaction too, which its caller commits; an agent that can not be used commits
what the tick has written so far and ends it.
-/

namespace ManagedAgents

open Fallible LabelledRuns NewestPage ReadCommitted

abbrev DeploymentView := ℕ → DeploymentDb

/-- What is committed, and the error of the answer. -/
structure DeploymentAnswer where
  statements : List DeploymentStatement
  error : Option HTTPException := none
deriving DecidableEq

def DeploymentAnswer.of :
    Except HTTPException (List DeploymentStatement) → DeploymentAnswer
  | .ok statements => { statements := statements }
  | .error error => { statements := [], error := some error }

/-! ## Requests -/

def findDeployment (db : DeploymentDb) (workspaceId deploymentId : String) :
    Except HTTPException Deployment :=
  match db.deployments.find? fun row =>
      row.id = deploymentId ∧ row.workspaceId = workspaceId with
  | some row => .ok row
  | none => .error ⟨404, "deployment not found"⟩

/-- The data of a new deployment, and its status, which was taken before the last
round of normalisation. -/
def createdDeploymentData (context : DeploymentContext) (draws : RunDraws)
    (surroundings : Surroundings) (body : Dict) :
    Except HTTPException (Dict × DeploymentStatus) := do
  let data ← normalizeDeploymentData context.calendar (draws.clock 0) body
  let data ← validateDeploymentDefinition context.calendar.toPython surroundings
    context.workspaceId data
  let status ← DeploymentStatus.ofJson (Dict.get data "status")
  let data ← normalizeDeploymentData context.calendar (draws.clock 1) data
  return (data, status)

def createDeployment (context : DeploymentContext) (draws : RunDraws)
    (surroundings : Surroundings) (body : Dict) :
    Except HTTPException (List DeploymentStatement) := do
  let (data, status) ← createdDeploymentData context draws surroundings body
  let name ← nameOr (resourceName data) none
  return [.insertDeployment
    { id := "deploy_" ++ draws.uuidHex 0
      workspaceId := context.workspaceId
      name := name
      status := status
      data := data
      createdAt := draws.clock 2 }]

def updatedDeploymentData (context : DeploymentContext) (draws : RunDraws)
    (surroundings : Surroundings) (held body : Dict) :
    Except HTTPException (Dict × DeploymentStatus) := do
  let merged ← mergeData held body
  let data ← normalizeDeploymentData context.calendar (draws.clock 0) merged
  let data ← validateDeploymentDefinition context.calendar.toPython surroundings
    context.workspaceId data
  let status ← DeploymentStatus.ofJson (Dict.get data "status")
  return (data, status)

def updateDeployment (context : DeploymentContext) (draws : RunDraws)
    (surroundings : Surroundings) (deploymentId : String) (body : Dict)
    (view : DeploymentView) : Except HTTPException (List DeploymentStatement) := do
  let deployment ← findDeployment (view 0) context.workspaceId deploymentId
  ensureDeploymentMutable deployment
  let (data, status) ← updatedDeploymentData context draws surroundings deployment.data
    body
  let name ← nameOr ((Dict.get data "name").or (Dict.get data "display_name"))
    deployment.name
  return [updateDeploymentRow deployment data name (some status)]

def archiveDeployment (context : DeploymentContext) (draws : RunDraws)
    (deploymentId : String) (view : DeploymentView) :
    Except HTTPException (List DeploymentStatement) := do
  let deployment ← findDeployment (view 0) context.workspaceId deploymentId
  return [archiveDeploymentRow deployment (draws.clock 0)]

def pausedData (data : Dict) : Dict :=
  Dict.set (Dict.set data "status" (.str "paused")) "paused_reason" manualPause

def unpausedData (data : Dict) : Dict :=
  Dict.pop (Dict.set data "status" (.str "active")) "paused_reason"

def pauseDeployment (context : DeploymentContext) (deploymentId : String)
    (view : DeploymentView) : Except HTTPException (List DeploymentStatement) := do
  let deployment ← findDeployment (view 0) context.workspaceId deploymentId
  ensureDeploymentMutable deployment
  return [updateDeploymentRow deployment (pausedData deployment.data) none (some .paused)]

def unpauseDeployment (context : DeploymentContext) (deploymentId : String)
    (view : DeploymentView) : Except HTTPException (List DeploymentStatement) := do
  let deployment ← findDeployment (view 0) context.workspaceId deploymentId
  ensureDeploymentMutable deployment
  return [updateDeploymentRow deployment (unpausedData deployment.data) none
    (some .active)]

/-- The answer to a run, which may have archived the deployment. -/
def answerRun (draws : RunDraws) (deployment : Deployment) :
    Except RunFailure RunOutcome → DeploymentAnswer
  | .ok outcome => { statements := outcome.statements deployment }
  | .error (.raised error) => { statements := [], error := some error }
  | .error (.archived error) =>
      { statements := [archiveDeploymentRow deployment (draws.clock 1)]
        error := some error }

def runDeployment (context : DeploymentContext) (draws : RunDraws)
    (surroundings : Surroundings) (deploymentId : String) (body : Dict)
    (view : DeploymentView) : DeploymentAnswer :=
  match findDeployment (view 0) context.workspaceId deploymentId with
  | .error error => { statements := [], error := some error }
  | .ok deployment =>
      answerRun draws deployment
        (runDeploymentResource context draws surroundings .request deployment body)

/-! ## Ticks -/

/-- The query of a tick. -/
def listDeployments (db : DeploymentDb) (workspaceId : String) : List Deployment :=
  page (fun row => toLex (row.createdAt, row.id))
    (db.deployments.filter fun row => row.workspaceId = workspaceId ∧
      row.archivedAt = none)
    1000

/-- The time zones and the parser of addresses which all requests share. -/
structure DeploymentSettings where
  calendar : Calendar
  urlPath : UrlPath

def DeploymentSettings.context (settings : DeploymentSettings) (workspaceId : String) :
    DeploymentContext where
  calendar := settings.calendar
  urlPath := settings.urlPath
  workspaceId := workspaceId

/-- A tick, with what the run of each deployment finds and draws. -/
structure Tick where
  workspaceId : String
  surroundings : String → Surroundings
  draws : String → RunDraws
  now : Time
  limit : ℕ

def tickInput (calendar : Calendar) (dueAt : Time) : Dict :=
  [("trigger", .str "schedule"), ("scheduled_for", .str (calendar.isoformat dueAt))]

/-- The run of a due deployment. -/
def Tick.runDue (settings : DeploymentSettings) (tick : Tick) (deployment : Deployment)
    (dueAt : Time) : Except RunFailure RunOutcome :=
  runDeploymentResource (settings.context tick.workspaceId) (tick.draws deployment.id)
    (tick.surroundings deployment.id) .tick deployment
    (tickInput settings.calendar dueAt)

inductive Visit
  | skipped
  | ran (outcome : RunOutcome)
  | archived (error : HTTPException)
  | raised (error : HTTPException)

/-- One round of the loop. -/
def Tick.visit (settings : DeploymentSettings) (tick : Tick) (runs : List DeploymentRun)
    (deployment : Deployment) : Visit :=
  match scheduledDeploymentDueAt (settings.context tick.workspaceId) runs deployment
      tick.now with
  | .error error => .raised error
  | .ok none => .skipped
  | .ok (some dueAt) =>
      match tick.runDue settings deployment dueAt with
      | .ok outcome => .ran outcome
      | .error (.archived error) => .archived error
      | .error (.raised error) => .raised error

def Tick.archiveRow (tick : Tick) (deployment : Deployment) : DeploymentStatement :=
  archiveDeploymentRow deployment ((tick.draws deployment.id).clock 1)

/-- The loop over the deployments; the index counts the queries for runs. -/
def tickLoop (settings : DeploymentSettings) (tick : Tick) (view : DeploymentView) :
    (index created : ℕ) → (written : List DeploymentStatement) → List Deployment →
      DeploymentAnswer
  | _, _, written, [] => { statements := written }
  | index, created, written, deployment :: rest =>
      if tick.limit ≤ created then { statements := written }
      else
        match tick.visit settings (view (index + 1)).runs deployment with
        | .skipped => tickLoop settings tick view (index + 1) created written rest
        | .ran outcome =>
            tickLoop settings tick view (index + 1) (created + 1)
              (written ++ outcome.statements deployment) rest
        | .archived error =>
            { statements := written ++ [tick.archiveRow deployment], error := some error }
        | .raised error => { statements := [], error := some error }

/-- `run_due_scheduled_deployments` and the commit of its caller. -/
def runDueScheduledDeployments (settings : DeploymentSettings) (tick : Tick)
    (view : DeploymentView) : DeploymentAnswer :=
  tickLoop settings tick view 0 0 [] (listDeployments (view 0) tick.workspaceId)

/-! ## Commits -/

def updateDeploymentRows (rows : List Deployment) (deploymentId : String)
    (columns : DeploymentColumns) : List Deployment :=
  rows.map fun row => if row.id = deploymentId then columns.write row else row

def DeploymentStatement.execute (db : DeploymentDb) :
    DeploymentStatement → Option DeploymentDb
  | .insertDeployment row =>
      if row.id ∈ db.deployments.map Deployment.id then none
      else some { db with deployments := db.deployments ++ [row] }
  | .updateDeployment deploymentId columns =>
      some { db with
        deployments := updateDeploymentRows db.deployments deploymentId columns }
  | .insertRun run =>
      if run.id ∈ db.runs.map DeploymentRun.id then none
      else some { db with runs := db.runs ++ [run] }
  | .insertSession session =>
      if session.id ∈ db.sessions.map DeploymentSession.id then none
      else some { db with sessions := db.sessions ++ [session] }

def commitDeployments (db : DeploymentDb) (statements : List DeploymentStatement) :
    Option DeploymentDb :=
  statements.foldlM DeploymentStatement.execute db

/-! ## The system -/

inductive DeploymentRequest
  | create (body : Dict)
  | update (deploymentId : String) (body : Dict)
  | archive (deploymentId : String)
  | pause (deploymentId : String)
  | unpause (deploymentId : String)
  | run (deploymentId : String) (body : Dict)

/-- A request in a workspace with what it finds and draws, or a tick. -/
inductive DeploymentCall
  | request (workspaceId : String) (surroundings : Surroundings) (draws : RunDraws)
      (sent : DeploymentRequest)
  | scheduled (tick : Tick)

def DeploymentRequest.answer (context : DeploymentContext) (surroundings : Surroundings)
    (draws : RunDraws) (request : DeploymentRequest) (view : DeploymentView) :
    DeploymentAnswer :=
  match request with
  | .create body => .of (createDeployment context draws surroundings body)
  | .update deploymentId body =>
      .of (updateDeployment context draws surroundings deploymentId body view)
  | .archive deploymentId => .of (archiveDeployment context draws deploymentId view)
  | .pause deploymentId => .of (pauseDeployment context deploymentId view)
  | .unpause deploymentId => .of (unpauseDeployment context deploymentId view)
  | .run deploymentId body =>
      runDeployment context draws surroundings deploymentId body view

def DeploymentCall.answer (settings : DeploymentSettings) (call : DeploymentCall)
    (view : DeploymentView) : DeploymentAnswer :=
  match call with
  | .request workspaceId surroundings draws sent =>
      sent.answer (settings.context workspaceId) surroundings draws view
  | .scheduled tick => runDueScheduledDeployments settings tick view

/-- The state after the commit. -/
def DeploymentCall.body (settings : DeploymentSettings) (call : DeploymentCall)
    (view : DeploymentView) (current : DeploymentDb) : Option DeploymentDb :=
  commitDeployments current (call.answer settings view).statements

/-- One call to completion before the next. -/
def deploymentStep (settings : DeploymentSettings) (db : DeploymentDb)
    (call : DeploymentCall) : Option DeploymentDb :=
  call.body settings (fun _ => db) db

/-- Calls whose queries see committed states. -/
def deploymentTimelineStep (settings : DeploymentSettings)
    (timeline : Timeline DeploymentDb) (call : DeploymentCall × List ℕ) :
    Option (Timeline DeploymentDb) :=
  ReadCommitted.step (DeploymentCall.body settings) timeline call

end ManagedAgents
