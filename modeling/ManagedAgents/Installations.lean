import ManagedAgents.AgentVersions
import ManagedAgents.Executions

/-!
# Agents and their sessions

The agents of an installation and any number of sessions with them.  A session
is pinned to a version that was found when it was created, and its transactions
look this version up in a committed state.
-/

namespace ManagedAgents

open LabelledRuns ReadCommitted

structure Installation where
  agents : AgentWorld
  sessions : List World

def Installation.start : Installation where
  agents := AgentWorld.start
  sessions := []

/-- A request for a session, or a run of a deployment, which brings the first
events. -/
structure SessionCreation where
  workspaceId : String
  agentId : String
  version : Option ℤ
  seed : SessionSeed
  context : Context
  initialEvents : Option (List Dict)

/-- `version or agent.active_version`. -/
def requestedVersion (version : Option ℤ) (agent : Agent) : ℤ :=
  match version with
  | some number => if number = 0 then agent.activeVersion else number
  | none => agent.activeVersion

/-- The version to which the session is pinned. -/
def SessionCreation.pin (creation : SessionCreation) (view : AgentView) :
    Option AgentVersionRow :=
  match getAgent (view 0) creation.workspaceId creation.agentId with
  | none => none
  | some agent =>
      if agent.archivedAt ≠ none then none
      else
        getAgentVersion (view 1) agent.id (requestedVersion creation.version agent)
          creation.workspaceId

def SessionCreation.create (py : Python) (creation : SessionCreation)
    (version : AgentVersionRow) : Option Db :=
  let seed :=
    { creation.seed with
      agentId := version.agentId
      agentVersion := version.version }
  match creation.initialEvents with
  | none => createSession py seed creation.context
  | some events => createDeploymentSession py seed creation.context events

/-- The label of a transaction that looks up the version, with what it finds. -/
def Label.withVersion (found : Option AgentVersion) : Label → Label
  | .request process (.updateSession response body) age context =>
      .request process (.updateSession { response with version := found } body) age
        context
  | .turn id (.load rows) age context =>
      .turn id (.load { rows with version := found }) age context
  | label => label

/-- The version of a session in one of the committed states. -/
def findPinned (agents : AgentWorld) (workspaceId : String) (session : ManagedSession)
    (age : ℕ) : Option AgentVersion :=
  (getAgentVersion (agents.history.getD age agents.current) session.agentId
    session.agentVersion workspaceId).map AgentVersionRow.toAgentVersion

inductive InstallationLabel
  | agents (label : AgentCall × List ℕ)
  | create (creation : SessionCreation) (ages : List ℕ)
  | session (index : ℕ) (label : Label) (workspaceId : String) (age : ℕ)

def createSessionStep (py : Python) (state : Installation) (creation : SessionCreation)
    (ages : List ℕ) : Option Installation :=
  if Admissible state.agents ages then
    match (creation.pin (state.agents.view ages)).bind (creation.create py) with
    | none => some state
    | some db => some { state with sessions := state.sessions ++ [World.start db] }
  else none

def sessionStep (py : Python) (state : Installation) (index : ℕ) (label : Label)
    (workspaceId : String) (age : ℕ) : Option Installation :=
  state.sessions[index]?.bind fun world =>
    let found := findPinned state.agents workspaceId world.db.session age
    (step py world (label.withVersion found)).map fun next =>
      { state with sessions := state.sessions.set index next }

def installationStep (py : Python) (state : Installation) :
    InstallationLabel → Option Installation
  | .agents label =>
      (agentStep py state.agents label).map fun agents => { state with agents := agents }
  | .create creation ages => createSessionStep py state creation ages
  | .session index label workspaceId age =>
      sessionStep py state index label workspaceId age

/-! ## What a transaction finds -/

theorem withVersion_update
    {found : Option AgentVersion} {label : Label} {process : ProcessId} {age : ℕ}
    {context : Context} {response : ResponseContext} {body : SessionUpdateRequest}
    (hlabel : label.withVersion found =
      .request process (.updateSession response body) age context) :
    response.version = found := by
  unfold Label.withVersion at hlabel
  split at hlabel
  · cases hlabel
    rfl
  · cases hlabel
  next hother _ =>
    exact absurd hlabel (hother process response body age context)

theorem withVersion_load
    {found : Option AgentVersion} {label : Label} {id : ExecutionId} {age : ℕ}
    {context : Context} {rows : TurnRows}
    (hlabel : label.withVersion found = .turn id (.load rows) age context) :
    rows.version = found := by
  unfold Label.withVersion at hlabel
  split at hlabel
  · cases hlabel
  · cases hlabel
    rfl
  next _ hother =>
    exact absurd hlabel (hother id rows age context)

theorem getD_history_mem (agents : AgentWorld) (age : ℕ) :
    agents.history.getD age agents.current ∈ agents.history := by
  rcases Nat.lt_or_ge age agents.history.length with hlt | hge
  · rw [List.getD_eq_getElem _ _ hlt]
    exact List.getElem_mem hlt
  · rw [List.getD_eq_default _ _ hge]
    exact List.mem_cons_self

/-- A transaction finds the pinned version or none. -/
theorem findPinned_eq
    {agents : AgentWorld} {workspaceId : String} {session : ManagedSession} {age : ℕ}
    {version : AgentVersionRow} (hordered : agents.Ordered AgentHistory EarlierAgents)
    (hversion : version ∈ agents.current.versions)
    (hagent : session.agentId = version.agentId)
    (hnumber : session.agentVersion = version.version) :
    findPinned agents workspaceId session age = none ∨
      findPinned agents workspaceId session age = some version.toAgentVersion := by
  unfold findPinned
  cases hfound : getAgentVersion (agents.history.getD age agents.current)
      session.agentId session.agentVersion workspaceId with
  | none => exact Or.inl rfl
  | some found =>
      obtain ⟨hmem, hfoundAgent, hfoundNumber, -⟩ := getAgentVersion_eq_some hfound
      have hcurrent : found ∈ agents.current.versions := by
        rcases List.mem_cons.mp (getD_history_mem agents age) with hsame | hpast
        · rw [← hsame]
          exact hmem
        · exact ((List.pairwise_cons.mp hordered.order).1 _ hpast).versions found hmem
      have hhistory := hordered.states _ List.mem_cons_self
      have hsame : found = version := hhistory.version_unique hcurrent hversion
        (hfoundAgent.trans hagent) (by rw [← hnumber]; exact_mod_cast hfoundNumber)
      rw [hsame]
      exact Or.inr rfl

/-- A new session is pinned to a committed version. -/
theorem SessionCreation.pin_mem
    {creation : SessionCreation} {agents : AgentWorld} {ages : List ℕ}
    {version : AgentVersionRow} (hordered : agents.Ordered AgentHistory EarlierAgents)
    (hages : Admissible agents ages)
    (hpin : creation.pin (agents.view ages) = some version) :
    version ∈ agents.current.versions := by
  unfold SessionCreation.pin at hpin
  split at hpin
  · cases hpin
  · split at hpin
    · cases hpin
    · exact ((hordered.reads EarlierAgents.refl hages).kept 1).versions version
        (getAgentVersion_eq_some hpin).1

theorem SessionCreation.create_created
    {py : Python} {creation : SessionCreation} {version : AgentVersionRow} {db : Db}
    (hcreate : creation.create py version = some db) :
    Created py db ∧ db.session.agentId = version.agentId ∧
      db.session.agentVersion = version.version := by
  unfold SessionCreation.create at hcreate
  simp only at hcreate
  cases hevents : creation.initialEvents with
  | none =>
      rw [hevents] at hcreate
      refine ⟨Created.api _ _ hcreate, ?_⟩
      obtain ⟨-, rfl⟩ := Tx.commit_eq_some.mp hcreate
      exact ⟨rfl, rfl⟩
  | some events =>
      rw [hevents] at hcreate
      refine ⟨Created.deployment _ _ events hcreate, ?_⟩
      simp only [createDeploymentSession] at hcreate
      split at hcreate
      next => cases hcreate
      next =>
        obtain ⟨-, rfl⟩ := Tx.commit_eq_some.mp hcreate
        exact ⟨rfl, rfl⟩

end ManagedAgents
