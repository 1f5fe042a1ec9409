import ManagedAgents.Delegations
import ManagedAgents.EffectiveTools

/-!
# Threads of a session

A session of a coordinator gets a thread for each agent of the roster, with a
snapshot of the version that the roster names.  The threads are inserted with
the session, while other requests go on changing the agents.
-/

namespace ManagedAgents

open Fallible LabelledRuns ReadCommitted

/-! ## Thread rows -/

/-- A row of the type `session_thread`. -/
structure SessionThread where
  id : String
  workspaceId : String
  parentId : String
  name : String
  status : String
  data : Dict
  createdAt : Time
  archivedAt : Option Time := none

def SessionThread.archive (thread : SessionThread) (now : Time) : SessionThread :=
  { thread with archivedAt := some now, status := "archived" }

/-- The row as it was inserted. -/
def SessionThread.asCreated (thread : SessionThread) : SessionThread :=
  { thread with archivedAt := none, status := "idle" }

def sessionThreadAgentSnapshot (version : AgentVersion) : Json :=
  .dict
    [("id", .str version.agentId),
     ("type", .str "agent"),
     ("name", .str version.name),
     ("version", .int version.version),
     ("model", version.model),
     ("system", optionalJson version.system .str),
     ("description", optionalJson version.description .str),
     ("tools", .list version.tools),
     ("mcp_servers", .list version.mcpServers),
     ("skills", .list version.skills)]

/-! ## Creation -/

/-- `(version.multiagent or {}).get("agents") or []`, if these have the right
types. -/
def threadRoster (multiagent : Json) : List Json :=
  match multiagent.or (.dict []) with
  | .dict fields =>
      match (Dict.get fields "agents").or (.list []) with
      | .list roster => roster
      | _ => []
  | _ => []

/-- The entries which the loop does not skip. -/
def getsThread (entry : Json) : Bool :=
  entry.get "type" = .str "agent" && (entry.get "id").truthy &&
    entry.get "version" ≠ .null

/-- `int(agent_version)`. -/
def threadVersion (py : Python) (entry : Json) : Except HTTPException ℤ :=
  match py.int (entry.get "version") with
  | .ok number => .ok number
  | .error _ => .error internalServerError

def referencedVersionNotFound (py : Python) (entry : Json) : HTTPException :=
  ⟨422, "Referenced multiagent version not found: " ++ py.str (entry.get "id") ++ "@" ++
    py.str (entry.get "version")⟩

def delegatedThread (py : Python) (id : String) (createdAt : Time) (workspaceId : String)
    (session : ManagedSession) (entry : Json) (referenced : AgentVersion) :
    SessionThread where
  id := id
  workspaceId := workspaceId
  parentId := session.id
  name := "agent:" ++ py.str (entry.get "id") ++ ":" ++ py.str (entry.get "version")
  status := "idle"
  data :=
    [("status", .str "idle"),
     ("parent_thread_id", .str (primaryThreadId session)),
     ("agent", sessionThreadAgentSnapshot referenced),
     ("multiagent", .dict
       [("type", .str "delegated_agent"),
        ("coordinator_agent_id", .str session.agentId),
        ("coordinator_agent_version", .int session.agentVersion)])]
  createdAt := createdAt

/-- The loop of `_create_multiagent_session_threads`; its queries come after the
two for the agent and the version of the session. -/
def delegateThreads (py : Python) (supply : Supply) (workspaceId : String)
    (session : ManagedSession) (view : AgentView) :
    ℕ → List Json → Except HTTPException (List SessionThread)
  | _, [] => .ok []
  | made, entry :: rest =>
      if getsThread entry then do
        let number ← threadVersion py entry
        match getAgentVersion (view (2 + made)) (py.str (entry.get "id")) number
            workspaceId with
        | none => .error (referencedVersionNotFound py entry)
        | some referenced => do
            let threads ← delegateThreads py supply workspaceId session view (made + 1)
              rest
            return delegatedThread py ("thread_" ++ supply.uuidHex made)
              (supply.clock made) workspaceId session entry referenced.toAgentVersion ::
                threads
      else delegateThreads py supply workspaceId session view made rest

def createMultiagentSessionThreads (py : Python) (supply : Supply) (workspaceId : String)
    (session : ManagedSession) (version : AgentVersionRow) (view : AgentView) :
    Except HTTPException (List SessionThread) :=
  delegateThreads py supply workspaceId session view 0 (threadRoster version.multiagent)

/-- A run of a deployment makes its session without threads. -/
def SessionCreation.threads (py : Python) (supply : Supply) (creation : SessionCreation)
    (session : ManagedSession) (version : AgentVersionRow) (view : AgentView) :
    Except HTTPException (List SessionThread) :=
  match creation.initialEvents with
  | some _ => .ok []
  | none =>
      createMultiagentSessionThreads py supply creation.workspaceId session version view

/-! ## Sessions with their threads -/

/-- A session's creation with the thread rows that it has. -/
structure Team where
  creation : SessionCreation
  threads : List SessionThread

/-- The teams are those of the sessions, in the same order. -/
structure ThreadedInstallation where
  installation : Installation
  teams : List Team

def ThreadedInstallation.start : ThreadedInstallation where
  installation := Installation.start
  teams := []

inductive ThreadedLabel
  | agents (label : AgentCall × List ℕ)
  | create (creation : SessionCreation) (ages : List ℕ) (supply : Supply)
  | session (index : ℕ) (label : Label) (workspaceId : String) (age : ℕ)

/-- The label without the draws for the thread rows. -/
def ThreadedLabel.plain : ThreadedLabel → InstallationLabel
  | .agents label => .agents label
  | .create creation ages _ => .create creation ages
  | .session index label workspaceId age => .session index label workspaceId age

def threadIds (teams : List Team) : List String :=
  (teams.flatMap Team.threads).map SessionThread.id

/-- A session is created together with its threads; an error rolls both back.
Identifiers which are drawn are not taken. -/
def createTeamStep (py : Python) (state : ThreadedInstallation)
    (creation : SessionCreation) (ages : List ℕ) (supply : Supply) :
    Option ThreadedInstallation :=
  if Admissible state.installation.agents ages then
    let view := state.installation.agents.view ages
    match creation.pin view with
    | none => some state
    | some version =>
        match creation.create py version with
        | none => some state
        | some db =>
            match creation.threads py supply db.session version view with
            | .error _ => some state
            | .ok threads =>
                let teams := state.teams ++ [{ creation := creation, threads := threads }]
                if (threadIds teams).Nodup then
                  some
                    { installation :=
                        { state.installation with
                          sessions := state.installation.sessions ++ [World.start db] }
                      teams := teams }
                else none
  else none

/-- What a request says about the thread rows is what the session has. -/
def Label.seesThreads (threads : List SessionThread) : Label → Bool
  | .request _ (.archiveSessionThread threadId threadExists) _ _ =>
      threadExists = threads.any fun thread => thread.id = threadId
  | _ => true

/-- The thread rows after the request; the primary thread has none. -/
def archiveThreads (world : World) (threads : List SessionThread) :
    Label → List SessionThread
  | .request _ (.archiveSessionThread threadId _) age context =>
      match world.snapshot 1 age with
      | none => threads
      | some read =>
          if read.session.deletedAt.isSome ∨ threadId = primaryThreadId read.session then
            threads
          else
            threads.map fun thread =>
              if thread.id = threadId then thread.archive context.now else thread
  | _ => threads

def Team.attend (team : Team) (world : World) (label : Label) : Team :=
  { team with threads := archiveThreads world team.threads label }

def teamSessionStep (py : Python) (state : ThreadedInstallation) (index : ℕ)
    (label : Label) (workspaceId : String) (age : ℕ) : Option ThreadedInstallation :=
  (state.installation.sessions[index]?).bind fun world =>
    (state.teams[index]?).bind fun team =>
      if label.seesThreads team.threads then
        (sessionStep py state.installation index label workspaceId age).map fun next =>
          { installation := next
            teams := state.teams.set index (team.attend world label) }
      else none

def threadedStep (py : Python) (state : ThreadedInstallation) :
    ThreadedLabel → Option ThreadedInstallation
  | .agents label =>
      (installationStep py state.installation (.agents label)).map fun next =>
        { state with installation := next }
  | .create creation ages supply => createTeamStep py state creation ages supply
  | .session index label workspaceId age =>
      teamSessionStep py state index label workspaceId age

end ManagedAgents
