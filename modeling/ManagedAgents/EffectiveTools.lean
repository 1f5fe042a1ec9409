import ManagedAgents.Installations
import ManagedAgents.RetryAccounting
import ManagedAgents.ToolContracts

/-!
# The tools of a session

The tools and servers of a turn are those of the pinned version under the
overlay of the session.  A patch of the overlay is checked against the half it
leaves alone, which comes from the overlay or from the version, so both halves
fit together in every committed state.
-/

namespace ManagedAgents

open Fallible LabelledRuns ReadCommitted

/-- The configuration which the details give a session with the version. -/
def ConfiguredBy (version : AgentVersion) (details : StatusDetails) : Prop :=
  WellFormedTools (effectiveAgentVersion version details).tools
    (effectiveAgentVersion version details).mcpServers

/-! ## What a transaction makes of the overlay -/

/-- A patch of the overlay keeps the tools or normalises new ones. -/
theorem mergeSessionAgentOverlay_eq_ok
    {py : Python} {details merged : StatusDetails} {version : AgentVersion}
    {update : Dict}
    (hmerged : mergeSessionAgentOverlay py details (some version) update = .ok merged) :
    ∃ overlay : AgentOverlay, merged = { details with agent := some overlay } ∧
      (overlay.tools = (details.agent.getD {}).tools ∨
        ∃ raw tools, normalizeAgentTools py raw = .ok tools ∧
          overlay.tools = some tools) ∧
      validateMcpBindings (overlay.mcpServers.getD version.mcpServers)
        (overlay.tools.getD version.tools) = .ok () := by
  unfold mergeSessionAgentOverlay at hmerged
  by_cases hknown : ((update.map Prod.fst).filter fun name =>
      name ≠ "tools" ∧ name ≠ "mcp_servers") = []
  · simp only [hknown, ne_eq, not_true_eq_false, if_false] at hmerged
    cases htools : Dict.contains update "tools" <;>
      cases hservers : Dict.contains update "mcp_servers" <;>
      simp only [htools, hservers, Bool.false_eq_true, if_true, if_false, bind_eq_ok,
        pure_eq_ok] at hmerged
    · obtain ⟨_, rfl, _, rfl, ⟨⟩, hbindings, rfl⟩ := hmerged
      exact ⟨_, rfl, Or.inl rfl, hbindings⟩
    · obtain ⟨_, rfl, servers, -, _, rfl, ⟨⟩, hbindings, rfl⟩ := hmerged
      exact ⟨_, rfl, Or.inl rfl, hbindings⟩
    · obtain ⟨raw, -, tools, hnormal, _, rfl, _, rfl, ⟨⟩, hbindings, rfl⟩ := hmerged
      exact ⟨_, rfl, Or.inr ⟨_, tools, hnormal, rfl⟩, hbindings⟩
    · obtain ⟨raw, -, tools, hnormal, _, rfl, servers, -, _, rfl, ⟨⟩, hbindings, rfl⟩ :=
        hmerged
      exact ⟨_, rfl, Or.inr ⟨_, tools, hnormal, rfl⟩, hbindings⟩
  · simp only [ne_eq, hknown, not_false_eq_true, if_true] at hmerged
    cases hmerged

theorem mergeSessionAgentOverlay_none
    (py : Python) (details merged : StatusDetails) (update : Dict) :
    mergeSessionAgentOverlay py details none update ≠ .ok merged := by
  intro hmerged
  unfold mergeSessionAgentOverlay at hmerged
  by_cases hknown : ((update.map Prod.fst).filter fun name =>
      name ≠ "tools" ∧ name ≠ "mcp_servers") = []
  · simp only [hknown, ne_eq, not_true_eq_false, if_false] at hmerged
    cases hmerged
  · simp only [ne_eq, hknown, not_false_eq_true, if_true] at hmerged
    cases hmerged

/-- The patched overlay is checked as a whole. -/
theorem mergeSessionAgentOverlay_configured
    {py : Python} {details merged : StatusDetails} {version : AgentVersion}
    {update : Dict} (hconfigured : ConfiguredBy version details)
    (hmerged : mergeSessionAgentOverlay py details (some version) update = .ok merged) :
    ConfiguredBy version merged := by
  obtain ⟨overlay, rfl, htools, hbindings⟩ := mergeSessionAgentOverlay_eq_ok hmerged
  refine ⟨?_, validateMcpBindings_bound hbindings⟩
  rcases htools with hkept | ⟨raw, tools, hnormal, hnew⟩
  · simpa only [effectiveAgentVersion, Option.getD_some, hkept] using hconfigured.limited
  · simpa only [effectiveAgentVersion, Option.getD_some, hnew] using
      normalizeAgentTools_limited hnormal

theorem commitOutcome_agent
    {py : Python} {history : List SessionEvent} {result : RuntimeResult}
    {start tx : Tx} (htx : commitOutcome py history result start = .commit tx) :
    tx.session.statusDetails.agent = start.session.statusDetails.agent := by
  unfold commitOutcome at htx
  split at htx
  · cases htx
  simp only at htx
  split at htx
  · cases htx
  next middle blockingIds hloop =>
  obtain ⟨added, blocked, happends, -⟩ := appendToolEvents_appends hloop
  have hmiddle := congrArg StatusDetails.agent happends.statusDetails
  split at htx
  · cases htx
    exact hmiddle
  split at htx
  · cases htx
  next evaluation _ =>
  cases htx
  obtain ⟨texts, htexts⟩ := appendFinalText_appends py result middle
  have hfinal := congrArg StatusDetails.agent htexts.statusDetails
  cases evaluation with
  | none => exact hfinal.trans hmiddle
  | some evaluation => exact hfinal.trans hmiddle

theorem failTurn_agent
    {py : Python} {exc : PyException} {start tx : Tx}
    (htx : failTurn py exc start = .ok tx) :
    tx.session.statusDetails.agent = start.session.statusDetails.agent := by
  unfold failTurn at htx
  split at htx
  · cases htx
  · unfold markTransientRuntimeFailure at htx
    simp only at htx
    repeat' split at htx
    all_goals cases htx
    all_goals rfl
  · cases htx
    rfl

theorem archiveSessionThread_agent
    {threadId : String} {threadExists : Bool} {start tx : Tx}
    (htx : archiveSessionThread threadId threadExists start = .ok tx) :
    tx.session.statusDetails.agent = start.session.statusDetails.agent := by
  unfold archiveSessionThread at htx
  repeat' split at htx
  all_goals cases htx
  all_goals rfl

/-- A transaction carries the overlay over, unless it is an update of the
session, which may patch it. -/
theorem Transaction.body_agent
    {py : Python} {transaction : Transaction} {start tx : Tx}
    (hbody : transaction.body py start = some tx) :
    tx.session.statusDetails.agent = start.session.statusDetails.agent ∨
      ∃ response body update, transaction = .request (.updateSession response body) ∧
        mergeSessionAgentOverlay py start.session.statusDetails response.version update =
          .ok tx.session.statusDetails := by
  by_cases hkeeps : transaction.keepsDetails
  · rw [Transaction.body_statusDetails hkeeps hbody]
    exact Or.inl rfl
  · cases transaction with
    | request call =>
        have hok := Except.toOption_eq_some.mp hbody
        cases call with
        | updateSession response body =>
            obtain ⟨update, hupdate, hdetails⟩ := updateSessionRequest_details hok
            cases hmerged : update.statusDetails with
            | none =>
                rw [hdetails, hmerged]
                exact Or.inl rfl
            | some merged =>
                obtain ⟨overlay, hoverlay⟩ := sessionUpdateOf_merged hupdate hmerged
                rw [hdetails, hmerged]
                exact Or.inr ⟨response, body, overlay, rfl, hoverlay⟩
        | archiveSessionThread threadId threadExists =>
            exact Or.inl (archiveSessionThread_agent hok)
        | _ => exact absurd trivial hkeeps
    | outcome history result =>
        exact Or.inl (commitOutcome_agent (TurnReply.commit?_eq_some.mp hbody))
    | failure exc => exact Or.inl (failTurn_agent (Except.toOption_eq_some.mp hbody))
    | _ => exact absurd trivial hkeeps

theorem ConfiguredBy.of_agent
    {version : AgentVersion} {details other : StatusDetails}
    (hconfigured : ConfiguredBy version details) (hagent : other.agent = details.agent) :
    ConfiguredBy version other := by
  unfold ConfiguredBy effectiveAgentVersion at *
  rw [hagent]
  exact hconfigured

/-! ## One session -/

/-- The turn which an execution has loaded. -/
def Phase.turn? : Phase → Option LoadedTurn
  | .loaded turn | .executed turn _ => some turn
  | _ => none

/-- In every committed state the session is pinned to the version and its
configuration is well formed, and turns are loaded from these states. -/
structure Configured (version : AgentVersion) (world : World) : Prop where
  states : ∀ commit ∈ world.history,
    commit.db.session.agentId = version.agentId ∧
      commit.db.session.agentVersion = version.version ∧
      ConfiguredBy version commit.db.session.statusDetails
  turns : ∀ id execution turn, world.executions id = some execution →
    execution.phase.turn? = some turn →
    ∃ commit ∈ world.history,
      turn.version = effectiveAgentVersion version commit.db.session.statusDetails

theorem Created.configured
    {py : Python} {db : Db} {version : AgentVersion} (hcreated : Created py db)
    (hagent : db.session.agentId = version.agentId)
    (hnumber : db.session.agentVersion = version.version)
    (hversion : WellFormedTools version.tools version.mcpServers) :
    Configured version (World.start db) := by
  have hdetails : db.session.statusDetails.agent = none := by
    obtain ⟨seed, context, tx, added, happends, -, hcommit⟩ := hcreated.spec
    obtain ⟨-, rfl⟩ := Tx.commit_eq_some.mp hcommit
    have hsession := happends.session
    simp only [flushSession, happends.snapshot, hsession]
    simp [flushColumn, beginSession, appendEvent, emptyDb, newSession]
  constructor
  · intro commit hcommit
    obtain rfl := List.mem_singleton.mp hcommit
    refine ⟨hagent, hnumber, ?_⟩
    change ConfiguredBy version db.session.statusDetails
    simpa [ConfiguredBy, effectiveAgentVersion, hdetails] using hversion
  · intro id execution turn hexecution
    cases hexecution

theorem flushSession_details
    (read written current : ManagedSession) :
    (flushSession read written current).agentId = current.agentId ∧
      (flushSession read written current).agentVersion = current.agentVersion ∧
      ((flushSession read written current).statusDetails = current.statusDetails ∨
        (flushSession read written current).statusDetails = written.statusDetails) := by
  refine ⟨rfl, rfl, ?_⟩
  by_cases hsame : written.statusDetails = read.statusDetails
  · exact Or.inl (by simp [flushSession, flushColumn, hsame])
  · exact Or.inr (by simp [flushSession, flushColumn, hsame])

theorem Configured.read
    {version : AgentVersion} {world : World} {read : Db}
    (hconfigured : Configured version world)
    (hread : read ∈ world.history.map Commit.db) :
    read.session.agentId = version.agentId ∧
      read.session.agentVersion = version.version ∧
      ConfiguredBy version read.session.statusDetails := by
  obtain ⟨commit, hcommit, rfl⟩ := List.mem_map.mp hread
  exact hconfigured.states commit hcommit

/-- An update of the session merges its patch onto the version that was found. -/
theorem attempt_version
    {world : World} {label : Label} {attempt : Attempt} {found : Option AgentVersion}
    {response : ResponseContext} {body : SessionUpdateRequest}
    (hattempt : world.attempt (label.withVersion found) = some attempt)
    (htransaction : attempt.transaction = .request (.updateSession response body)) :
    response.version = found := by
  cases hlabel : label.withVersion found with
  | request process call age context =>
      rw [hlabel] at hattempt
      obtain ⟨read, -, rfl⟩ := Option.map_eq_some_iff.mp hattempt
      cases htransaction
      exact withVersion_update hlabel
  | turn id kind age context =>
      rw [hlabel] at hattempt
      obtain ⟨⟨execution, read⟩, -, hmap⟩ := Option.bind_eq_some_iff.mp hattempt
      obtain ⟨transaction, hkind, rfl⟩ := Option.map_eq_some_iff.mp hmap
      simp only at htransaction
      subst htransaction
      unfold TurnTransaction.transaction at hkind
      split at hkind <;> cases hkind
  | work workId request executor age now => rw [hlabel] at hattempt; cases hattempt
  | claim index age now => rw [hlabel] at hattempt; cases hattempt
  | move id move => rw [hlabel] at hattempt; cases hattempt
  | finish id age now => rw [hlabel] at hattempt; cases hattempt
  | abandon id => rw [hlabel] at hattempt; cases hattempt
  | crash process => rw [hlabel] at hattempt; cases hattempt

/-- What a transaction leaves is configured if it read such details. -/
theorem body_configured
    {py : Python} {version : AgentVersion} {found : Option AgentVersion}
    {transaction : Transaction} {start tx : Tx}
    (hread : ConfiguredBy version start.session.statusDetails)
    (hfound : found = none ∨ found = some version)
    (hversion : ∀ response body, transaction = .request (.updateSession response body) →
      response.version = found)
    (hbody : transaction.body py start = some tx) :
    ConfiguredBy version tx.session.statusDetails := by
  rcases Transaction.body_agent hbody with hkept |
    ⟨response, body, update, hrequest, hmerged⟩
  · exact hread.of_agent hkept
  · rw [hversion response body hrequest] at hmerged
    rcases hfound with rfl | rfl
    · exact absurd hmerged (mergeSessionAgentOverlay_none _ _ _ _)
    · exact mergeSessionAgentOverlay_configured hread hmerged

theorem step_history_kept
    {py : Python} {world next : World} {label : Label}
    (hstep : step py world label = some next) :
    ∀ commit ∈ world.history, commit ∈ next.history := by
  intro commit hcommit
  cases step_history hstep with
  | silent hhistory => exact hhistory ▸ hcommit
  | session attempt tx db hattempt hbody hflush hhistory =>
      rw [hhistory]
      exact List.mem_cons_of_mem _ hcommit
  | work read work written hread hrow hwrite hhistory =>
      rw [hhistory]
      exact List.mem_cons_of_mem _ hcommit

theorem Move.turn_kept
    {move : Move} {busy : Bool} {before after : Phase} {turn : LoadedTurn}
    (hphase : move.phase busy before = some after) (hturn : after.turn? = some turn) :
    before.turn? = some turn := by
  unfold Move.phase at hphase
  repeat' split at hphase
  all_goals cases hphase
  all_goals first
    | exact hturn
    | cases hturn

/-- Only the load of a turn gives an execution a turn. -/
theorem TurnTransaction.turn_loaded
    {py : Python} {kind : TurnTransaction} {before after : Phase} {start : Tx}
    {reply : PhaseReply} {turn : LoadedTurn}
    (hreply : kind.reply py before start = some reply) (hleads : reply.leadsTo after)
    (hturn : after.turn? = some turn) :
    ∃ rows tx, kind = .load rows ∧ loadTurn py rows start = .ok (turn, tx) := by
  unfold TurnTransaction.reply at hreply
  repeat' split at hreply
  all_goals cases hreply
  all_goals simp only [PhaseReply.leadsTo] at hleads
  all_goals first
    | (subst hleads; cases hturn)
    | (rcases hleads with rfl | rfl <;> cases hturn)
  exact ⟨_, _, rfl, by assumption⟩

theorem loadTurn_version
    {py : Python} {rows : TurnRows} {start tx : Tx} {turn : LoadedTurn}
    (hload : loadTurn py rows start = .ok (turn, tx)) :
    ∃ version, rows.version = some version ∧
      turn.version = effectiveAgentVersion version start.session.statusDetails := by
  unfold loadTurn at hload
  repeat' split at hload
  all_goals cases hload
  exact ⟨_, by assumption, rfl⟩

theorem Configured.step
    {py : Python} {version : AgentVersion} {found : Option AgentVersion}
    {world next : World} {label : Label} (hconfigured : Configured version world)
    (hfound : found = none ∨ found = some version)
    (hstep : ManagedAgents.step py world (label.withVersion found) = some next) :
    Configured version next := by
  have hkept := step_history_kept hstep
  constructor
  · intro commit hcommit
    cases step_history hstep with
    | silent hhistory => exact hconfigured.states commit (hhistory ▸ hcommit)
    | session attempt tx db hattempt hbody hflush hhistory =>
        rw [hhistory] at hcommit
        rcases List.mem_cons.mp hcommit with rfl | hcommit
        · obtain ⟨hagent, hnumber, hcurrent⟩ := hconfigured.read world.db_mem
          have hread := (hconfigured.read (World.attempt_read_mem hattempt)).2.2
          have hwritten := body_configured hread hfound
            (fun response body hrequest => attempt_version hattempt hrequest) hbody
          obtain ⟨-, rfl⟩ := Tx.commit_eq_some.mp hflush
          obtain ⟨hsameAgent, hsameNumber, hdetails⟩ := flushSession_details
            tx.snapshot.session tx.session world.db.session
          refine ⟨hsameAgent.trans hagent, hsameNumber.trans hnumber, ?_⟩
          rcases hdetails with hsame | hsame
          · exact hcurrent.of_agent (congrArg StatusDetails.agent hsame)
          · exact hwritten.of_agent (congrArg StatusDetails.agent hsame)
        · exact hconfigured.states commit hcommit
    | work read work written hread hrow hwrite hhistory =>
        rw [hhistory] at hcommit
        rcases List.mem_cons.mp hcommit with rfl | hcommit
        · have hcurrent := hconfigured.read world.db_mem
          exact hcurrent
        · exact hconfigured.states commit hcommit
  · intro id after turn hafter hturn
    have hbefore : ∀ before, world.executions id = some before →
        before.phase.turn? = some turn → ∃ commit ∈ next.history,
          turn.version =
            effectiveAgentVersion version commit.db.session.statusDetails := by
      intro before hexecution hphase
      obtain ⟨commit, hcommit, hsame⟩ :=
        hconfigured.turns id before turn hexecution hphase
      exact ⟨commit, hkept commit hcommit, hsame⟩
    cases step_execution hstep hafter with
    | same hsame => exact hbefore after hsame hturn
    | claimed read work hid hnext hphase =>
        rw [hphase] at hturn
        cases hturn
    | moved before move hlabel hexecution hphase hsame =>
        exact hbefore before hexecution (Move.turn_kept hphase hturn)
    | turn before kind age context read transaction hlabel hreading hkind hturnStep =>
        obtain ⟨-, reply, hreply, hleads⟩ := hturnStep.execution hafter
        obtain ⟨rows, tx, rfl, hload⟩ :=
          TurnTransaction.turn_loaded hreply hleads hturn
        obtain ⟨row, hrow, hversion⟩ := loadTurn_version hload
        rw [withVersion_load hlabel] at hrow
        rcases hfound with rfl | rfl
        · cases hrow
        · cases hrow
          obtain ⟨commit, hcommit, rfl⟩ :=
            World.snapshot_mem (World.reading_eq_some.mp hreading).2
          exact ⟨commit, hkept commit hcommit, hversion⟩

/-! ## All sessions -/

/-- Every session has a committed version by which it is configured. -/
structure Installation.Sound (state : Installation) : Prop where
  agents : state.agents.Ordered AgentHistory EarlierAgents
  tools : ∀ rows ∈ state.agents.history, ToolsWellFormed rows
  sessions : ∀ world ∈ state.sessions, ∃ version ∈ state.agents.current.versions,
    Configured version.toAgentVersion world

theorem Installation.start_sound : Installation.start.Sound where
  agents := AgentWorld.start_ordered
  tools := by
    simp [Installation.start, Timeline.history, AgentWorld.start, ToolsWellFormed]
  sessions := by simp [Installation.start]

theorem createSessionStep_sound
    {py : Python} {state next : Installation} {creation : SessionCreation}
    {ages : List ℕ} (hsound : state.Sound)
    (hstep : createSessionStep py state creation ages = some next) : next.Sound := by
  unfold createSessionStep at hstep
  split at hstep
  next hages =>
    split at hstep
    next =>
      cases hstep
      exact hsound
    next db hcreate =>
      cases hstep
      obtain ⟨version, hpin, hdb⟩ := Option.bind_eq_some_iff.mp hcreate
      have hmem := SessionCreation.pin_mem hsound.agents hages hpin
      refine ⟨hsound.agents, hsound.tools, ?_⟩
      intro world hworld
      rcases List.mem_append.mp hworld with hworld | hworld
      · exact hsound.sessions world hworld
      · obtain rfl := List.mem_singleton.mp hworld
        obtain ⟨hcreated, hagent, hnumber⟩ := SessionCreation.create_created hdb
        exact ⟨version, hmem, hcreated.configured hagent hnumber
          (hsound.tools _ List.mem_cons_self version hmem)⟩
  next => cases hstep

theorem sessionStep_sound
    {py : Python} {state next : Installation} {index : ℕ} {label : Label}
    {workspaceId : String} {age : ℕ} (hsound : state.Sound)
    (hstep : sessionStep py state index label workspaceId age = some next) :
    next.Sound := by
  obtain ⟨world, hworld, hmap⟩ := Option.bind_eq_some_iff.mp hstep
  obtain ⟨after, hafter, rfl⟩ := Option.map_eq_some_iff.mp hmap
  refine ⟨hsound.agents, hsound.tools, ?_⟩
  intro other hother
  rcases List.mem_or_eq_of_mem_set hother with hother | rfl
  · exact hsound.sessions other hother
  · obtain ⟨version, hmem, hconfigured⟩ :=
      hsound.sessions world (List.mem_of_getElem? hworld)
    obtain ⟨hagent, hnumber, -⟩ := hconfigured.read world.db_mem
    have hfound := @findPinned_eq _ workspaceId _ age _ hsound.agents hmem hagent hnumber
    exact ⟨version, hmem, hconfigured.step hfound hafter⟩

theorem installationStep_sound
    {py : Python} {state next : Installation} {label : InstallationLabel}
    (hsound : state.Sound) (hstep : installationStep py state label = some next) :
    next.Sound := by
  cases label with
  | agents label =>
      obtain ⟨agents, hagents, rfl⟩ := Option.map_eq_some_iff.mp hstep
      have hordered := agent_step_ordered hsound.agents hagents
      refine ⟨hordered, ?_, ?_⟩
      · exact agent_step_property (fun _ _ _ _ _ hcurrent hcommitted =>
          hcommitted.wellFormed hcurrent) hsound.agents hsound.tools hagents
      · intro world hworld
        obtain ⟨version, hmem, hconfigured⟩ := hsound.sessions world hworld
        exact ⟨version, agent_step_kept hsound.agents hagents version hmem, hconfigured⟩
  | create creation ages => exact createSessionStep_sound hsound hstep
  | session index label workspaceId age => exact sessionStep_sound hsound hstep

/-- The response of a session shows what the runtime is given. -/
theorem sessionResponse_tools
    (py : Python) (response : ResponseContext) (session : ManagedSession)
    {version : AgentVersion} (hversion : response.version = some version) :
    ((sessionResponse py response session).get "agent").get "tools" =
        .list (effectiveAgentVersion version session.statusDetails).tools ∧
      ((sessionResponse py response session).get "agent").get "mcp_servers" =
        .list (effectiveAgentVersion version session.statusDetails).mcpServers := by
  constructor <;>
    simp [sessionResponse, sessionAgentSnapshot, effectiveAgentVersion, optionalJson,
      hversion, Json.get, Dict.get]

/-- Whatever is created and updated in whatever order, the tools and servers of
a turn are those which the response of its session shows in a committed state,
and they are well formed in all of them. -/
theorem session_tools_well_formed
    {py : Python} {labels : List InstallationLabel} {last : Installation}
    (hrun : run (installationStep py) Installation.start labels = some last) :
    ∀ world ∈ last.sessions, ∃ version ∈ last.agents.current.versions,
      (∀ commit ∈ world.history,
        commit.db.session.agentId = version.agentId ∧
        commit.db.session.agentVersion = version.version ∧
        let effective :=
          effectiveAgentVersion version.toAgentVersion commit.db.session.statusDetails
        WellFormedTools effective.tools effective.mcpServers ∧
          ∀ response : ResponseContext,
            response.version = some version.toAgentVersion →
            ((sessionResponse py response commit.db.session).get "agent").get "tools" =
                .list effective.tools ∧
              ((sessionResponse py response commit.db.session).get "agent").get
                "mcp_servers" = .list effective.mcpServers) ∧
      ∀ id execution turn, world.executions id = some execution →
        execution.phase.turn? = some turn → ∃ commit ∈ world.history,
          turn.version =
            effectiveAgentVersion version.toAgentVersion
              commit.db.session.statusDetails := by
  have hsound : last.Sound := run_invariant
    (fun _ _ _ hsound hstep => installationStep_sound hsound hstep)
    Installation.start_sound hrun
  intro world hworld
  obtain ⟨version, hmem, hconfigured⟩ := hsound.sessions world hworld
  refine ⟨version, hmem, ?_, hconfigured.turns⟩
  intro commit hcommit
  obtain ⟨hagent, hnumber, hstate⟩ := hconfigured.states commit hcommit
  exact ⟨hagent, hnumber, hstate, fun response hversion =>
    sessionResponse_tools py response commit.db.session hversion⟩

/-- A lookup tool of the client. -/
def sampleCustomTool : Dict :=
  [("type", .str "custom"), ("name", .str "lookup"),
   ("description", .str "Looks up a record."),
   ("input_schema", .dict [("type", .str "object")])]

def sampleToolless : SessionUpdateRequest where
  agent := some [("tools", .list [])]

/-- An agent with a tool and a session which then gives it up. -/
def sampleInstallation : Installation :=
  (run (installationStep samplePython) Installation.start
    [.agents (sampleAgentCall "a" (.create
      { name := "clerk", model := .str "sonnet", tools := [sampleCustomTool] })),
     .create
      { workspaceId := "wrkspc_default", agentId := "agt_a0", version := none
        seed := sampleSeed, context := sampleContext "b", initialEvents := none } [0, 0],
     .session 0 (.request 0 (.updateSession ⟨none, [], 0, 0⟩ sampleToolless) 0
      (sampleContext "c")) "wrkspc_default" 0]).get (by decide)

theorem sample_session_tools_well_formed :
    ∃ version ∈ sampleInstallation.agents.current.versions,
      ∀ commit ∈ (sampleInstallation.sessions.head (by decide)).history,
        let effective :=
          effectiveAgentVersion version.toAgentVersion commit.db.session.statusDetails
        WellFormedTools effective.tools effective.mcpServers := by
  obtain ⟨version, hversion, hcommits, -⟩ :=
    @session_tools_well_formed samplePython _ sampleInstallation
      (Option.some_get _).symm _ (List.head_mem (by decide))
  exact ⟨version, hversion, fun commit hcommit => (hcommits commit hcommit).2.2.1⟩

end ManagedAgents
