import ManagedAgents.AgentHistory

/-!
# What an agent request commits

A committed request adds an agent with its first version, adds the version
after the active one, or marks an agent as archived.  A request which adds a
version was made on the version it read: the next number was free.
-/

namespace ManagedAgents

open Fallible LabelledRuns ReadCommitted

/-! ## The kinds of commits -/

/-- The rows a request sees and commits on are those of a run. -/
abbrev AgentReads (view : AgentView) (current : AgentRows) : Prop :=
  Reads AgentHistory EarlierAgents view current

/-- The next version is the patch merged onto the version, with the entries for
the agent itself resolved. -/
def MergedOnto (py : Python) (call : AgentCall) (view : AgentView)
    (body : AgentUpdateRequest) (active version : AgentVersionRow) : Prop :=
  ∃ held update config resolved,
    mustGetAgent (view 0) call.context.workspaceId active.agentId = .ok held ∧
    normalizeAgentUpdate py call.context held body view 2 = .ok update ∧
    mergeAgentUpdate active update = .ok config ∧
    validateMcpBindings config.mcpServers config.tools = .ok () ∧
    resolvedMultiagent config.multiagent active.agentId (active.version + 1) =
      .ok resolved ∧
    version =
      { config.toVersion version.id active.workspaceId active.agentId
          (active.version + 1) with multiagent := resolved }

/-- A request to create an agent inserts it with its first version. -/
structure AgentCreation (py : Python) (call : AgentCall) (view : AgentView)
    (current : AgentRows) (agent : Agent) (version : AgentVersionRow) : Prop where
  request : ∃ body tools multiagent, call.request = .create body ∧
    normalizeAgentTools py (.list (body.tools.map .dict)) = .ok tools ∧
    validateMcpBindings (body.mcpServers.map .dict) tools = .ok () ∧
    normalizeMultiagentRoster py call.context.workspaceId none view 0 body.multiagent =
      .ok multiagent ∧
    resolvedMultiagent multiagent agent.id 1 = .ok version.multiagent ∧
    version.tools = tools ∧ version.mcpServers = body.mcpServers.map .dict
  fresh : ∀ other ∈ current.agents, other.id ≠ agent.id
  versionFresh : ∀ other ∈ current.versions, other.id ≠ version.id
  active : agent.activeVersion = 1
  number : version.version = 1
  owner : version.agentId = agent.id
  workspaceId : version.workspaceId = agent.workspaceId
  repeats : Repeats agent version

/-- A request to update an agent inserts the version after the active one. -/
structure AgentUpdated (py : Python) (call : AgentCall) (view : AgentView)
    (current : AgentRows) (agent : Agent) (active version : AgentVersionRow)
    (columns : AgentColumns) : Prop where
  request : ∃ body, call.request = .update agent.id body ∧
    body.version = active.version ∧ MergedOnto py call view body active version
  agentMem : agent ∈ current.agents
  activeMem : active ∈ current.versions
  activeOwner : active.agentId = agent.id
  activeNumber : active.version = agent.activeVersion
  activeWorkspace : active.workspaceId = agent.workspaceId
  versionFresh : ∀ other ∈ current.versions, other.id ≠ version.id
  columnsActive : (columns.write agent).activeVersion = agent.activeVersion + 1
  repeats : Repeats (columns.write agent) version

inductive AgentCommit (py : Python) (call : AgentCall) (view : AgentView)
    (current : AgentRows) : AgentRows → Prop
  | created (agent : Agent) (version : AgentVersionRow)
      (hcreation : AgentCreation py call view current agent version) :
      AgentCommit py call view current
        { agents := current.agents ++ [agent]
          versions := current.versions ++ [version] }
  | updated (agent : Agent) (active version : AgentVersionRow) (columns : AgentColumns)
      (hupdated : AgentUpdated py call view current agent active version columns) :
      AgentCommit py call view current
        { agents := updateAgentRow current.agents agent.id columns
          versions := current.versions ++ [version] }
  | archived (agentId : String) (now : Time)
    (hrequest : call.request = .archive agentId) :
      AgentCommit py call view current
        { current with
          agents := updateAgentRow current.agents agentId { archivedAt := some now } }

theorem MergedOnto.fields
    {py : Python} {call : AgentCall} {view : AgentView} {body : AgentUpdateRequest}
    {active version : AgentVersionRow}
    (hmerged : MergedOnto py call view body active version) :
    version.agentId = active.agentId ∧ version.workspaceId = active.workspaceId ∧
      version.version = active.version + 1 := by
  obtain ⟨-, -, config, resolved, -, -, -, -, -, hversion⟩ := hmerged
  rw [hversion]
  exact ⟨rfl, rfl, rfl⟩

theorem resolvedMultiagent_resolved
    {condition : List Dict → Prop} {multiagent resolved : Json} {agentId : String}
    {version : ℕ} (hroster : RosterOf condition multiagent)
    (hresolved : resolvedMultiagent multiagent agentId version = .ok resolved) :
    RosterOf (fun entries => ∀ entry ∈ entries, isSelfEntry entry = false) resolved := by
  refine (resolvedMultiagent_eq_ok hroster hresolved).imp ?_
  rintro _ ⟨before, -, rfl⟩ entry hentry
  obtain ⟨member, -, rfl⟩ := List.mem_map.mp hentry
  exact resolvedEntry_not_self _ _ _

/-- The roster of a merge is the one of the active version or a normalised one. -/
theorem mergedRoster
    {py : Python} {context : AgentContext} {held : Agent} {body : AgentUpdateRequest}
    {view : AgentView} {query : ℕ} {update : AgentUpdate} {active : AgentVersionRow}
    {config : AgentConfig}
    (hupdate : normalizeAgentUpdate py context held body view query = .ok update)
    (hconfig : mergeAgentUpdate active update = .ok config) :
    (body.multiagent = none ∧ config.multiagent = active.multiagent) ∨
      (body.multiagent ≠ none ∧
        RosterOf (NormalEntries view held.id) config.multiagent) := by
  simp only [normalizeAgentUpdate, bind_eq_ok, pure_eq_ok] at hupdate
  obtain ⟨multiagent, hroster, skills, -, tools, -, rfl⟩ := hupdate
  simp only [mergeAgentUpdate, bind_eq_ok, pure_eq_ok] at hconfig
  obtain ⟨name, -, model, -, metadata, -, rfl⟩ := hconfig
  cases hbody : body.multiagent with
  | none =>
      rw [hbody] at hroster
      cases hroster
      exact Or.inl ⟨rfl, rfl⟩
  | some raw =>
      simp only [hbody, normalizeField, bind_eq_ok, pure_eq_ok] at hroster
      obtain ⟨normalized, hnormalized, rfl⟩ := hroster
      exact Or.inr ⟨by simp, normalizeMultiagentRoster_eq_ok hnormalized⟩

theorem MergedOnto.resolved
    {py : Python} {call : AgentCall} {view : AgentView} {body : AgentUpdateRequest}
    {active version : AgentVersionRow}
    (hmerged : MergedOnto py call view body active version)
    (hactive : RosterOf (fun entries => ∀ entry ∈ entries, isSelfEntry entry = false)
      active.multiagent) :
    RosterOf (fun entries => ∀ entry ∈ entries, isSelfEntry entry = false)
      version.multiagent := by
  obtain ⟨held, update, config, resolved, -, hupdate, hconfig, -, hresolved, hversion⟩ :=
    hmerged
  rw [hversion]
  rcases mergedRoster hupdate hconfig with ⟨-, hsame⟩ | ⟨-, hroster⟩
  · rw [hsame] at hresolved
    exact resolvedMultiagent_resolved hactive hresolved
  · exact resolvedMultiagent_resolved hroster hresolved

theorem AgentCommit.history
    {py : Python} {call : AgentCall} {view : AgentView} {current next : AgentRows}
    (hhistory : AgentHistory current)
    (hcommitted : AgentCommit py call view current next) : AgentHistory next := by
  cases hcommitted with
  | created agent version hcreation =>
      obtain ⟨body, tools, multiagent, -, -, -, hroster, hresolved, -, -⟩ :=
        hcreation.request
      exact hhistory.addAgent hcreation.fresh hcreation.versionFresh hcreation.active
        hcreation.number hcreation.owner hcreation.workspaceId hcreation.repeats
        (resolvedMultiagent_resolved (normalizeMultiagentRoster_eq_ok hroster) hresolved)
  | updated agent active version columns hupdated =>
      obtain ⟨body, -, -, hmerged⟩ := hupdated.request
      obtain ⟨howner, hworkspace, hnumber⟩ := hmerged.fields
      refine hhistory.addVersion hupdated.agentMem hupdated.versionFresh
        hupdated.columnsActive (hnumber.trans (by rw [hupdated.activeNumber]))
        (howner.trans hupdated.activeOwner)
        (hworkspace.trans hupdated.activeWorkspace) hupdated.repeats ?_
      exact hmerged.resolved (hhistory.rosters active hupdated.activeMem)
  | archived agentId now hrequest => exact hhistory.archive agentId now

theorem AgentCommit.earlier
    {py : Python} {call : AgentCall} {view : AgentView} {current next : AgentRows}
    (hhistory : AgentHistory current)
    (hcommitted : AgentCommit py call view current next) :
    EarlierAgents current next := by
  cases hcommitted with
  | created agent version hcreation =>
      exact ⟨fun _ hmem => List.mem_append_left _ hmem, fun other hother =>
        ⟨other, List.mem_append_left _ hother, AgentFollows.refl other⟩⟩
  | updated agent active version columns hupdated =>
      refine ⟨fun _ hmem => List.mem_append_left _ hmem, ?_⟩
      intro other hother
      by_cases hid : other.id = agent.id
      · obtain rfl := List.inj_on_of_nodup_map hhistory.agentIds hother
          hupdated.agentMem hid
        refine ⟨_, mem_updateAgentRow.mpr ⟨other, hother, Or.inl ⟨rfl, rfl⟩⟩, rfl, rfl,
          ?_, ?_⟩
        · rw [hupdated.columnsActive]
          exact Nat.le_succ _
        · intro hsame
          rw [hupdated.columnsActive] at hsame
          exact absurd hsame (Nat.succ_ne_self _)
      · exact ⟨other, mem_updateAgentRow.mpr ⟨other, hother, Or.inr ⟨hid, rfl⟩⟩,
          AgentFollows.refl other⟩
  | archived agentId now hrequest =>
      refine ⟨fun _ hmem => hmem, ?_⟩
      intro other hother
      by_cases hid : other.id = agentId
      · exact ⟨_, mem_updateAgentRow.mpr ⟨other, hother, Or.inl ⟨hid, rfl⟩⟩,
          rfl, rfl, le_rfl, fun _ => ⟨rfl, rfl, rfl⟩⟩
      · exact ⟨other, mem_updateAgentRow.mpr ⟨other, hother, Or.inr ⟨hid, rfl⟩⟩,
          AgentFollows.refl other⟩

/-! ## What each request commits -/

theorem createAgent_committed
    {py : Python} {call : AgentCall} {view : AgentView} {current next : AgentRows}
    {body : AgentCreateRequest} {outcome : AgentOutcome}
    (hrequest : call.request = .create body)
    (houtcome : createAgent py call.context body view = .ok outcome)
    (hcommit : commitAgents current outcome.statements = some next) :
    AgentCommit py call view current next := by
  unfold createAgent at houtcome
  simp only [bind_eq_ok] at houtcome
  obtain ⟨name, -, model, -, tools, htools, ⟨⟩, hbindings, multiagent, hroster, skills, -,
    metadata, -, houtcome⟩ := houtcome
  obtain ⟨after, resolved, hinsert, hresolved, hfree, rfl⟩ :=
    commitAgents_resolved (normalizeMultiagentRoster_eq_ok hroster) houtcome hcommit
  simp only [AgentStatement.execute] at hinsert
  split at hinsert
  next => cases hinsert
  next hfresh =>
    obtain rfl := Option.some.inj hinsert
    rw [Bool.not_eq_true, List.any_eq_false] at hfresh
    refine .created _ _ ?_
    exact
      { request := ⟨body, tools, multiagent, hrequest, htools, hbindings, hroster,
          hresolved, rfl, rfl⟩
        fresh := fun other hother => by simpa using hfresh other hother
        versionFresh := fun other hother => (hfree other hother).1
        active := rfl
        number := rfl
        owner := rfl
        workspaceId := rfl
        repeats := ⟨rfl, rfl, Dict.equal_self _⟩ }

/-- A version whose next number is free is the active one, and the agent row
says what was read. -/
theorem AgentReads.agent_current
    {view : AgentView} {current : AgentRows} (hreads : AgentReads view current)
    {query : ℕ} {agent : Agent} (hagent : agent ∈ (view query).agents)
    (hfree : ∀ other ∈ current.versions, other.agentId = agent.id →
      other.version ≠ agent.activeVersion + 1) :
    ∃ later ∈ current.agents, later.id = agent.id ∧
      later.workspaceId = agent.workspaceId ∧
      later.activeVersion = agent.activeVersion ∧ later.name = agent.name ∧
      later.description = agent.description ∧ later.metadata = agent.metadata := by
  obtain ⟨later, hlater, hfollows⟩ := (hreads.kept query).agents agent hagent
  have hsame : later.activeVersion = agent.activeVersion := by
    by_contra hne
    have hlt : agent.activeVersion + 1 ≤ later.activeVersion :=
      Nat.succ_le_of_lt (lt_of_le_of_ne hfollows.activeVersion (Ne.symm hne))
    obtain ⟨taken, htaken, howner, hnumber⟩ :=
      hreads.invariant.exists_version hlater (Nat.succ_le_succ (Nat.zero_le _)) hlt
    exact hfree taken htaken (howner.trans hfollows.id) hnumber
  obtain ⟨hname, hdescription, hmetadata⟩ := hfollows.same hsame
  exact ⟨later, hlater, hfollows.id, hfollows.workspaceId, hsame, hname, hdescription,
    hmetadata⟩

/-- The written agent row repeats the configuration. -/
theorem changedColumns_repeats
    {held agent : Agent} {config : AgentConfig} (hname : agent.name = held.name)
    (hdescription : agent.description = held.description)
    (hmetadata : agent.metadata = held.metadata) :
    ((changedColumns held config).write agent).name = config.name ∧
      ((changedColumns held config).write agent).description = config.description ∧
      Dict.equal config.metadata ((changedColumns held config).write agent).metadata =
        true := by
  refine ⟨?_, ?_, ?_⟩
  · by_cases hsame : config.name = held.name <;>
      simp [changedColumns, AgentColumns.write, hsame, hname]
  · by_cases hsame : config.description = held.description <;>
      simp [changedColumns, AgentColumns.write, hsame, hdescription]
  · by_cases hsame : Dict.equal config.metadata held.metadata = true <;>
      simp [changedColumns, AgentColumns.write, hsame, hmetadata]

/-- The configuration of an update, or its error. -/
theorem updateAgent_eq_ok
    {py : Python} {context : AgentContext} {agentId : String} {body : AgentUpdateRequest}
    {view : AgentView} {outcome : AgentOutcome}
    (houtcome : updateAgent py context agentId body view = .ok outcome) :
    ∃ held active update config written,
      mustGetAgent (view 0) context.workspaceId agentId = .ok held ∧
      mustGetActiveVersion (view 1) held = .ok active ∧
      body.version = held.activeVersion ∧
      normalizeAgentUpdate py context held body view 2 = .ok update ∧
      mergeAgentUpdate active update = .ok config ∧
      validateMcpBindings config.mcpServers config.tools = .ok () ∧
      writeAgentVersion context.supply (view lastAgentQuery) held active config =
        .ok written ∧
      resolveRoster written = .ok outcome := by
  unfold updateAgent at houtcome
  simp only [bind_eq_ok, raiseIf_eq_ok, ne_eq, not_not] at houtcome
  obtain ⟨held, hheld, -, -, active, hactive, -, hversion, update, hupdate, config,
    hconfig, ⟨⟩, hbindings, written, hwritten, houtcome⟩ := houtcome
  exact ⟨held, active, update, config, written, hheld, hactive, hversion, hupdate,
    hconfig, hbindings, hwritten, houtcome⟩

/-- The answer without a new version writes nothing. -/
theorem resolveRoster_unchanged
    {held : Agent} {active : AgentVersionRow} {outcome : AgentOutcome}
    (hroster : RosterOf (fun entries => ∀ entry ∈ entries, isSelfEntry entry = false)
      active.multiagent)
    (houtcome : resolveRoster { agent := held, version := active } = .ok outcome) :
    outcome.statements = [] ∧ outcome.version = active := by
  simp only [resolveRoster, resolvedMultiagent_of_resolved _ _ hroster, bind_eq_ok,
    pure_eq_ok, Except.ok.injEq] at houtcome
  obtain ⟨resolved, rfl, rfl⟩ := houtcome
  simp

theorem writeAgentVersion_eq_ok
    {supply : Supply} {rows : AgentRows} {held : Agent} {active : AgentVersionRow}
    {config : AgentConfig} {written : AgentOutcome}
    (hwritten : writeAgentVersion supply rows held active config = .ok written) :
    (configUnchanged active config = true ∧
        written = { agent := held, version := active }) ∨
      configUnchanged active config = false ∧
        written =
          { statements :=
              [.updateAgent held.id (changedColumns held config),
                .insertVersion (nextVersion supply held config)]
            agent := updatedAgent held config
            version := nextVersion supply held config } := by
  simp only [writeAgentVersion, bind_eq_ok, raiseIf_eq_ok] at hwritten
  obtain ⟨-, -, hwritten⟩ := hwritten
  split at hwritten
  next hunchanged =>
    rw [pure_eq_ok] at hwritten
    exact Or.inl ⟨hunchanged, hwritten.symm⟩
  next hchanged =>
    rw [pure_eq_ok] at hwritten
    exact Or.inr ⟨by simpa using hchanged, hwritten.symm⟩

theorem updateAgent_committed
    {py : Python} {call : AgentCall} {view : AgentView} {current next : AgentRows}
    {agentId : String} {body : AgentUpdateRequest} {outcome : AgentOutcome}
    (hreads : AgentReads view current) (hrequest : call.request = .update agentId body)
    (houtcome : updateAgent py call.context agentId body view = .ok outcome)
    (hwrites : outcome.statements ≠ [])
    (hcommit : commitAgents current outcome.statements = some next) :
    AgentCommit py call view current next := by
  obtain ⟨held, active, update, config, written, hheld, hactive, hversion, hupdate,
    hconfig, hbindings, hwritten, hresolve⟩ := updateAgent_eq_ok houtcome
  obtain ⟨hheldMem, hheldId, -⟩ := mustGetAgent_eq_ok hheld
  obtain ⟨hactiveMem, howner, hnumber, hworkspace⟩ := mustGetActiveVersion_eq_ok hactive
  have hactiveRoster := (hreads.views 1).rosters active hactiveMem
  rcases writeAgentVersion_eq_ok hwritten with ⟨-, rfl⟩ | ⟨-, rfl⟩
  · exact absurd (resolveRoster_unchanged hactiveRoster hresolve).1 hwrites
  · obtain ⟨condition, hroster⟩ : ∃ condition, RosterOf condition config.multiagent := by
      rcases mergedRoster hupdate hconfig with ⟨-, hsame⟩ | ⟨-, hroster⟩
      · exact ⟨_, hsame ▸ hactiveRoster⟩
      · exact ⟨_, hroster⟩
    have hnextRoster : RosterOf condition
        (nextVersion call.context.supply held config).multiagent := hroster
    obtain ⟨after, resolved, hfirst, hresolved, hfree, rfl⟩ :=
      commitAgents_resolved hnextRoster hresolve hcommit
    cases hfirst
    obtain ⟨later, hlater, hlaterId, hlaterWorkspace, hlaterActive, hname, hdescription,
      hmetadata⟩ := hreads.agent_current hheldMem fun other hother hsame =>
        (hfree other hother).2 hsame
    obtain ⟨hrowName, hrowDescription, hrowMetadata⟩ :=
      @changedColumns_repeats held later config hname hdescription hmetadata
    rw [← hlaterId]
    refine .updated later active _ (changedColumns held config) ?_
    refine ⟨⟨body, ?_, ?_, ?_⟩, hlater, (hreads.kept 1).versions active hactiveMem,
      howner.trans hlaterId.symm, hnumber.trans hlaterActive.symm,
      hworkspace.trans hlaterWorkspace.symm, fun other hother => (hfree other hother).1,
      ?_, hrowName, hrowDescription, hrowMetadata⟩
    · rw [hrequest, hlaterId, hheldId]
    · rw [hversion, hnumber]
    · refine ⟨held, update, config, resolved, ?_, hupdate, hconfig, hbindings, ?_, ?_⟩
      · rw [howner, hheldId]
        exact hheld
      · rw [howner, hnumber]
        exact hresolved
      · rw [howner, hnumber, hworkspace]
        rfl
    · simp [changedColumns, AgentColumns.write, hlaterActive]

theorem archiveAgent_committed
    {py : Python} {call : AgentCall} {view : AgentView} {current next : AgentRows}
    {agentId : String} {outcome : AgentOutcome}
    (hrequest : call.request = .archive agentId)
    (houtcome : archiveAgent call.context agentId view = .ok outcome)
    (hcommit : commitAgents current outcome.statements = some next) :
    AgentCommit py call view current next := by
  simp only [archiveAgent, bind_eq_ok, pure_eq_ok] at houtcome
  obtain ⟨held, hheld, version, -, rfl⟩ := houtcome
  obtain ⟨-, rfl, -⟩ := mustGetAgent_eq_ok hheld
  obtain ⟨after, hfirst, hcommit⟩ := commitAgents_cons.mp hcommit
  cases hfirst
  cases hcommit
  exact .archived held.id (call.context.supply.clock 0) hrequest

theorem AgentCall.committed
    {py : Python} {call : AgentCall} {view : AgentView} {current next : AgentRows}
    (hreads : AgentReads view current) (hbody : call.body py view current = some next) :
    AgentCommit py call view current next := by
  obtain ⟨outcome, houtcome, hwrites, hcommit⟩ := AgentCall.body_eq_some.mp hbody
  cases hrequest : call.request with
  | create body =>
      rw [AgentCall.handle, hrequest] at houtcome
      exact createAgent_committed hrequest houtcome hcommit
  | update agentId body =>
      rw [AgentCall.handle, hrequest] at houtcome
      exact updateAgent_committed hreads hrequest houtcome hwrites hcommit
  | archive agentId =>
      rw [AgentCall.handle, hrequest] at houtcome
      exact archiveAgent_committed hrequest houtcome hcommit

end ManagedAgents
