import ManagedAgents.Rosters

/-!
# Delegations

The entries of a stored roster name versions of the same workspace: of agents
without a roster of their own, or of the coordinator itself.  Whatever requests
interleave, no entry is left without its version.
-/

namespace ManagedAgents

open Fallible LabelledRuns ReadCommitted

/-- The entry names a version to which the owner of the roster may delegate. -/
def DelegatedWithin (rows : AgentRows) (owner : AgentVersionRow) (entry : Json) : Prop :=
  ∃ referenced ∈ rows.versions, RefersTo entry referenced ∧
    referenced.workspaceId = owner.workspaceId ∧ referenced.agentId ≠ "" ∧
    (referenced.multiagent = .null ∨ referenced.agentId = owner.agentId)

/-- Every stored roster delegates, and to different agents. -/
structure Delegations (rows : AgentRows) : Prop where
  agentIds : ∀ agent ∈ rows.agents, agent.id ≠ ""
  entries : ∀ owner ∈ rows.versions, ∀ entry ∈ rosterMembers owner.multiagent,
    DelegatedWithin rows owner entry
  distinct : ∀ owner ∈ rows.versions,
    ((rosterMembers owner.multiagent).map fun entry => entry.get "id").Nodup
  size : ∀ owner ∈ rows.versions,
    (rosterMembers owner.multiagent).length ≤ MAX_ROSTER_AGENTS

theorem Delegations.start : Delegations {} where
  agentIds := by simp
  entries := by simp
  distinct := by simp
  size := by simp

theorem DelegatedWithin.mono
    {rows next : AgentRows} {owner : AgentVersionRow} {entry : Json}
    (hentry : DelegatedWithin rows owner entry)
    (hversions : ∀ version ∈ rows.versions, version ∈ next.versions) :
    DelegatedWithin next owner entry := by
  obtain ⟨referenced, hmem, hnames⟩ := hentry
  exact ⟨referenced, hversions referenced hmem, hnames⟩

/-! ## The workspace of an entry -/

/-- The entry stands for the agent itself or for one which a query has found in
the workspace. -/
def NamedIn (view : AgentView) (workspaceId : String) (entry : Dict) : Prop :=
  isSelfEntry entry = true ∨ ∃ query, ∃ agent ∈ (view query).agents,
    Dict.get entry "id" = .str agent.id ∧ agent.workspaceId = workspaceId

/-- What the normalisation of a roster checks of the agents that it names. -/
structure NamedEntries (view : AgentView) (workspaceId : String) (entries : List Dict) :
    Prop where
  named : ∀ entry ∈ entries, NamedIn view workspaceId entry
  size : entries.length ≤ MAX_ROSTER_AGENTS

theorem getReferencedAgent_mem
    {rows : AgentRows} {workspaceId agentId : String} {self : Option Agent}
    {referenced : Agent}
    (hfound : getReferencedAgent rows workspaceId self agentId = some referenced) :
    ∃ agent ∈ rows.agents, agent.id = agentId ∧ agent.workspaceId = workspaceId := by
  unfold getReferencedAgent at hfound
  obtain ⟨found, hget, -⟩ := Option.map_eq_some_iff.mp hfound
  exact ⟨found, getAgent_eq_some hget⟩

theorem pinRosterEntry_named
    {py : Python} {workspaceId : String} {self : Option Agent} {view : AgentView}
    {query : ℕ} {seen : List String} {entry pinned : Dict} {agentId : String}
    (hpin : pinRosterEntry py workspaceId self view query seen entry =
      .ok (agentId, pinned)) : NamedIn view workspaceId pinned := by
  unfold pinRosterEntry at hpin
  obtain ⟨found, -, hpin⟩ := bind_eq_ok.mp hpin
  split at hpin
  next => cases hpin
  next referenced hreferenced =>
    obtain ⟨agent, hmem, hid, hworkspace⟩ := getReferencedAgent_mem hreferenced
    simp only [bind_eq_ok, raiseIf_eq_ok] at hpin
    obtain ⟨-, -, number, -, -, -, hpin⟩ := hpin
    split at hpin
    next => cases hpin
    next version hversion =>
      simp only [bind_eq_ok, pure_eq_ok, Prod.mk.injEq] at hpin
      obtain ⟨-, -, -, -, rfl, rfl⟩ := hpin
      refine Or.inr ⟨query, agent, hmem, ?_, hworkspace⟩
      simp [Dict.get_set_other, hid]

theorem rosterEntries_named
    {py : Python} {workspaceId : String} {self : Option Agent} {view : AgentView}
    {query : ℕ} {seen : List String} {sawSelf : Bool} {items out : List Json}
    (hentries : rosterEntries py workspaceId self view query seen sawSelf items =
      .ok out) :
    ∃ entries : List Dict, out = entries.map .dict ∧ entries.length = items.length ∧
      ∀ entry ∈ entries, NamedIn view workspaceId entry := by
  induction items generalizing query seen sawSelf out with
  | nil =>
      cases hentries
      exact ⟨[], rfl, rfl, by simp⟩
  | cons item rest ih =>
      simp only [rosterEntries, bind_eq_ok] at hentries
      obtain ⟨fields, -, hentries⟩ := hentries
      split at hentries
      next hself =>
        simp only [bind_eq_ok, pure_eq_ok] at hentries
        obtain ⟨-, -, -, -, tail, htail, rfl⟩ := hentries
        obtain ⟨entries, rfl, hlength, hnamed⟩ := ih htail
        refine ⟨fields :: entries, rfl, by simp [hlength],
          List.forall_mem_cons.mpr ⟨Or.inl ?_, hnamed⟩⟩
        simp [isSelfEntry, hself]
      next =>
        simp only [bind_eq_ok, pure_eq_ok] at hentries
        obtain ⟨-, -, ⟨agentId, pinned⟩, hpin, tail, htail, rfl⟩ := hentries
        obtain ⟨entries, rfl, hlength, hnamed⟩ := ih htail
        exact ⟨pinned :: entries, rfl, by simp [hlength],
          List.forall_mem_cons.mpr ⟨pinRosterEntry_named hpin, hnamed⟩⟩

theorem normalizeMultiagentRoster_named
    {py : Python} {workspaceId : String} {self : Option Agent} {view : AgentView}
    {query : ℕ} {multiagent : Option Dict} {normalized : Json}
    (hnormalized : normalizeMultiagentRoster py workspaceId self view query multiagent =
      .ok normalized) :
    RosterOf (NamedEntries view workspaceId) normalized := by
  unfold normalizeMultiagentRoster at hnormalized
  cases multiagent with
  | none =>
      cases hnormalized
      exact Or.inl rfl
  | some fields =>
      simp only [bind_eq_ok, raiseIf_eq_ok, pure_eq_ok] at hnormalized
      obtain ⟨-, -, agents, -, -, -, -, hsize, out, hout, rfl⟩ := hnormalized
      obtain ⟨entries, rfl, hlength, hnamed⟩ := rosterEntries_named hout
      refine Or.inr ⟨_, entries, rfl, by simp, hnamed, ?_⟩
      rw [hlength]
      exact Nat.le_of_not_lt hsize

/-- A resolved entry names the owner of the roster or an agent that was found. -/
theorem resolved_named
    {view : AgentView} {workspaceId agentId : String} {version : ℕ}
    {multiagent resolved : Json}
    (hroster : RosterOf (NamedEntries view workspaceId) multiagent)
    (hresolved : resolvedMultiagent multiagent agentId version = .ok resolved) :
    (rosterMembers resolved).length ≤ MAX_ROSTER_AGENTS ∧
      ∀ entry ∈ rosterMembers resolved, entry.get "id" = .str agentId ∨
        ∃ query, ∃ agent ∈ (view query).agents,
          entry.get "id" = .str agent.id ∧ agent.workspaceId = workspaceId := by
  obtain rfl | ⟨fields, entries, rfl, hentries, before, hbefore, rfl⟩ :=
    resolvedMultiagent_eq_ok hroster hresolved
  · simp [rosterMembers, Json.get]
  · rw [rosterMembers_of_entries hentries, List.map_map]
    refine ⟨by simpa using hbefore.size, fun entry hentry => ?_⟩
    obtain ⟨member, hmember, rfl⟩ := List.mem_map.mp hentry
    rcases hbefore.named member hmember with hself | hfound
    · left
      simp [resolvedEntry, hself, ownEntry, Json.get, Dict.get]
    · by_cases hself : isSelfEntry member = true
      · left
        simp [resolvedEntry, hself, ownEntry, Json.get, Dict.get]
      · right
        simpa [resolvedEntry, hself, Json.get] using hfound

/-! ## Rosters after a commit -/

/-- A pinned roster delegates if its entries name agents of the workspace. -/
theorem delegatedWithin_of_pinned
    {rows : AgentRows} {owner : AgentVersionRow} (hhistory : AgentHistory rows)
    (hagents : ∀ agent ∈ rows.agents, agent.id ≠ "") (howner : owner ∈ rows.versions)
    (hpinned : PinnedRoster rows owner)
    (hnamed : ∀ entry ∈ rosterMembers owner.multiagent,
      entry.get "id" = .str owner.agentId ∨ ∃ agent ∈ rows.agents,
        entry.get "id" = .str agent.id ∧ agent.workspaceId = owner.workspaceId) :
    ∀ entry ∈ rosterMembers owner.multiagent, DelegatedWithin rows owner entry := by
  intro entry hentry
  obtain ⟨referenced, hmem, hrefers, hplain⟩ := hpinned.1 entry hentry
  obtain ⟨agent, hagent, hid, hworkspace⟩ := hhistory.owners referenced hmem
  have hsame : agent.workspaceId = owner.workspaceId := by
    rcases hnamed entry hentry with hown | ⟨found, hfound, hname, hfoundWorkspace⟩
    · obtain ⟨other, hother, hotherId, hotherWorkspace⟩ := hhistory.owners owner howner
      rw [hrefers.2.1, Json.str.injEq] at hown
      rw [List.inj_on_of_nodup_map hhistory.agentIds hagent hother
        (hid.trans (hown.trans hotherId.symm))]
      exact hotherWorkspace
    · rw [hrefers.2.1, Json.str.injEq] at hname
      rw [List.inj_on_of_nodup_map hhistory.agentIds hagent hfound (hid.trans hname)]
      exact hfoundWorkspace
  refine ⟨referenced, hmem, hrefers, hworkspace.symm.trans hsame, ?_, ?_⟩
  · rw [← hid]
    exact hagents agent hagent
  · exact hplain.imp_right And.left

/-- The versions of the rows delegate, and the new one does. -/
theorem Delegations.append
    {current : AgentRows} {agents : List Agent} {version : AgentVersionRow}
    (hcurrent : Delegations current) (hagents : ∀ agent ∈ agents, agent.id ≠ "")
    (hentries : ∀ entry ∈ rosterMembers version.multiagent,
      DelegatedWithin { agents := agents, versions := current.versions ++ [version] }
        version entry)
    (hdistinct : ((rosterMembers version.multiagent).map fun entry =>
      entry.get "id").Nodup)
    (hsize : (rosterMembers version.multiagent).length ≤ MAX_ROSTER_AGENTS) :
    Delegations { agents := agents, versions := current.versions ++ [version] } where
  agentIds := hagents
  entries := by
    intro owner howner entry hentry
    rcases List.mem_append.mp howner with howner | howner
    · exact (hcurrent.entries owner howner entry hentry).mono
        fun _ hmem => List.mem_append_left _ hmem
    · obtain rfl := List.mem_singleton.mp howner
      exact hentries entry hentry
  distinct := by
    intro owner howner
    rcases List.mem_append.mp howner with howner | howner
    · exact hcurrent.distinct owner howner
    · obtain rfl := List.mem_singleton.mp howner
      exact hdistinct
  size := by
    intro owner howner
    rcases List.mem_append.mp howner with howner | howner
    · exact hcurrent.size owner howner
    · obtain rfl := List.mem_singleton.mp howner
      exact hsize

theorem createAgent_inserted
    {py : Python} {context : AgentContext} {body : AgentCreateRequest} {view : AgentView}
    {outcome : AgentOutcome} {current next : AgentRows}
    (houtcome : createAgent py context body view = .ok outcome)
    (hcommit : commitAgents current outcome.statements = some next) :
    ∃ agent, next.agents = current.agents ++ [agent] ∧
      agent.id = "agt_" ++ context.supply.uuidHex 0 ∧
      agent.workspaceId = context.workspaceId := by
  unfold createAgent at houtcome
  simp only [bind_eq_ok] at houtcome
  obtain ⟨name, -, model, -, tools, -, ⟨⟩, -, multiagent, hroster, skills, -,
    metadata, -, houtcome⟩ := houtcome
  obtain ⟨after, resolved, hinsert, -, -, rfl⟩ :=
    commitAgents_resolved (normalizeMultiagentRoster_eq_ok hroster) houtcome hcommit
  simp only [AgentStatement.execute] at hinsert
  split at hinsert
  next => cases hinsert
  next =>
    obtain rfl := Option.some.inj hinsert
    exact ⟨_, rfl, rfl, rfl⟩

theorem AgentCreation.delegations
    {py : Python} {call : AgentCall} {view : AgentView} {current : AgentRows}
    {agent : Agent} {version : AgentVersionRow} (hreads : AgentReads view current)
    (hcurrent : Delegations current)
    (hhistory : AgentHistory
      { agents := current.agents ++ [agent], versions := current.versions ++ [version] })
    (hcreation : AgentCreation py call view current agent version)
    (hid : agent.id ≠ "") (hworkspace : agent.workspaceId = call.context.workspaceId) :
    Delegations
      { agents := current.agents ++ [agent]
        versions := current.versions ++ [version] } := by
  have hpinned := hcreation.pinned hreads
  have hagents : ∀ other ∈ current.agents ++ [agent], other.id ≠ "" := by
    intro other hother
    rcases List.mem_append.mp hother with hother | hother
    · exact hcurrent.agentIds other hother
    · obtain rfl := List.mem_singleton.mp hother
      exact hid
  obtain ⟨body, tools, multiagent, -, -, -, hroster, hresolved, -, -⟩ := hcreation.request
  obtain ⟨hsize, hnamed⟩ :=
    resolved_named (normalizeMultiagentRoster_named hroster) hresolved
  refine hcurrent.append hagents ?_ hpinned.2 hsize
  refine delegatedWithin_of_pinned hhistory hagents (by simp) hpinned ?_
  intro entry hentry
  rcases hnamed entry hentry with hown | ⟨query, found, hfound, hname, hfoundWorkspace⟩
  · left
    rw [hcreation.owner]
    exact hown
  · obtain ⟨later, hlater, hfollows⟩ := (hreads.kept query).agents found hfound
    refine Or.inr ⟨later, List.mem_append_left _ hlater, ?_, ?_⟩
    · rw [hfollows.id]
      exact hname
    · rw [hfollows.workspaceId, hfoundWorkspace, hcreation.workspaceId, hworkspace]

/-- The roster of a merge is taken over or a normalised one. -/
theorem mergedRoster_named
    {py : Python} {context : AgentContext} {held : Agent} {body : AgentUpdateRequest}
    {view : AgentView} {query : ℕ} {update : AgentUpdate} {active : AgentVersionRow}
    {config : AgentConfig}
    (hupdate : normalizeAgentUpdate py context held body view query = .ok update)
    (hconfig : mergeAgentUpdate active update = .ok config) :
    body.multiagent = none ∨
      RosterOf (NamedEntries view context.workspaceId) config.multiagent := by
  simp only [normalizeAgentUpdate, bind_eq_ok, pure_eq_ok] at hupdate
  obtain ⟨multiagent, hroster, skills, -, tools, -, rfl⟩ := hupdate
  simp only [mergeAgentUpdate, bind_eq_ok, pure_eq_ok] at hconfig
  obtain ⟨name, -, model, -, metadata, -, rfl⟩ := hconfig
  cases hbody : body.multiagent with
  | none => exact Or.inl rfl
  | some raw =>
      simp only [hbody, normalizeField, bind_eq_ok, pure_eq_ok] at hroster
      obtain ⟨normalized, hnormalized, rfl⟩ := hroster
      exact Or.inr (normalizeMultiagentRoster_named hnormalized)

theorem exists_updateAgentRow
    {agents : List Agent} {agent : Agent} (agentId : String) (columns : AgentColumns)
    (hagent : agent ∈ agents) :
    ∃ row ∈ updateAgentRow agents agentId columns,
      row.id = agent.id ∧ row.workspaceId = agent.workspaceId := by
  by_cases hid : agent.id = agentId
  · exact ⟨_, mem_updateAgentRow.mpr ⟨agent, hagent, Or.inl ⟨hid, rfl⟩⟩, rfl, rfl⟩
  · exact ⟨agent, mem_updateAgentRow.mpr ⟨agent, hagent, Or.inr ⟨hid, rfl⟩⟩, rfl, rfl⟩

theorem AgentUpdated.delegations
    {py : Python} {call : AgentCall} {view : AgentView} {current : AgentRows}
    {agent : Agent} {active version : AgentVersionRow} {columns : AgentColumns}
    (hreads : AgentReads view current) (hcurrent : Delegations current)
    (hhistory : AgentHistory
      { agents := updateAgentRow current.agents agent.id columns
        versions := current.versions ++ [version] })
    (hupdated : AgentUpdated py call view current agent active version columns) :
    Delegations
      { agents := updateAgentRow current.agents agent.id columns
        versions := current.versions ++ [version] } := by
  obtain ⟨body, -, -, hmerged⟩ := hupdated.request
  obtain ⟨howner, hworkspace, -⟩ := hmerged.fields
  have hagents : ∀ other ∈ updateAgentRow current.agents agent.id columns,
      other.id ≠ "" := by
    intro other hother
    have hids := List.mem_map_of_mem (f := Agent.id) hother
    rw [updateAgentRow_ids] at hids
    obtain ⟨before, hbefore, hsame⟩ := List.mem_map.mp hids
    rw [← hsame]
    exact hcurrent.agentIds before hbefore
  cases hbody : body.multiagent with
  | none =>
      have hsame := hmerged.taken_over hbody
        (hreads.invariant.rosters active hupdated.activeMem)
      refine hcurrent.append hagents ?_
        (hsame ▸ hcurrent.distinct active hupdated.activeMem)
        (hsame ▸ hcurrent.size active hupdated.activeMem)
      intro entry hentry
      rw [hsame] at hentry
      obtain ⟨referenced, hmem, hrefers, hsameWorkspace, hid, hplain⟩ :=
        hcurrent.entries active hupdated.activeMem entry hentry
      exact ⟨referenced, List.mem_append_left _ hmem, hrefers,
        hsameWorkspace.trans hworkspace.symm, hid,
        hplain.imp_right fun hown => hown.trans howner.symm⟩
  | some given =>
      have hpinned := @MergedOnto.pinned _ _ _ _
        (updateAgentRow current.agents agent.id columns) _ _ _ hreads
        (by simp [hbody]) hmerged
      obtain ⟨held, update, config, resolved, hheld, hupdate, hconfig, -, hresolved,
        hversion⟩ := hmerged
      obtain ⟨hheldMem, hheldId, hheldWorkspace⟩ := mustGetAgent_eq_ok hheld
      have hroster := (mergedRoster_named hupdate hconfig).resolve_left (by simp [hbody])
      have hmultiagent : version.multiagent = resolved := by rw [hversion]
      obtain ⟨hsize, hnamed⟩ := resolved_named hroster hresolved
      rw [← hmultiagent] at hsize hnamed
      refine hcurrent.append hagents ?_ hpinned.2 hsize
      refine delegatedWithin_of_pinned hhistory hagents (by simp) hpinned ?_
      intro entry hentry
      rcases hnamed entry hentry with hown |
        ⟨query, found, hfound, hname, hfoundWorkspace⟩
      · left
        rw [howner]
        exact hown
      · right
        obtain ⟨owner, hownerMem, hownerFollows⟩ := (hreads.kept 0).agents held hheldMem
        have hsameOwner : owner = agent :=
          List.inj_on_of_nodup_map hreads.invariant.agentIds hownerMem hupdated.agentMem
            (hownerFollows.id.trans (hheldId.trans hupdated.activeOwner))
        obtain ⟨later, hlater, hfollows⟩ := (hreads.kept query).agents found hfound
        obtain ⟨row, hrow, hrowId, hrowWorkspace⟩ :=
          exists_updateAgentRow agent.id columns hlater
        refine ⟨row, hrow, ?_, ?_⟩
        · rw [hrowId, hfollows.id]
          exact hname
        · calc
            row.workspaceId = found.workspaceId :=
              hrowWorkspace.trans hfollows.workspaceId
            _ = owner.workspaceId :=
              hfoundWorkspace.trans
                (hheldWorkspace.symm.trans hownerFollows.workspaceId.symm)
            _ = active.workspaceId := by rw [hsameOwner, hupdated.activeWorkspace]
            _ = version.workspaceId := hworkspace.symm

theorem AgentCall.delegations
    {py : Python} {call : AgentCall} {view : AgentView} {current next : AgentRows}
    (hreads : AgentReads view current) (hcurrent : Delegations current)
    (hbody : call.body py view current = some next) : Delegations next := by
  have hcommitted := AgentCall.committed hreads hbody
  have hhistory := hcommitted.history hreads.invariant
  cases hcommitted with
  | created agent version hcreation =>
      obtain ⟨body, -, -, hrequest, -⟩ := hcreation.request
      obtain ⟨outcome, houtcome, -, hcommit⟩ := AgentCall.body_eq_some.mp hbody
      rw [AgentCall.handle, hrequest] at houtcome
      obtain ⟨inserted, hagents, hid, hworkspace⟩ := createAgent_inserted houtcome hcommit
      obtain rfl : agent = inserted := by simpa using hagents
      refine hcreation.delegations hreads hcurrent hhistory ?_ hworkspace
      rw [hid]
      exact fun hempty => by simpa using congrArg String.toList hempty
  | updated agent active version columns hupdated =>
      exact hupdated.delegations hreads hcurrent hhistory
  | archived agentId now hrequest =>
      refine ⟨?_, hcurrent.entries, hcurrent.distinct, hcurrent.size⟩
      intro agent hagent
      obtain ⟨before, hbefore, hsame | ⟨-, rfl⟩⟩ := mem_updateAgentRow.mp hagent
      · rw [hsame.2]
        exact hcurrent.agentIds before hbefore
      · exact hcurrent.agentIds agent hbefore

/-! ## Runs -/

/-- A step of the agents keeps the delegations of all committed states. -/
theorem agent_step_delegations
    {py : Python} {world next : AgentWorld} {label : AgentCall × List ℕ}
    (hordered : world.Ordered AgentHistory EarlierAgents)
    (hdelegations : ∀ rows ∈ world.history, Delegations rows)
    (hstep : agentStep py world label = some next) :
    ∀ rows ∈ next.history, Delegations rows := by
  obtain ⟨hages, rfl | ⟨state, hbody, rfl⟩⟩ := step_cases hstep
  · exact hdelegations
  · have hreads := hordered.reads EarlierAgents.refl hages
    exact List.forall_mem_cons.mpr
      ⟨AgentCall.delegations hreads (hdelegations _ List.mem_cons_self) hbody,
        hdelegations⟩

end ManagedAgents
