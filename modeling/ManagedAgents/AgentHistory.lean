import ManagedAgents.AgentSystem
import ManagedAgents.RosterEntries

/-!
# The history of an agent

An agent has one version row for each number up to its active version, in the
order of their inserts, and the agent row repeats what the active version says.
-/

namespace ManagedAgents

open Fallible LabelledRuns ReadCommitted

/-- The version rows of an agent, in the order in which they were inserted. -/
def agentVersions (rows : AgentRows) (agentId : String) : List AgentVersionRow :=
  rows.versions.filter fun version => version.agentId = agentId

/-- The agent row repeats what the version says. -/
structure Repeats (agent : Agent) (version : AgentVersionRow) : Prop where
  name : agent.name = version.name
  description : agent.description = version.description
  metadata : Dict.equal version.metadata agent.metadata = true

structure AgentHistory (rows : AgentRows) : Prop where
  agentIds : (rows.agents.map Agent.id).Nodup
  versionIds : (rows.versions.map fun version => version.id).Nodup
  numbers : ∀ agent ∈ rows.agents,
    ((agentVersions rows agent.id).map fun version => version.version) =
      List.range' 1 agent.activeVersion
  active : ∀ agent ∈ rows.agents, 1 ≤ agent.activeVersion
  owners : ∀ version ∈ rows.versions, ∃ agent ∈ rows.agents,
    agent.id = version.agentId ∧ agent.workspaceId = version.workspaceId
  copies : ∀ agent ∈ rows.agents, ∀ version ∈ rows.versions,
    version.agentId = agent.id → version.version = agent.activeVersion →
      Repeats agent version
  rosters : ∀ version ∈ rows.versions,
    RosterOf (fun entries => ∀ entry ∈ entries, isSelfEntry entry = false)
      version.multiagent

/-! ## Later states -/

/-- What a later row of the same agent says. -/
structure AgentFollows (agent later : Agent) : Prop where
  id : later.id = agent.id
  workspaceId : later.workspaceId = agent.workspaceId
  activeVersion : agent.activeVersion ≤ later.activeVersion
  same : later.activeVersion = agent.activeVersion →
    later.name = agent.name ∧ later.description = agent.description ∧
      later.metadata = agent.metadata

/-- Every version row is still there as it was. -/
structure EarlierAgents (older newer : AgentRows) : Prop where
  versions : ∀ version ∈ older.versions, version ∈ newer.versions
  agents : ∀ agent ∈ older.agents, ∃ later ∈ newer.agents, AgentFollows agent later

theorem AgentFollows.refl (agent : Agent) : AgentFollows agent agent where
  id := rfl
  workspaceId := rfl
  activeVersion := le_rfl
  same := fun _ => ⟨rfl, rfl, rfl⟩

theorem AgentFollows.trans
    {first second third : Agent} (hfirst : AgentFollows first second)
    (hsecond : AgentFollows second third) : AgentFollows first third where
  id := hsecond.id.trans hfirst.id
  workspaceId := hsecond.workspaceId.trans hfirst.workspaceId
  activeVersion := hfirst.activeVersion.trans hsecond.activeVersion
  same := by
    intro hsame
    have hmiddle : second.activeVersion = first.activeVersion :=
      le_antisymm (hsecond.activeVersion.trans hsame.le) hfirst.activeVersion
    obtain ⟨hname, hdescription, hmetadata⟩ := hfirst.same hmiddle
    obtain ⟨hname', hdescription', hmetadata'⟩ := hsecond.same (hsame.trans hmiddle.symm)
    exact ⟨hname'.trans hname, hdescription'.trans hdescription,
      hmetadata'.trans hmetadata⟩

theorem EarlierAgents.refl (rows : AgentRows) : EarlierAgents rows rows where
  versions := fun _ hversion => hversion
  agents := fun agent hagent => ⟨agent, hagent, AgentFollows.refl agent⟩

theorem EarlierAgents.trans
    (first second third : AgentRows) (hfirst : EarlierAgents first second)
    (hsecond : EarlierAgents second third) : EarlierAgents first third where
  versions := fun version hversion =>
    hsecond.versions version (hfirst.versions version hversion)
  agents := by
    intro agent hagent
    obtain ⟨middle, hmiddle, hfollows⟩ := hfirst.agents agent hagent
    obtain ⟨later, hlater, hfollows'⟩ := hsecond.agents middle hmiddle
    exact ⟨later, hlater, hfollows.trans hfollows'⟩

/-! ## Rows found -/

theorem getAgent_eq_some
    {rows : AgentRows} {workspaceId agentId : String} {agent : Agent}
    (hagent : getAgent rows workspaceId agentId = some agent) :
    agent ∈ rows.agents ∧ agent.id = agentId ∧ agent.workspaceId = workspaceId := by
  have hfound := List.find?_some hagent
  simp only [decide_eq_true_eq] at hfound
  exact ⟨List.mem_of_find?_eq_some hagent, hfound⟩

theorem getAgentVersion_eq_some
    {rows : AgentRows} {agentId workspaceId : String} {number : ℤ}
    {version : AgentVersionRow}
    (hversion : getAgentVersion rows agentId number workspaceId = some version) :
    version ∈ rows.versions ∧ version.agentId = agentId ∧
      (version.version : ℤ) = number ∧ version.workspaceId = workspaceId := by
  have hfound := List.find?_some hversion
  simp only [decide_eq_true_eq] at hfound
  exact ⟨List.mem_of_find?_eq_some hversion, hfound⟩

theorem mustGetAgent_eq_ok
    {rows : AgentRows} {workspaceId agentId : String} {agent : Agent}
    (hagent : mustGetAgent rows workspaceId agentId = .ok agent) :
    agent ∈ rows.agents ∧ agent.id = agentId ∧ agent.workspaceId = workspaceId := by
  unfold mustGetAgent at hagent
  split at hagent
  next found hfound =>
    cases hagent
    exact getAgent_eq_some hfound
  next => cases hagent

theorem mustGetActiveVersion_eq_ok
    {rows : AgentRows} {agent : Agent} {version : AgentVersionRow}
    (hversion : mustGetActiveVersion rows agent = .ok version) :
    version ∈ rows.versions ∧ version.agentId = agent.id ∧
      version.version = agent.activeVersion ∧
      version.workspaceId = agent.workspaceId := by
  unfold mustGetActiveVersion at hversion
  split at hversion
  next found hfound =>
    cases hversion
    obtain ⟨hmem, hagent, hnumber, hworkspace⟩ := getAgentVersion_eq_some hfound
    exact ⟨hmem, hagent, by exact_mod_cast hnumber, hworkspace⟩
  next => cases hversion

theorem mem_agentVersions
    {rows : AgentRows} {agentId : String} {version : AgentVersionRow} :
    version ∈ agentVersions rows agentId ↔
      version ∈ rows.versions ∧ version.agentId = agentId := by
  simp [agentVersions]

theorem AgentHistory.exists_version
    {rows : AgentRows} (hhistory : AgentHistory rows) {agent : Agent}
    (hagent : agent ∈ rows.agents) {number : ℕ} (hpos : 1 ≤ number)
    (hle : number ≤ agent.activeVersion) :
    ∃ version ∈ rows.versions, version.agentId = agent.id ∧ version.version = number := by
  have hmem : number ∈ List.range' 1 agent.activeVersion :=
    List.mem_range'_1.mpr ⟨hpos, by omega⟩
  rw [← hhistory.numbers agent hagent] at hmem
  obtain ⟨version, hversion, hnumber⟩ := List.mem_map.mp hmem
  obtain ⟨hrow, hid⟩ := mem_agentVersions.mp hversion
  exact ⟨version, hrow, hid, hnumber⟩

theorem AgentHistory.version_le
    {rows : AgentRows} (hhistory : AgentHistory rows) {agent : Agent}
    (hagent : agent ∈ rows.agents) {version : AgentVersionRow}
    (hversion : version ∈ rows.versions) (hid : version.agentId = agent.id) :
    1 ≤ version.version ∧ version.version ≤ agent.activeVersion := by
  have hmem : version.version ∈ List.range' 1 agent.activeVersion := by
    rw [← hhistory.numbers agent hagent]
    exact List.mem_map_of_mem (mem_agentVersions.mpr ⟨hversion, hid⟩)
  rw [List.mem_range'_1] at hmem
  omega

/-- The number of a version determines its row. -/
theorem AgentHistory.version_unique
    {rows : AgentRows} (hhistory : AgentHistory rows) {first second : AgentVersionRow}
    (hfirst : first ∈ rows.versions) (hsecond : second ∈ rows.versions)
    (hagent : first.agentId = second.agentId) (hnumber : first.version = second.version) :
    first = second := by
  obtain ⟨owner, howner, hid, -⟩ := hhistory.owners first hfirst
  have hnodup :
      ((agentVersions rows owner.id).map fun version => version.version).Nodup := by
    rw [hhistory.numbers owner howner]
    exact List.nodup_range'
  exact List.inj_on_of_nodup_map hnodup (mem_agentVersions.mpr ⟨hfirst, hid.symm⟩)
    (mem_agentVersions.mpr ⟨hsecond, hagent.symm.trans hid.symm⟩) hnumber

/-! ## Statements -/

@[simp] theorem AgentColumns.write_id (columns : AgentColumns) (agent : Agent) :
    (columns.write agent).id = agent.id := rfl

@[simp] theorem AgentColumns.write_workspaceId (columns : AgentColumns) (agent : Agent) :
    (columns.write agent).workspaceId = agent.workspaceId := rfl

theorem updateAgentRow_ids
    (agents : List Agent) (agentId : String) (columns : AgentColumns) :
    (updateAgentRow agents agentId columns).map Agent.id = agents.map Agent.id := by
  unfold updateAgentRow
  rw [List.map_map]
  apply List.map_congr_left
  intro agent _
  by_cases hid : agent.id = agentId <;> simp [hid]

theorem mem_updateAgentRow
    {agents : List Agent} {agentId : String} {columns : AgentColumns} {later : Agent} :
    later ∈ updateAgentRow agents agentId columns ↔
      ∃ agent ∈ agents, (agent.id = agentId ∧ later = columns.write agent) ∨
        (agent.id ≠ agentId ∧ later = agent) := by
  unfold updateAgentRow
  rw [List.mem_map]
  apply exists_congr
  intro agent
  apply and_congr_right
  intro _
  by_cases hid : agent.id = agentId <;> simp [hid, eq_comm]

theorem updateRosterColumn_append
    {versions : List AgentVersionRow} {version : AgentVersionRow} {multiagent : Json}
    (hfresh : ∀ other ∈ versions, other.id ≠ version.id) :
    updateRosterColumn (versions ++ [version]) version.id multiagent =
      versions ++ [{ version with multiagent := multiagent }] := by
  unfold updateRosterColumn
  rw [List.map_append, List.map_congr_left (g := id) ?_, List.map_id]
  · simp
  · intro other hother
    simp [hfresh other hother]

theorem commitAgents_cons
    {rows next : AgentRows} {statement : AgentStatement} {rest : List AgentStatement} :
    commitAgents rows (statement :: rest) = some next ↔
      ∃ after, statement.execute rows = some after ∧
        commitAgents after rest = some next := by
  unfold commitAgents
  rw [List.foldlM_cons]
  exact Option.bind_eq_some_iff

theorem execute_insertVersion
    {rows after : AgentRows} {version : AgentVersionRow} :
    AgentStatement.execute rows (.insertVersion version) = some after ↔
      (∀ other ∈ rows.versions, other.id ≠ version.id ∧
        (other.agentId = version.agentId → other.version ≠ version.version)) ∧
        after = { rows with versions := rows.versions ++ [version] } := by
  have hfree : rows.versions.any (versionConflicts version) = false ↔
      ∀ other ∈ rows.versions, other.id ≠ version.id ∧
        (other.agentId = version.agentId → other.version ≠ version.version) := by
    rw [List.any_eq_false]
    apply forall₂_congr
    intro other _
    simp only [versionConflicts, decide_eq_true_eq, not_or, not_and, ne_eq,
      @eq_comm _ version.id, @eq_comm _ version.agentId, @eq_comm _ version.version]
  cases hany : rows.versions.any (versionConflicts version) with
  | true =>
      rw [hany] at hfree
      simp only [AgentStatement.execute, hany, if_true]
      refine iff_of_false (by simp) fun hboth => ?_
      exact absurd (hfree.mpr hboth.1) (by simp)
  | false =>
      simp only [AgentStatement.execute, hany, Bool.false_eq_true, if_false,
        Option.some.injEq]
      exact (and_iff_right (hfree.mp hany)).symm.trans
        (and_congr_right fun _ => eq_comm)

/-- The insert of a version with the assignment of its resolved roster. -/
theorem commitAgents_resolved
    {condition : List Dict → Prop} {rows next : AgentRows} {outcome : AgentOutcome}
    {first : AgentStatement} {version : AgentVersionRow} {agent : Agent}
    (hroster : RosterOf condition version.multiagent)
    (houtcome : resolveRoster
      { statements := [first, .insertVersion version], agent := agent,
        version := version } = .ok outcome)
    (hcommit : commitAgents rows outcome.statements = some next) :
    ∃ after resolved, first.execute rows = some after ∧
      resolvedMultiagent version.multiagent agent.id version.version = .ok resolved ∧
      (∀ other ∈ after.versions, other.id ≠ version.id ∧
        (other.agentId = version.agentId → other.version ≠ version.version)) ∧
      next = { after with
        versions := after.versions ++ [{ version with multiagent := resolved }] } := by
  simp only [resolveRoster, bind_eq_ok, pure_eq_ok] at houtcome
  obtain ⟨resolved, hresolved, rfl⟩ := houtcome
  simp only at hcommit
  split at hcommit
  next hsame =>
    have hequal : resolved = version.multiagent := by
      rcases hsame with hsame | hsame
      · exact hsame
      · exact resolvedMultiagent_of_equal hroster hresolved hsame
    obtain ⟨after, hfirst, hcommit⟩ := commitAgents_cons.mp hcommit
    obtain ⟨inserted, hinsert, hcommit⟩ := commitAgents_cons.mp hcommit
    obtain ⟨hfree, rfl⟩ := execute_insertVersion.mp hinsert
    cases hcommit
    exact ⟨after, resolved, hfirst, hresolved, hfree, by rw [hequal]⟩
  next =>
    obtain ⟨after, hfirst, hcommit⟩ := commitAgents_cons.mp hcommit
    obtain ⟨inserted, hinsert, hcommit⟩ := commitAgents_cons.mp hcommit
    obtain ⟨hfree, rfl⟩ := execute_insertVersion.mp hinsert
    obtain ⟨updated, hupdate, hcommit⟩ := commitAgents_cons.mp hcommit
    cases hupdate
    cases hcommit
    refine ⟨after, resolved, hfirst, hresolved, hfree, ?_⟩
    rw [updateRosterColumn_append fun other hother => (hfree other hother).1]

/-! ## Writes which keep the history -/

theorem agentVersions_append
    (rows : AgentRows) (agents : List Agent) (version : AgentVersionRow)
    (agentId : String) :
    agentVersions { agents := agents, versions := rows.versions ++ [version] } agentId =
      agentVersions rows agentId ++ if version.agentId =
        agentId then [version] else [] := by
  simp [agentVersions, List.filter_append, List.filter_singleton]

theorem AgentHistory.addAgent
    {rows : AgentRows} (hhistory : AgentHistory rows) {agent : Agent}
    {version : AgentVersionRow} (hfresh : ∀ other ∈ rows.agents, other.id ≠ agent.id)
    (hversionFresh : ∀ other ∈ rows.versions, other.id ≠ version.id)
    (hactive : agent.activeVersion = 1) (hnumber : version.version = 1)
    (howner : version.agentId = agent.id)
    (hworkspace : version.workspaceId = agent.workspaceId)
    (hrepeats : Repeats agent version)
    (hroster : RosterOf (fun entries => ∀ entry ∈ entries, isSelfEntry entry = false)
      version.multiagent) :
    AgentHistory
      { agents := rows.agents ++ [agent], versions := rows.versions ++ [version] } := by
  have hnone : ∀ other ∈ rows.versions, other.agentId ≠ agent.id := by
    intro other hother hsame
    obtain ⟨found, hfound, hid, -⟩ := hhistory.owners other hother
    exact hfresh found hfound (hid.trans hsame)
  have hempty : agentVersions rows agent.id = [] := by
    unfold agentVersions
    rw [List.filter_eq_nil_iff]
    intro other hother
    simpa using hnone other hother
  constructor
  · rw [List.map_append, List.nodup_append]
    refine ⟨hhistory.agentIds, List.nodup_singleton _, ?_⟩
    intro id hid other hother
    obtain ⟨found, hfound, rfl⟩ := List.mem_map.mp hid
    obtain rfl := List.mem_singleton.mp hother
    exact hfresh found hfound
  · rw [List.map_append, List.nodup_append]
    refine ⟨hhistory.versionIds, List.nodup_singleton _, ?_⟩
    intro id hid other hother
    obtain ⟨found, hfound, rfl⟩ := List.mem_map.mp hid
    obtain rfl := List.mem_singleton.mp hother
    exact hversionFresh found hfound
  · intro other hother
    rw [agentVersions_append, howner]
    rcases List.mem_append.mp hother with hother | hother
    · rw [if_neg (hfresh other hother).symm, List.append_nil]
      exact hhistory.numbers other hother
    · obtain rfl := List.mem_singleton.mp hother
      simp [hempty, hactive, hnumber]
  · intro other hother
    rcases List.mem_append.mp hother with hother | hother
    · exact hhistory.active other hother
    · obtain rfl := List.mem_singleton.mp hother
      exact hactive.ge
  · intro other hother
    rcases List.mem_append.mp hother with hother | hother
    · obtain ⟨found, hfound, hid, hspace⟩ := hhistory.owners other hother
      exact ⟨found, List.mem_append_left _ hfound, hid, hspace⟩
    · obtain rfl := List.mem_singleton.mp hother
      exact ⟨agent, by simp, howner.symm, hworkspace.symm⟩
  · intro owner hownerMem other hother hid hactiveNumber
    rcases List.mem_append.mp hownerMem with hold | hnew
    · rcases List.mem_append.mp hother with hother | hother
      · exact hhistory.copies owner hold other hother hid hactiveNumber
      · obtain rfl := List.mem_singleton.mp hother
        exact absurd (hid.symm.trans howner) (hfresh owner hold)
    · obtain rfl := List.mem_singleton.mp hnew
      rcases List.mem_append.mp hother with hother | hother
      · exact absurd hid (hnone other hother)
      · obtain rfl := List.mem_singleton.mp hother
        exact hrepeats
  · intro other hother
    rcases List.mem_append.mp hother with hother | hother
    · exact hhistory.rosters other hother
    · obtain rfl := List.mem_singleton.mp hother
      exact hroster

theorem AgentHistory.addVersion
    {rows : AgentRows} (hhistory : AgentHistory rows) {agent : Agent}
    {version : AgentVersionRow} {columns : AgentColumns} (hagent : agent ∈ rows.agents)
    (hversionFresh : ∀ other ∈ rows.versions, other.id ≠ version.id)
    (hactive : (columns.write agent).activeVersion = agent.activeVersion + 1)
    (hnumber : version.version = agent.activeVersion + 1)
    (howner : version.agentId = agent.id)
    (hworkspace : version.workspaceId = agent.workspaceId)
    (hrepeats : Repeats (columns.write agent) version)
    (hroster : RosterOf (fun entries => ∀ entry ∈ entries, isSelfEntry entry = false)
      version.multiagent) :
    AgentHistory
      { agents := updateAgentRow rows.agents agent.id columns
        versions := rows.versions ++ [version] } := by
  have hwritten : ∀ later ∈ updateAgentRow rows.agents agent.id columns,
      later = columns.write agent ∨ later.id ≠ agent.id ∧ later ∈ rows.agents := by
    intro later hlater
    obtain ⟨other, hother, ⟨hid, rfl⟩ | ⟨hid, rfl⟩⟩ := mem_updateAgentRow.mp hlater
    · obtain rfl := List.inj_on_of_nodup_map hhistory.agentIds hother hagent hid
      exact Or.inl rfl
    · exact Or.inr ⟨hid, hother⟩
  constructor
  · rw [updateAgentRow_ids]
    exact hhistory.agentIds
  · rw [List.map_append, List.nodup_append]
    refine ⟨hhistory.versionIds, List.nodup_singleton _, ?_⟩
    intro id hid other hother
    obtain ⟨found, hfound, rfl⟩ := List.mem_map.mp hid
    obtain rfl := List.mem_singleton.mp hother
    exact hversionFresh found hfound
  · intro later hlater
    rw [agentVersions_append, howner]
    rcases hwritten later hlater with rfl | ⟨hid, hother⟩
    · have hnumbers := hhistory.numbers agent hagent
      rw [AgentColumns.write_id, if_pos rfl, List.map_append, hnumbers, hactive,
        List.range'_concat]
      simp [hnumber, Nat.add_comm]
    · rw [if_neg hid.symm, List.append_nil]
      exact hhistory.numbers later hother
  · intro later hlater
    rcases hwritten later hlater with rfl | ⟨-, hother⟩
    · rw [hactive]
      exact Nat.le_add_left _ _
    · exact hhistory.active later hother
  · intro other hother
    rcases List.mem_append.mp hother with hother | hother
    · obtain ⟨found, hfound, hid, hspace⟩ := hhistory.owners other hother
      by_cases hsame : found.id = agent.id
      · exact ⟨columns.write found,
          mem_updateAgentRow.mpr ⟨found, hfound, Or.inl ⟨hsame, rfl⟩⟩, hid, hspace⟩
      · exact ⟨found, mem_updateAgentRow.mpr ⟨found, hfound, Or.inr ⟨hsame, rfl⟩⟩,
          hid, hspace⟩
    · obtain rfl := List.mem_singleton.mp hother
      exact ⟨columns.write agent,
        mem_updateAgentRow.mpr ⟨agent, hagent, Or.inl ⟨rfl, rfl⟩⟩, howner.symm,
        hworkspace.symm⟩
  · intro later hlater other hother hid hactiveNumber
    rcases hwritten later hlater with rfl | ⟨hne, hlater⟩
    · rcases List.mem_append.mp hother with hother | hother
      · have hle := (hhistory.version_le hagent hother hid).2
        rw [hactiveNumber, hactive] at hle
        omega
      · obtain rfl := List.mem_singleton.mp hother
        exact hrepeats
    · rcases List.mem_append.mp hother with hother | hother
      · exact hhistory.copies later hlater other hother hid hactiveNumber
      · obtain rfl := List.mem_singleton.mp hother
        exact absurd (hid.symm.trans howner) hne
  · intro other hother
    rcases List.mem_append.mp hother with hother | hother
    · exact hhistory.rosters other hother
    · obtain rfl := List.mem_singleton.mp hother
      exact hroster

theorem mem_updateAgentRow_archived
    {agents : List Agent} {agentId : String} {now : Time} {later : Agent}
    (hlater : later ∈ updateAgentRow agents agentId { archivedAt := some now }) :
    ∃ agent ∈ agents, later.id = agent.id ∧ later.workspaceId = agent.workspaceId ∧
      later.activeVersion = agent.activeVersion ∧ later.name = agent.name ∧
      later.description = agent.description ∧ later.metadata = agent.metadata := by
  obtain ⟨agent, hagent, ⟨-, rfl⟩ | ⟨-, rfl⟩⟩ := mem_updateAgentRow.mp hlater
  · exact ⟨agent, hagent, rfl, rfl, rfl, rfl, rfl, rfl⟩
  · exact ⟨later, hagent, rfl, rfl, rfl, rfl, rfl, rfl⟩

theorem AgentHistory.archive
    {rows : AgentRows} (hhistory : AgentHistory rows) (agentId : String) (now : Time) :
    AgentHistory
      { rows with
        agents := updateAgentRow rows.agents agentId { archivedAt := some now } } where
  agentIds := by
    rw [updateAgentRow_ids]
    exact hhistory.agentIds
  versionIds := hhistory.versionIds
  numbers := by
    intro later hlater
    obtain ⟨agent, hagent, hid, -, hactive, -⟩ := mem_updateAgentRow_archived hlater
    rw [hid, hactive]
    exact hhistory.numbers agent hagent
  active := by
    intro later hlater
    obtain ⟨agent, hagent, -, -, hactive, -⟩ := mem_updateAgentRow_archived hlater
    rw [hactive]
    exact hhistory.active agent hagent
  owners := by
    intro version hversion
    obtain ⟨agent, hagent, hid, hworkspace⟩ := hhistory.owners version hversion
    by_cases hsame : agent.id = agentId
    · exact ⟨_, mem_updateAgentRow.mpr ⟨agent, hagent, Or.inl ⟨hsame, rfl⟩⟩, hid,
        hworkspace⟩
    · exact ⟨agent, mem_updateAgentRow.mpr ⟨agent, hagent, Or.inr ⟨hsame, rfl⟩⟩, hid,
        hworkspace⟩
  copies := by
    intro later hlater version hversion hid hactiveNumber
    obtain ⟨agent, hagent, hsame, -, hactive, hname, hdescription, hmetadata⟩ :=
      mem_updateAgentRow_archived hlater
    have hrepeats := hhistory.copies agent hagent version hversion (hid.trans hsame)
      (hactiveNumber.trans hactive)
    exact ⟨hname.trans hrepeats.name, hdescription.trans hrepeats.description,
      hmetadata ▸ hrepeats.metadata⟩
  rosters := hhistory.rosters

end ManagedAgents
