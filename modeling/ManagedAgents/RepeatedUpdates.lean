import ManagedAgents.AgentValues
import ManagedAgents.MetadataMerges
import ManagedAgents.RepeatedRosters

/-!
# An update sent again

Each field of a body is completed in the same way when the body is sent again, so that
nothing has changed and no version is added.  Only an entry of the roster which stands
for the agent itself in its active version means something else after the first time.
-/

namespace ManagedAgents

open Fallible LabelledRuns ReadCommitted

/-! ## The rows after an update -/

section

variable {py : Python} {context again : AgentContext} {agentId : String}
  {body : AgentUpdateRequest} {rows committed later : AgentRows} {held : Agent}
  {outcome : AgentOutcome}

theorem getAgent_updated
    (rows : AgentRows) (workspaceId other : String) (columns : AgentColumns)
    (versions : List AgentVersionRow) :
    getAgent
        { agents := updateAgentRow rows.agents agentId columns
          versions := versions } workspaceId other =
      (getAgent rows workspaceId other).map fun agent =>
        if agent.id = agentId then columns.write agent else agent := by
  unfold getAgent updateAgentRow
  rw [List.find?_map]
  congr 2
  funext agent
  by_cases hid : agent.id = agentId <;> simp [hid]

theorem getAgentVersion_appended
    (rows : AgentRows) (other workspaceId : String) (number : ℤ) (agents : List Agent)
    (version : AgentVersionRow) :
    getAgentVersion { agents := agents, versions := rows.versions ++ [version] } other
        number workspaceId =
      (getAgentVersion rows other number workspaceId).or
        (getAgentVersion { versions := [version] } other number workspaceId) := by
  unfold getAgentVersion
  rw [List.find?_append]

/-- What an accepted update leaves of the agent: the version that it is answered with is
the active one, and nothing else has changed. -/
structure AfterUpdate (workspaceId agentId : String) (rows committed : AgentRows)
    (held : Agent) (version : AgentVersionRow) : Prop where
  agent : ∃ found, getAgent committed workspaceId agentId = some found ∧
    found.archivedAt = held.archivedAt ∧ found.activeVersion = version.version
  active : getAgentVersion committed agentId version.version workspaceId = some version
  kept : ∀ number row, getAgentVersion rows agentId number workspaceId = some row →
    getAgentVersion committed agentId number workspaceId = some row
  others : ∀ other ≠ agentId, SameAgent workspaceId other rows committed

theorem mustGetAgent_iff
    {workspaceId : String} {agent : Agent} :
    mustGetAgent rows workspaceId agentId = .ok agent ↔
      getAgent rows workspaceId agentId = some agent := by
  unfold mustGetAgent
  cases getAgent rows workspaceId agentId <;> simp

theorem mustGetActiveVersion_iff
    {agent : Agent} {active : AgentVersionRow} :
    mustGetActiveVersion rows agent = .ok active ↔
      getAgentVersion rows agent.id agent.activeVersion agent.workspaceId =
        some active := by
  unfold mustGetActiveVersion getActiveAgentVersion
  cases getAgentVersion rows agent.id agent.activeVersion agent.workspaceId <;> simp

theorem afterUpdate_unchanged
    {workspaceId : String} {active : AgentVersionRow}
    (hheld : getAgent rows workspaceId agentId = some held)
    (hactive : mustGetActiveVersion rows held = .ok active) :
    AfterUpdate workspaceId agentId rows rows held active := by
  obtain ⟨-, rfl, rfl⟩ := getAgent_eq_some hheld
  obtain ⟨-, -, hnumber, -⟩ := mustGetActiveVersion_eq_ok hactive
  refine ⟨⟨held, hheld, rfl, hnumber.symm⟩, ?_, fun _ _ hrow => hrow,
    fun _ _ => ⟨rfl, fun _ => rfl⟩⟩
  rw [hnumber]
  exact mustGetActiveVersion_iff.mp hactive

theorem afterUpdate_changed
    {workspaceId : String} {config : AgentConfig} {version : AgentVersionRow}
    (hheld : getAgent rows workspaceId agentId = some held)
    (howner : version.agentId = agentId) (hworkspace : version.workspaceId = workspaceId)
    (hnumber : version.version = held.activeVersion + 1)
    (hfree : ∀ other ∈ rows.versions, other.agentId = agentId →
      other.version ≠ version.version) :
    AfterUpdate workspaceId agentId rows
      { agents := updateAgentRow rows.agents agentId (changedColumns held config)
        versions := rows.versions ++ [version] } held version := by
  obtain ⟨-, hid, -⟩ := getAgent_eq_some hheld
  constructor
  case agent =>
    refine ⟨(changedColumns held config).write held, ?_, ?_, ?_⟩
    · rw [getAgent_updated, hheld, Option.map_some, if_pos hid]
    · simp [changedColumns, AgentColumns.write]
    · simp [changedColumns, AgentColumns.write, hnumber]
  case active =>
    have hnone : getAgentVersion rows agentId version.version workspaceId = none := by
      rw [← Option.not_isSome_iff_eq_none]
      intro hsome
      obtain ⟨other, hother⟩ := Option.isSome_iff_exists.mp hsome
      obtain ⟨hmem, hotherOwner, hotherNumber, -⟩ := getAgentVersion_eq_some hother
      exact hfree other hmem hotherOwner (by exact_mod_cast hotherNumber)
    rw [getAgentVersion_appended, hnone, Option.none_or]
    simp [getAgentVersion, howner, hworkspace]
  case kept =>
    intro number row hrow
    rw [getAgentVersion_appended, hrow, Option.some_or]
  case others =>
    intro other hother
    constructor
    · rw [getAgent_updated]
      cases hfound : getAgent rows workspaceId other with
      | none => rfl
      | some found =>
          obtain ⟨-, hfoundId, -⟩ := getAgent_eq_some hfound
          rw [Option.map_some, if_neg (hfoundId ▸ hother)]
    · intro number
      rw [getAgentVersion_appended]
      simp [getAgentVersion, howner, Ne.symm hother]

abbrev ResolvedRoster (multiagent : Json) : Prop :=
  RosterOf (fun entries => ∀ entry ∈ entries, isSelfEntry entry = false) multiagent

/-- The version that an update adds, with its roster resolved. -/
def AddedVersion (held : Agent) (config : AgentConfig) (version : AgentVersionRow) :
    Prop :=
  ∃ resolved, resolvedMultiagent config.multiagent held.id (held.activeVersion + 1) =
      .ok resolved ∧
    version =
      { config.toVersion version.id held.workspaceId held.id (held.activeVersion + 1) with
        multiagent := resolved }

/-- An accepted update either leaves the active version, which is equal to the merge, or
adds the merge. -/
theorem updateAgent_left
    (hhistory : AgentHistory rows)
    (haccepted : updateAgent py context agentId body (fun _ => rows) = .ok outcome)
    (hcommitted : commitAgents rows outcome.statements = some committed) :
    ∃ held active update config,
      getAgent rows context.workspaceId agentId = some held ∧ held.archivedAt = none ∧
      active ∈ rows.versions ∧
      normalizeAgentUpdate py context held body (fun _ => rows) 2 = .ok update ∧
      mergeAgentUpdate active update = .ok config ∧
      validateMcpBindings config.mcpServers config.tools = .ok () ∧
      AfterUpdate context.workspaceId agentId rows committed held outcome.version ∧
      ResolvedRoster active.multiagent ∧ ResolvedRoster outcome.version.multiagent ∧
      (configUnchanged active config = true ∧ outcome.version = active ∨
        AddedVersion held config outcome.version) := by
  have harchived : ∀ held, mustGetAgent rows context.workspaceId agentId = .ok held →
      held.archivedAt = none := by
    intro held hheld
    unfold updateAgent at haccepted
    simp only [hheld, bind_eq_ok, raiseIf_eq_ok, ne_eq, not_not, Except.ok.injEq]
      at haccepted
    obtain ⟨_, rfl, -, harchived, -⟩ := haccepted
    exact harchived
  obtain ⟨held, active, update, config, written, hheld, hactive, -, hupdate, hconfig,
    hbindings, hwritten, hresolve⟩ := updateAgent_eq_ok haccepted
  have hfound := mustGetAgent_iff.mp hheld
  obtain ⟨-, hid, hworkspace⟩ := getAgent_eq_some hfound
  obtain ⟨hactiveMem, -⟩ := mustGetActiveVersion_eq_ok hactive
  have hactiveRoster := hhistory.rosters active hactiveMem
  refine ⟨held, active, update, config, hfound, harchived held hheld, hactiveMem, hupdate,
    hconfig, hbindings, ?_⟩
  rcases writeAgentVersion_eq_ok hwritten with ⟨hunchanged, rfl⟩ | ⟨-, rfl⟩
  · obtain ⟨hnothing, hversion⟩ := resolveRoster_unchanged hactiveRoster hresolve
    rw [hnothing] at hcommitted
    cases hcommitted
    rw [hversion]
    exact ⟨afterUpdate_unchanged hfound hactive, hactiveRoster, hactiveRoster,
      Or.inl ⟨hunchanged, rfl⟩⟩
  · obtain ⟨condition, hroster⟩ : ∃ condition, RosterOf condition config.multiagent := by
      rcases mergedRoster hupdate hconfig with ⟨-, hsame⟩ | ⟨-, hroster⟩
      · exact ⟨_, hsame ▸ hactiveRoster⟩
      · exact ⟨_, hroster⟩
    have hversion : ∃ resolved,
        resolvedMultiagent config.multiagent held.id (held.activeVersion + 1) =
          .ok resolved ∧
        outcome.version =
          { nextVersion context.supply held config with multiagent := resolved } := by
      simp only [resolveRoster, bind_eq_ok, pure_eq_ok] at hresolve
      obtain ⟨resolved, hresolved, rfl⟩ := hresolve
      exact ⟨resolved, hresolved, rfl⟩
    have hnextRoster : RosterOf condition
        (nextVersion context.supply held config).multiagent := hroster
    obtain ⟨after, stored, hfirst, hstored, hfree, rfl⟩ :=
      commitAgents_resolved hnextRoster hresolve hcommitted
    cases hfirst
    obtain ⟨resolved, hresolved, hversion⟩ := hversion
    obtain rfl : resolved = stored :=
      Except.ok.inj (hresolved.symm.trans hstored)
    rw [hversion]
    refine ⟨?_, hactiveRoster, resolvedMultiagent_resolved hroster hresolved,
      Or.inr ⟨resolved, hresolved, rfl⟩⟩
    rw [← hid]
    exact afterUpdate_changed (hid.symm ▸ hfound) rfl hworkspace rfl
      fun other hother => (hfree other hother).2

/-! ## Sending the body again -/

/-- No entry of the roster stands for the agent itself in its active version, as `self`
does and an entry without a version. -/
def AgentUpdateRequest.Settled (body : AgentUpdateRequest) (agentId : String) : Prop :=
  ∀ entry, body.HasEntry entry → Dict.get entry "type" ≠ .str "self" ∧
    (Dict.get entry "id" = .str agentId → Dict.get entry "version" ≠ .null)

/-- The second request finds the agent as the first one left it, and the agents and skills
which the body refers to as the first one found them. -/
structure SentAgain (context again : AgentContext) (agentId : String)
    (body : AgentUpdateRequest) (committed later : AgentRows) : Prop where
  workspaceId : again.workspaceId = context.workspaceId
  own : SameAgent context.workspaceId agentId committed later
  agents : ∀ entry other, body.HasEntry entry → Dict.get entry "id" = .str other →
    SameAgent context.workspaceId other committed later
  skills : ∀ skillId query, body.NamesSkill skillId →
    SameSkill context.workspaceId skillId (context.resources query)
      (again.resources query)

theorem getReferencedAgent_own
    {workspaceId : String} {found : Agent}
    (hfound : getAgent rows workspaceId agentId = some found) :
    getReferencedAgent rows workspaceId (some found) agentId = some found := by
  simp [getReferencedAgent, hfound]

theorem getReferencedAgent_other
    {workspaceId other : String} {found : Agent}
    (hfound : getAgent rows workspaceId agentId = some found) (hother : other ≠ agentId) :
    getReferencedAgent rows workspaceId (some found) other =
      getAgent rows workspaceId other := by
  obtain ⟨-, hid, -⟩ := getAgent_eq_some hfound
  unfold getReferencedAgent
  cases hget : getAgent rows workspaceId other with
  | none => rfl
  | some row =>
      obtain ⟨-, hrow, -⟩ := getAgent_eq_some hget
      have hne : found.id ≠ row.id := by
        rw [hid, hrow]
        exact Ne.symm hother
      simp [hne]

variable {version : AgentVersionRow}

/-- An entry that does not stand for the active version of the agent itself is pinned as
before. -/
theorem SentAgain.pinned
    {found : Agent} (hagain : SentAgain context again agentId body committed later)
    (hafter : AfterUpdate context.workspaceId agentId rows committed held version)
    (hheld : getAgent rows context.workspaceId agentId = some held)
    (hfound : getAgent later context.workspaceId agentId = some found)
    (harchived : found.archivedAt = held.archivedAt)
    {entry : Dict} (hentry : body.HasEntry entry)
    (hsettled : Dict.get entry "id" = .str agentId → Dict.get entry "version" ≠ .null)
    (query : ℕ) (seen : List String) (result : String × Dict)
    (hpin : pinRosterEntry py context.workspaceId (some held) (fun _ => rows) query seen
      entry = .ok result) :
    pinRosterEntry py context.workspaceId (some found) (fun _ => later) query seen entry =
      .ok result := by
  refine pinRosterEntry_again (fun other referenced hid hreferenced => ?_) hpin
  have hsame := hagain.agents entry other hentry hid
  by_cases hother : other = agentId
  · subst hother
    rw [getReferencedAgent_own hheld, Option.some.injEq] at hreferenced
    subst hreferenced
    obtain ⟨-, -, hworkspace⟩ := getAgent_eq_some hheld
    obtain ⟨-, -, hfoundWorkspace⟩ := getAgent_eq_some hfound
    refine ⟨found, getReferencedAgent_own hfound, harchived,
      hfoundWorkspace.trans hworkspace.symm, fun hnull => absurd hnull (hsettled hid), ?_⟩
    intro number row hrow
    rw [hworkspace] at hrow ⊢
    rw [hsame.versions]
    exact hafter.kept number row hrow
  · rw [getReferencedAgent_other hheld hother] at hreferenced
    obtain ⟨-, -, hworkspace⟩ := getAgent_eq_some hreferenced
    have hkept := hafter.others other hother
    refine ⟨referenced, ?_, rfl, rfl, fun _ => rfl, fun number row hrow => ?_⟩
    · rw [getReferencedAgent_other hfound hother, hsame.agent, hkept.agent, hreferenced]
    · rw [hworkspace] at hrow ⊢
      rw [hsame.versions, hkept.versions, hrow]

theorem normalizeAgentUpdate_again
    {found : Agent} {update : AgentUpdate} (number : ℤ)
    (hagain : SentAgain context again agentId body committed later)
    (hafter : AfterUpdate context.workspaceId agentId rows committed held version)
    (hheld : getAgent rows context.workspaceId agentId = some held)
    (hfound : getAgent later context.workspaceId agentId = some found)
    (harchived : found.archivedAt = held.archivedAt) (hsettled : body.Settled agentId)
    (hupdate : normalizeAgentUpdate py context held body (fun _ => rows) 2 = .ok update) :
    normalizeAgentUpdate py again found { body with version := number }
      (fun _ => later) 2 = .ok update := by
  obtain ⟨-, hid, -⟩ := getAgent_eq_some hheld
  obtain ⟨-, hfoundId, -⟩ := getAgent_eq_some hfound
  have hself : selfKey (some found) = selfKey (some held) := hfoundId.trans hid.symm
  simp only [normalizeAgentUpdate, bind_eq_ok] at hupdate ⊢
  obtain ⟨multiagent, hroster, skills, hskills, hupdate⟩ := hupdate
  refine ⟨multiagent, ?_, skills, ?_, hupdate⟩
  · cases hbody : body.multiagent with
    | none =>
        rw [hbody] at hroster
        exact hroster
    | some raw =>
        simp only [hbody, normalizeField, bind_eq_ok] at hroster ⊢
        obtain ⟨normalized, hnormalized, hroster⟩ := hroster
        refine ⟨normalized, ?_, hroster⟩
        rw [hagain.workspaceId]
        refine normalizeMultiagentRoster_again hself ?_ hnormalized
        rintro fields items item entry rfl hitems hitem hentry htype
        have hmember : body.HasEntry entry :=
          ⟨fields, items, item, hbody, hitems, hitem, hentry⟩
        exact hagain.pinned hafter hheld hfound harchived hmember
          (hsettled entry hmember).2
  · cases hbody : body.skills with
    | none =>
        rw [hbody] at hskills
        exact hskills
    | some raw =>
        simp only [hbody, normalizeField, bind_eq_ok] at hskills ⊢
        obtain ⟨refs, hrefs, hskills⟩ := hskills
        refine ⟨refs, ?_, hskills⟩
        rw [← hrefs, hagain.workspaceId]
        refine skillRefs_again fun entry hentry skillId query hid => ?_
        refine hagain.skills skillId query ?_
        cases raw with
        | none => simp at hentry
        | some given => exact ⟨given, entry, hbody, hentry, hid⟩

/-! ## Merging the body again -/

theorem mergeField_again
    {Raw Value : Type} {active value : Value} {field : Option Raw}
    {normalize : Raw → Except HTTPException Value}
    (hmerged : mergeField active field normalize = .ok value) :
    mergeField value field normalize = .ok value := by
  cases field with
  | none => rfl
  | some raw => exact hmerged

theorem getD_again
    {Value : Type} (field : Option Value) (active : Value) :
    field.getD (field.getD active) = field.getD active := by
  cases field <;> rfl

/-- The merge is the same if it is made onto a version which it led to. -/
theorem mergeAgentUpdate_again
    {update : AgentUpdate} {active merged : AgentVersionRow} {config : AgentConfig}
    (hpatch : ∀ patch, update.metadata = some (some patch) →
      (patch.map Prod.fst).Nodup)
    (hconfig : mergeAgentUpdate active update = .ok config)
    (hmerged : merged = config.toVersion merged.id merged.workspaceId merged.agentId
      merged.version) :
    mergeAgentUpdate merged update = .ok config := by
  simp only [mergeAgentUpdate, bind_eq_ok, pure_eq_ok] at hconfig ⊢
  obtain ⟨name, hname, model, hmodel, metadata, hmetadata, rfl⟩ := hconfig
  rw [hmerged]
  simp only [AgentConfig.toVersion]
  refine ⟨name, mergeField_again hname, model, mergeField_again hmodel, metadata, ?_, ?_⟩
  · cases hfield : update.metadata with
    | none => rfl
    | some patch =>
        rw [hfield] at hmetadata
        refine mergeMetadata_again (fun fields hfields => ?_) hmetadata
        cases patch with
        | none => cases hfields
        | some given =>
            cases hfields
            exact hpatch _ hfield
  · simp only [getD_again]

theorem AgentVersionRow.Keyed.unchanged
    {config : AgentConfig} (hkeyed : version.Keyed)
    (hversion : version = config.toVersion version.id version.workspaceId version.agentId
      version.version) :
    configUnchanged version config = true := by
  rw [hversion] at hkeyed
  rw [hversion]
  obtain ⟨hmodel, htools, hservers, hskills, hmultiagent, hruntime⟩ := hkeyed
  simp only [AgentConfig.toVersion] at hmodel htools hservers hskills hmultiagent hruntime
  simp [configUnchanged, AgentConfig.toVersion, Json.equal_self, Json.equalItems_self,
    hmodel, htools, hservers, hskills, hmultiagent, hruntime]

/-- A roster without entries for `self` is added as it was merged. -/
theorem AddedVersion.eq_config
    {config : AgentConfig} (hadded : AddedVersion held config version)
    (hroster : ResolvedRoster config.multiagent) :
    version = config.toVersion version.id version.workspaceId version.agentId
      version.version := by
  obtain ⟨resolved, hresolved, hversion⟩ := hadded
  rw [resolvedMultiagent_of_resolved _ _ hroster, Except.ok.injEq] at hresolved
  rw [hversion, ← hresolved]
  rfl

theorem mergedMultiagent
    {view : AgentView} {query : ℕ} {update : AgentUpdate} {active : AgentVersionRow}
    {config : AgentConfig}
    (hupdate : normalizeAgentUpdate py context held body view query = .ok update)
    (hconfig : mergeAgentUpdate active update = .ok config) :
    match body.multiagent with
    | none => config.multiagent = active.multiagent
    | some raw =>
        normalizeMultiagentRoster py context.workspaceId (some held) view query raw =
          .ok config.multiagent := by
  simp only [normalizeAgentUpdate, bind_eq_ok, pure_eq_ok] at hupdate
  obtain ⟨multiagent, hroster, skills, -, tools, -, rfl⟩ := hupdate
  simp only [mergeAgentUpdate, bind_eq_ok, pure_eq_ok] at hconfig
  obtain ⟨name, -, model, -, metadata, -, rfl⟩ := hconfig
  cases hbody : body.multiagent with
  | none =>
      rw [hbody] at hroster
      cases hroster
      rfl
  | some raw =>
      simp only [hbody, normalizeField, bind_eq_ok, pure_eq_ok] at hroster
      obtain ⟨normalized, hnormalized, rfl⟩ := hroster
      exact hnormalized

theorem settled_resolved
    {view : AgentView} {query : ℕ} {update : AgentUpdate} {active : AgentVersionRow}
    {config : AgentConfig} (hactive : ResolvedRoster active.multiagent)
    (hupdate : normalizeAgentUpdate py context held body view query = .ok update)
    (hconfig : mergeAgentUpdate active update = .ok config)
    (hsettled : body.Settled agentId) : ResolvedRoster config.multiagent := by
  have hmultiagent := mergedMultiagent hupdate hconfig
  rcases hbody : body.multiagent with _ | _ | fields
  · rw [hbody] at hmultiagent
    exact hmultiagent ▸ hactive
  · rw [hbody] at hmultiagent
    exact Or.inl (Except.ok.inj hmultiagent).symm
  · rw [hbody] at hmultiagent
    obtain ⟨items, out, hitems, hout, hroster⟩ :=
      normalizeMultiagentRoster_some hmultiagent
    obtain ⟨entries, rfl, -, -⟩ := rosterEntries_eq_ok hout
    refine Or.inr ⟨_, entries, hroster, by simp, fun entry hentry => ?_⟩
    obtain ⟨item, hitem, given, hgiven, ⟨htype, -⟩ | ⟨-, _, _, pinned, hpin, hsame⟩⟩ :=
      (rosterEntries_results hout).2 _ (List.mem_map_of_mem hentry)
    · have hmember : body.HasEntry given :=
        ⟨fields, items, item, hbody, hitems, hitem, hgiven⟩
      exact absurd htype (hsettled given hmember).1
    · rw [Json.dict.inj hsame]
      exact (pinRosterEntry_eq_ok hpin).1.not_self

/-- A settled body is accepted again and changes nothing. -/
theorem settled_again
    (hhistory : AgentHistory rows)
    (haccepted : updateAgent py context agentId body (fun _ => rows) = .ok outcome)
    (hcommitted : commitAgents rows outcome.statements = some committed)
    (hkeyed : outcome.version.Keyed)
    (hpatch : ∀ patch, body.metadata = some (some patch) → (patch.map Prod.fst).Nodup)
    (hagain : SentAgain context again agentId body committed later)
    (hsettled : body.Settled agentId) :
    ∃ answer, updateAgent py again agentId
        { body with version := outcome.version.version } (fun _ => later) = .ok answer ∧
      answer.statements = [] ∧ answer.version = outcome.version := by
  obtain ⟨held, active, update, config, hheld, harchived, -, hupdate, hconfig, hbindings,
    hafter, hactive, hresolved, hleft⟩ := updateAgent_left hhistory haccepted hcommitted
  obtain ⟨found, hfound, hfoundArchived, hnumber⟩ := hafter.agent
  rw [← hagain.own.agent] at hfound
  obtain ⟨-, hfoundId, hfoundWorkspace⟩ := getAgent_eq_some hfound
  have hrow : mustGetActiveVersion later found = .ok outcome.version := by
    rw [mustGetActiveVersion_iff, hfoundId, hfoundWorkspace, hnumber, hagain.own.versions]
    exact hafter.active
  have hupdated := normalizeAgentUpdate_again (outcome.version.version : ℤ) hagain hafter
    hheld hfound hfoundArchived hsettled hupdate
  have hmetadata : update.metadata = body.metadata := by
    simp only [normalizeAgentUpdate, bind_eq_ok, pure_eq_ok] at hupdate
    obtain ⟨-, -, -, -, -, -, rfl⟩ := hupdate
    rfl
  have hmerged : mergeAgentUpdate outcome.version update = .ok config ∧
      configUnchanged outcome.version config = true := by
    rcases hleft with ⟨hunchanged, hsame⟩ | hadded
    · rw [hsame]
      exact ⟨hconfig, hunchanged⟩
    · have hsame := hadded.eq_config (settled_resolved hactive hupdate hconfig hsettled)
      exact ⟨mergeAgentUpdate_again (hmetadata ▸ hpatch) hconfig hsame,
        hkeyed.unchanged hsame⟩
  have hwritten : writeAgentVersion again.supply later found outcome.version config =
      .ok { agent := found, version := outcome.version } := by
    have hsome := mustGetActiveVersion_iff.mp hrow
    unfold writeAgentVersion getActiveAgentVersion
    rw [hsome, if_pos hmerged.2]
    rfl
  have hanswer : resolveRoster { agent := found, version := outcome.version } =
      .ok { agent := found, version := outcome.version } := by
    simp only [resolveRoster, resolvedMultiagent_of_resolved _ _ hresolved, bind_eq_ok,
      pure_eq_ok, Except.ok.injEq]
    exact ⟨_, rfl, by simp⟩
  refine ⟨{ agent := found, version := outcome.version }, ?_, rfl, rfl⟩
  unfold updateAgent
  simp only [bind_eq_ok, raiseIf_eq_ok]
  refine ⟨found, ?_, (), by simpa using hfoundArchived.trans harchived, outcome.version,
    hrow, (), by simpa using hnumber.symm, update, hupdated, config, hmerged.1, (),
    hbindings, _, hwritten, hanswer⟩
  rw [hagain.workspaceId]
  exact mustGetAgent_iff.mpr hfound

/-! ## Bodies which are not settled -/

/-- A roster without entries for `self` is equal to none with such an entry. -/
theorem not_self_of_equal_roster
    {multiagent : Json} {fields entry : Dict} {out : List Json}
    (hkeyed : multiagent.keyed = true) (hresolved : ResolvedRoster multiagent)
    (hequal : Json.equal multiagent (.dict (Dict.set fields "agents" (.list out))) = true)
    (hentry : .dict entry ∈ out) : Dict.get entry "type" ≠ .str "self" := by
  intro hself
  obtain rfl | ⟨stored, entries, rfl, hentries, hplain⟩ := hresolved
  · simp [Json.equal] at hequal
  · have hagents : Json.equalItems (entries.map .dict) out = true := by
      rw [Json.equal, Bool.and_eq_true, Json.equalFields_iff] at hequal
      have hfield :=
        (hequal.2 _ (@Dict.mem_of_get stored "agents" (by simp [hentries]))).2
      simpa [hentries, Json.equal] using hfield
    obtain ⟨item, hitem, hsame⟩ := Json.equalItems_mem hagents hentry
    obtain ⟨given, hgiven, rfl⟩ := List.mem_map.mp hitem
    have hgivenKeyed : (Json.dict given).keyed = true := by
      have hlist := (Json.keyed_dict.mp hkeyed).get "agents"
      rw [hentries, Json.keyed, Json.itemsKeyed_iff] at hlist
      exact hlist _ hitem
    have htype := Json.get_text_of_equal (Json.keyed_dict.mp hgivenKeyed).distinct hsame
      hself
    have hnot := hplain given hgiven
    simp [isSelfEntry, htype] at hnot

/-- An entry for the agent itself without a version is pinned to the active version, which
must have no roster. -/
theorem pinRosterEntry_active
    {workspaceId : String} {found : Agent} {query : ℕ} {seen : List String} {entry : Dict}
    {pinned : String × Dict} {active : AgentVersionRow}
    (hfound : getAgent later workspaceId agentId = some found)
    (hactive : mustGetActiveVersion later found = .ok active)
    (hid : Dict.get entry "id" = .str agentId)
    (hversion : Dict.get entry "version" = .null)
    (hpin : pinRosterEntry py workspaceId (some found) (fun _ => later) query seen entry =
      .ok pinned) : active.multiagent = .null := by
  obtain ⟨-, hfoundId, -⟩ := getAgent_eq_some hfound
  rw [mustGetActiveVersion_iff, hfoundId] at hactive
  unfold pinRosterEntry at hpin
  obtain ⟨named, hnamed, hpin⟩ := bind_eq_ok.mp hpin
  obtain rfl : agentId = named := by
    unfold rosterEntryId at hnamed
    rw [hid] at hnamed
    simp only at hnamed
    split at hnamed
    · cases hnamed
    · exact Except.ok.inj hnamed
  rw [getReferencedAgent_own hfound] at hpin
  simp only [bind_eq_ok, hversion, pinnedVersion, if_true, Except.ok.injEq] at hpin
  obtain ⟨-, -, number, rfl, -, -, hpin⟩ := hpin
  rw [hactive] at hpin
  simp only [bind_eq_ok, raiseIf_eq_ok, ne_eq, not_not] at hpin
  obtain ⟨-, hplain, -⟩ := hpin
  exact hplain

theorem settled_of_again
    {answer : AgentOutcome} {number : ℤ}
    (hresolved : ∀ active,
      (∃ found, getAgent later again.workspaceId agentId = some found ∧
        mustGetActiveVersion later found = .ok active) →
      ResolvedRoster active.multiagent ∧ active.multiagent.keyed = true)
    (hanswer : updateAgent py again agentId { body with version := number }
      (fun _ => later) = .ok answer) (hnothing : answer.statements = []) :
    body.Settled agentId := by
  obtain ⟨found, active, update, config, written, hfound, hactive, -, hupdate, hconfig, -,
    hwritten, hanswer⟩ := updateAgent_eq_ok hanswer
  rw [mustGetAgent_iff] at hfound
  obtain ⟨hplain, hkeyed⟩ := hresolved active ⟨found, hfound, hactive⟩
  have hunchanged : configUnchanged active config = true := by
    rcases writeAgentVersion_eq_ok hwritten with ⟨hunchanged, -⟩ | ⟨-, rfl⟩
    · exact hunchanged
    · simp only [resolveRoster, bind_eq_ok, pure_eq_ok] at hanswer
      obtain ⟨resolved, -, rfl⟩ := hanswer
      simp only at hnothing
      split at hnothing <;> simp at hnothing
  have hequal : Json.equal active.multiagent config.multiagent = true := by
    unfold configUnchanged at hunchanged
    exact (of_decide_eq_true hunchanged).2.2.2.2.2.2.2.2.1
  rintro entry ⟨fields, items, item, hbody, hitems, hitem, hentry⟩
  have hroster := mergedMultiagent hupdate hconfig
  simp only [hbody] at hroster
  obtain ⟨others, out, hothers, hout, hconfigRoster⟩ :=
    normalizeMultiagentRoster_some hroster
  obtain rfl : items = others := Except.ok.inj (hitems.symm.trans hothers)
  rw [hconfigRoster] at hequal
  obtain ⟨result, hresult, given, hgiven, hcase⟩ :=
    (rosterEntries_results hout).1 item hitem
  obtain rfl : entry = given := Except.ok.inj (hentry.symm.trans hgiven)
  rcases hcase with ⟨htype, rfl⟩ | ⟨htype, _, _, pinned, hpin, -⟩
  · exact absurd htype (not_self_of_equal_roster hkeyed hplain hequal hresult)
  · refine ⟨htype, fun hid hversion => ?_⟩
    rw [pinRosterEntry_active hfound hactive hid hversion hpin] at hequal
    simp [Json.equal] at hequal

theorem updateAgent_keyed
    (hhistory : AgentHistory rows) (hrows : ∀ row ∈ rows.versions, row.Keyed)
    (hbody : body.Keyed)
    (haccepted : updateAgent py context agentId body (fun _ => rows) = .ok outcome)
    (hcommitted : commitAgents rows outcome.statements = some committed) :
    outcome.version.Keyed := by
  obtain ⟨held, active, update, config, -, -, hmem, hupdate, hconfig, -, -, hactive, -,
    hleft⟩ := updateAgent_left hhistory haccepted hcommitted
  rcases hleft with ⟨-, hsame⟩ | ⟨resolved, hresolved, hversion⟩
  · exact hsame ▸ hrows active hmem
  · have hkeyed := updateConfig_keyed hbody (hrows active hmem) hupdate hconfig
    have hcolumns : outcome.version = { config.toVersion outcome.version.id
        outcome.version.workspaceId outcome.version.agentId outcome.version.version with
          multiagent := resolved } := by
      rw [hversion]
      rfl
    rcases mergedRoster hupdate hconfig with ⟨-, htaken⟩ | ⟨-, hnormal⟩
    · exact hkeyed.version (htaken ▸ hactive) hresolved hcolumns
    · exact hkeyed.version hnormal hresolved hcolumns

/-- An accepted body that is sent again for the resulting version is answered with that
version and adds none, exactly if its roster names the agent itself neither as `self`
nor without a version. -/
theorem agent_update_idempotent_iff
    {calls : List (AgentCall × List ℕ)} {world : AgentWorld}
    (hcalls : ∀ label ∈ calls, label.1.request.Keyed) (hbody : body.Keyed)
    (hrun : run (agentStep py) AgentWorld.start calls = some world)
    (haccepted : updateAgent py context agentId body (fun _ => world.current) =
      .ok outcome)
    (hcommitted : commitAgents world.current outcome.statements = some committed)
    (hagain : SentAgain context again agentId body committed later) :
    (∃ answer, updateAgent py again agentId
        { body with version := outcome.version.version } (fun _ => later) = .ok answer ∧
      answer.statements = [] ∧ answer.version = outcome.version) ↔
      body.Settled agentId := by
  have hhistory : AgentHistory world.current :=
    (agent_run_ordered hrun).states _ List.mem_cons_self
  have hrows := agent_run_keyed hcalls hrun world.current List.mem_cons_self
  have hkeyed := updateAgent_keyed hhistory hrows hbody haccepted hcommitted
  constructor
  · rintro ⟨answer, hanswer, hnothing, -⟩
    obtain ⟨held, -, -, -, -, -, -, -, -, -, hafter, -, hresolved, -⟩ :=
      updateAgent_left hhistory haccepted hcommitted
    obtain ⟨left, hleft, -, hnumber⟩ := hafter.agent
    refine settled_of_again ?_ hanswer hnothing
    rintro active ⟨found, hfound, hactive⟩
    obtain ⟨-, hfoundId, hfoundWorkspace⟩ := getAgent_eq_some hfound
    rw [hagain.workspaceId] at hfound hfoundWorkspace
    rw [hagain.own.agent, hleft] at hfound
    cases hfound
    rw [mustGetActiveVersion_iff, hfoundId, hfoundWorkspace, hnumber, hagain.own.versions,
      hafter.active] at hactive
    cases hactive
    exact ⟨hresolved, hkeyed.multiagent⟩
  · exact settled_again hhistory haccepted hcommitted hkeyed
      (fun patch hpatch => (hbody.metadata patch hpatch).distinct) hagain

end

/-! ## A sample roster -/

/-- Two agents without rosters. -/
def sampleStaffCalls : List (AgentCall × List ℕ) :=
  [sampleAgentCall "w" (.create { name := "worker", model := .str "sonnet" }),
    sampleAgentCall "l" (.create { name := "lead", model := .str "sonnet" })]

def sampleStaff : AgentWorld :=
  (run (agentStep samplePython) AgentWorld.start sampleStaffCalls).get (by decide)

def sampleAgentContext (tag : String) : AgentContext where
  workspaceId := "wrkspc_default"
  supply := { uuidHex := fun draw => tag ++ toString draw, clock := fun _ => 0 }
  resources := fun _ => []

/-- The roster with one entry. -/
def sampleRosterBody (entry : Json) : AgentUpdateRequest where
  version := 1
  multiagent := some (some [("type", .str "coordinator"), ("agents", .list [entry])])

def sampleUpdated (entry : Json) : Except HTTPException AgentOutcome :=
  updateAgent samplePython (sampleAgentContext "u") "agt_l0" (sampleRosterBody entry)
    (fun _ => sampleStaff.current)

def sampleWorkerUpdate : AgentOutcome :=
  (sampleUpdated (.str "agt_w0")).toOption.get (by decide)

def sampleWorkerRows : AgentRows :=
  (commitAgents sampleStaff.current sampleWorkerUpdate.statements).get (by decide)

theorem sampleStaffCalls_keyed :
    ∀ label ∈ sampleStaffCalls, label.1.request.Keyed := by
  have hcreate :
      ∀ name, AgentCreateRequest.Keyed { name := name, model := .str "sonnet" } := by
    intro name
    constructor <;> simp [Json.keyed, emptyDict_keyed]
  simp only [sampleStaffCalls, List.forall_mem_cons]
  exact ⟨hcreate "worker", hcreate "lead", by simp⟩

theorem sampleRosterBody_keyed
    {entry : Json} (hentry : entry.keyed = true) : (sampleRosterBody entry).Keyed := by
  constructor <;> simp only [sampleRosterBody, reduceCtorEq, false_implies, implies_true,
    Option.some.injEq]
  rintro _ rfl
  exact ⟨by simp, by simp [Json.keyed, Json.itemsKeyed, hentry]⟩

theorem sampleRosterBody_settled :
    (sampleRosterBody (.str "agt_w0")).Settled "agt_l0" := by
  rintro entry ⟨fields, items, item, hfields, hitems, hitem, hentry⟩
  cases hfields
  cases hitems
  obtain rfl := List.mem_singleton.mp hitem
  cases hentry
  decide

theorem sampleWorkerUpdate_accepted :
    sampleUpdated (.str "agt_w0") = .ok sampleWorkerUpdate :=
  eq_ok_get (by decide)

theorem sampleWorkerRows_committed :
    commitAgents sampleStaff.current sampleWorkerUpdate.statements =
      some sampleWorkerRows :=
  (Option.some_get _).symm

theorem sampleSentAgain
    (body : AgentUpdateRequest) (rows : AgentRows) :
    SentAgain (sampleAgentContext "u") (sampleAgentContext "v") "agt_l0" body rows
      rows where
  workspaceId := rfl
  own := ⟨rfl, fun _ => rfl⟩
  agents := fun _ _ _ _ => ⟨rfl, fun _ => rfl⟩
  skills := fun _ _ _ => ⟨rfl, fun _ => rfl⟩

/-- The worker is pinned to the same version when the roster is sent again. -/
theorem sample_worker_roster_again :
    ∃ answer, updateAgent samplePython (sampleAgentContext "v") "agt_l0"
        { sampleRosterBody (.str "agt_w0") with
          version := sampleWorkerUpdate.version.version }
        (fun _ => sampleWorkerRows) = .ok answer ∧
      answer.statements = [] ∧ answer.version = sampleWorkerUpdate.version :=
  (agent_update_idempotent_iff sampleStaffCalls_keyed (sampleRosterBody_keyed rfl)
    (Option.some_get _).symm sampleWorkerUpdate_accepted sampleWorkerRows_committed
    (sampleSentAgain _ _)).mpr sampleRosterBody_settled

/-- The entry for the agent itself. -/
def sampleSelfEntry : Json := .dict [("type", .str "self")]

def sampleSelfUpdate : AgentOutcome :=
  (sampleUpdated sampleSelfEntry).toOption.get (by decide)

def sampleSelfRows : AgentRows :=
  (commitAgents sampleStaff.current sampleSelfUpdate.statements).get (by decide)

theorem self_roster_adds_versions :
    sampleUpdated sampleSelfEntry = .ok sampleSelfUpdate ∧
      commitAgents sampleStaff.current sampleSelfUpdate.statements = some sampleSelfRows ∧
      ∃ answer, updateAgent samplePython (sampleAgentContext "v") "agt_l0"
          { sampleRosterBody sampleSelfEntry with
            version := sampleSelfUpdate.version.version }
          (fun _ => sampleSelfRows) = .ok answer ∧
        answer.statements ≠ [] ∧
        answer.version.version = sampleSelfUpdate.version.version + 1 := by
  refine ⟨eq_ok_get (by decide), (Option.some_get _).symm, _, eq_ok_get (by decide), ?_,
    ?_⟩
  · decide
  · decide

end ManagedAgents
