import ManagedAgents.AgentVersions
import ManagedAgents.DictEquality

/-!
# The values in the columns of agents

The dictionaries in a body have distinct keys.  Completing a configuration keeps them
distinct, so that the columns of all committed versions have distinct keys too.
-/

namespace ManagedAgents

open Fallible LabelledRuns ReadCommitted

/-! ## Bodies and columns -/

/-- The dictionaries in the body have distinct keys. -/
structure AgentCreateRequest.Keyed (body : AgentCreateRequest) : Prop where
  model : body.model.keyed = true
  tools : ∀ tool ∈ body.tools, Dict.Keyed tool
  mcpServers : ∀ server ∈ body.mcpServers, Dict.Keyed server
  multiagent : ∀ fields, body.multiagent = some fields → Dict.Keyed fields
  runtime : Dict.Keyed body.runtime

/-- The dictionaries in the fields that are set have distinct keys. -/
structure AgentUpdateRequest.Keyed (body : AgentUpdateRequest) : Prop where
  model : ∀ model, body.model = some model → model.keyed = true
  tools : ∀ tools, body.tools = some (some tools) → ∀ tool ∈ tools, Dict.Keyed tool
  mcpServers : ∀ servers, body.mcpServers = some (some servers) →
    ∀ server ∈ servers, Dict.Keyed server
  multiagent : ∀ fields, body.multiagent = some (some fields) → Dict.Keyed fields
  metadata : ∀ patch, body.metadata = some (some patch) → Dict.Keyed patch
  runtime : ∀ runtime, body.runtime = some (some runtime) → Dict.Keyed runtime

def AgentRequest.Keyed : AgentRequest → Prop
  | .create body => body.Keyed
  | .update _ body => body.Keyed
  | .archive _ => True

/-- The dictionaries in the columns have distinct keys. -/
structure AgentVersionRow.Keyed (version : AgentVersionRow) : Prop where
  model : version.model.keyed = true
  tools : Json.itemsKeyed version.tools = true
  mcpServers : Json.itemsKeyed version.mcpServers = true
  skills : Json.itemsKeyed version.skills = true
  multiagent : version.multiagent.keyed = true
  runtime : version.runtime.keyed = true

/-! ## Models and tools -/

theorem itemsKeyed_dicts
    {items : List Dict} (hitems : ∀ item ∈ items, Dict.Keyed item) :
    Json.itemsKeyed (items.map .dict) = true := by
  rw [Json.itemsKeyed_iff, List.forall_mem_map]
  exact fun item hitem => Json.keyed_dict.mpr (hitems item hitem)

theorem normalizeAgentModel_keyed
    {value model : Json} (hvalue : value.keyed = true)
    (hmodel : normalizeAgentModel value = .ok model) : model.keyed = true := by
  unfold normalizeAgentModel at hmodel
  split at hmodel
  · split at hmodel
    · cases hmodel
    · cases hmodel
      rfl
  next fields =>
    split at hmodel
    · split at hmodel
      · cases hmodel
      · simp only [bind_eq_ok, pure_eq_ok] at hmodel
        obtain ⟨-, -, rfl⟩ := hmodel
        exact Json.keyed_dict.mpr ((Json.keyed_dict.mp hvalue).set "id" rfl)
    · cases hmodel
  · cases hmodel

theorem normalizeToolConfig_keyed
    {config enabled result : Json} {policy : Dict} {requireName : Bool}
    (hconfig : config.keyed = true) (henabled : enabled.keyed = true)
    (hpolicy : Dict.Keyed policy)
    (hresult : normalizeToolConfig config enabled policy requireName = .ok result) :
    result.keyed = true := by
  unfold normalizeToolConfig at hresult
  split at hresult
  next fields =>
    rw [Json.keyed_dict] at hconfig
    have hnormalized : Dict.Keyed (if Dict.get fields "enabled" = .null then
        Dict.set fields "enabled" enabled else fields) := by
      split
      · exact hconfig.set "enabled" henabled
      · exact hconfig
    generalize (if Dict.get fields "enabled" = .null then
      Dict.set fields "enabled" enabled else fields) = normalized at hresult hnormalized
    split at hresult
    · cases hresult
    · simp only at hresult
      split at hresult
      · cases hresult
        exact Json.keyed_dict.mpr hnormalized
      · cases hresult
        exact Json.keyed_dict.mpr
          (hnormalized.set "permission_policy" (Json.keyed_dict.mpr hpolicy))
  · cases hresult

theorem toolConfigEntries_keyed
    {configs : Json} {entries : List Json} (hconfigs : configs.keyed = true)
    (hentries : toolConfigEntries configs = .ok entries) :
    ∀ entry ∈ entries, entry.keyed = true := by
  unfold toolConfigEntries at hentries
  split at hentries
  · cases hentries
    exact Json.itemsKeyed_iff.mp hconfigs
  · cases hentries
  · split at hentries
    · cases hentries
      simp
    · cases hentries
  · split at hentries
    · cases hentries
    · cases hentries
      simp

theorem emptyDict_keyed : Dict.Keyed [] := ⟨List.nodup_nil, by simp⟩

theorem normalizeToolset_keyed
    {tool result : Dict} {policyType : String} (htool : Dict.Keyed tool)
    (hresult : normalizeToolset tool policyType = .ok result) : Dict.Keyed result := by
  simp only [normalizeToolset, bind_eq_ok, pure_eq_ok] at hresult
  obtain ⟨default, hdefault, entries, hentries, configs, hconfigs, rfl⟩ := hresult
  have hdefaultKeyed : default.keyed = true := by
    refine normalizeToolConfig_keyed ?_ rfl ⟨by simp, by simp [Json.keyed]⟩ hdefault
    rw [Json.keyed_dict]
    split
    next fields hfields => exact Json.keyed_dict.mp (hfields ▸ htool.get "default_config")
    next => exact emptyDict_keyed
  have hget : ∀ key, (default.get key).keyed = true := by
    intro key
    cases default with
    | dict fields => exact (Json.keyed_dict.mp hdefaultKeyed).get key
    | null | bool | int | float | str | list => rfl
  have hnormalized := htool.set "default_config" hdefaultKeyed
  refine hnormalized.set "configs" ?_
  rw [Json.keyed, Json.itemsKeyed_iff]
  intro config hconfig
  obtain ⟨entry, hentry, hconfig⟩ := (mem_of_mapM hconfigs).mp hconfig
  refine normalizeToolConfig_keyed
    (toolConfigEntries_keyed (hnormalized.get "configs") hentries entry hentry)
    (hget "enabled") ?_ hconfig
  split
  next fields hfields => exact Json.keyed_dict.mp (hfields ▸ hget "permission_policy")
  next => exact emptyDict_keyed

theorem normalizeCustomTool_keyed
    {tool result : Dict} (htool : Dict.Keyed tool)
    (hresult : normalizeCustomTool tool = .ok result) : Dict.Keyed result := by
  have hdescribed :=
    fun text => htool.set "description" (rfl : (Json.str text).keyed = true)
  unfold normalizeCustomTool at hresult
  simp only [bind, Except.bind, pure, Except.pure, throw, throwThe,
    MonadExceptOf.throw] at hresult
  split at hresult
  · split at hresult
    · cases hresult
    · split at hresult
      · cases hresult
      · split at hresult
        · split at hresult
          · split at hresult
            · exact Except.ok.inj hresult ▸ hdescribed _
            · cases hresult
          · exact Except.ok.inj hresult ▸ (hdescribed _).set "input_schema" (by decide)
        · split at hresult
          · cases hresult
          · split at hresult
            · cases hresult
            · split at hresult
              · split at hresult
                · exact Except.ok.inj hresult ▸ htool
                · cases hresult
              · exact Except.ok.inj hresult ▸ htool.set "input_schema" (by decide)
        · cases hresult
  · cases hresult

theorem normalizeAgentTools_keyed
    {py : Python} {tools : List Dict} {result : List Json}
    (htools : ∀ tool ∈ tools, Dict.Keyed tool)
    (hresult : normalizeAgentTools py (.list (tools.map .dict)) = .ok result) :
    Json.itemsKeyed result = true := by
  simp only [normalizeAgentTools, bind_eq_ok, pure_eq_ok] at hresult
  obtain ⟨normalized, hnormalized, -, -, rfl⟩ := hresult
  rw [Json.itemsKeyed_iff]
  intro tool htool
  obtain ⟨given, hgiven, htool⟩ := (mem_of_mapM hnormalized).mp htool
  obtain ⟨fields, hfields, rfl⟩ := List.mem_map.mp hgiven
  have hkeyed := htools fields hfields
  simp only [normalizeAgentTool] at htool
  split at htool
  · simp only [bind_eq_ok, pure_eq_ok] at htool
    obtain ⟨normal, hnormal, rfl⟩ := htool
    exact Json.keyed_dict.mpr (normalizeToolset_keyed hkeyed hnormal)
  · obtain ⟨normal, hnormal, htool⟩ := bind_eq_ok.mp htool
    split at htool
    · split at htool
      · cases htool
      · cases htool
        exact Json.keyed_dict.mpr (normalizeToolset_keyed hkeyed hnormal)
    · cases htool
  · simp only [bind_eq_ok, pure_eq_ok] at htool
    obtain ⟨normal, hnormal, rfl⟩ := htool
    exact Json.keyed_dict.mpr (normalizeCustomTool_keyed hkeyed hnormal)
  · cases htool
    exact Json.keyed_dict.mpr hkeyed

/-! ## Skills and rosters -/

theorem skillRefs_keyed
    {py : Python} {workspaceId : String} {resources : ℕ → List Resource} {query : ℕ}
    {seen : List (String × String × String)} {skills : List Dict} {refs : List Json}
    (hrefs : skillRefs py workspaceId resources query seen skills = .ok refs) :
    ∀ ref ∈ refs, ref.keyed = true := by
  induction skills generalizing query seen refs with
  | nil =>
      cases hrefs
      simp
  | cons entry rest ih =>
      simp only [skillRefs, bind_eq_ok] at hrefs
      obtain ⟨key, -, hrefs⟩ := hrefs
      split at hrefs
      · exact ih hrefs
      · simp only [bind_eq_ok, pure_eq_ok] at hrefs
        obtain ⟨tail, htail, rfl⟩ := hrefs
        exact List.forall_mem_cons.mpr ⟨rfl, ih htail⟩

section

variable {py : Python} {workspaceId : String} {self : Option Agent} {view : AgentView}
  {query : ℕ}

theorem pinRosterEntry_keyed
    {seen : List String} {entry : Dict} {pinned : String × Dict}
    (hentry : Dict.Keyed entry)
    (hpin : pinRosterEntry py workspaceId self view query seen entry = .ok pinned) :
    Dict.Keyed pinned.2 := by
  unfold pinRosterEntry at hpin
  obtain ⟨agentId, -, hpin⟩ := bind_eq_ok.mp hpin
  split at hpin
  next => cases hpin
  next referenced hreferenced =>
    simp only [bind_eq_ok] at hpin
    obtain ⟨-, -, number, -, -, -, hpin⟩ := hpin
    split at hpin
    next => cases hpin
    next version hversion =>
      simp only [bind_eq_ok, pure_eq_ok] at hpin
      obtain ⟨-, -, -, -, rfl⟩ := hpin
      exact ((hentry.set "type" rfl).set "id" rfl).set "version" rfl

theorem rosterEntry_keyed
    {item : Json} {entry : Dict} (hitem : item.keyed = true)
    (hentry : rosterEntry item = .ok entry) : Dict.Keyed entry := by
  unfold rosterEntry at hentry
  split at hentry
  · cases hentry
    exact ⟨by simp, by simp [Json.keyed]⟩
  · cases hentry
    exact Json.keyed_dict.mp hitem
  · cases hentry

theorem rosterEntries_keyed
    {seen : List String} {sawSelf : Bool} {items out : List Json}
    (hitems : ∀ item ∈ items, item.keyed = true)
    (hentries : rosterEntries py workspaceId self view query seen sawSelf items =
      .ok out) : ∀ result ∈ out, result.keyed = true := by
  induction items generalizing query seen sawSelf out with
  | nil =>
      cases hentries
      simp
  | cons item rest ih =>
      rw [List.forall_mem_cons] at hitems
      simp only [rosterEntries, bind_eq_ok] at hentries
      obtain ⟨entry, hentry, hentries⟩ := hentries
      have hkeyed := rosterEntry_keyed hitems.1 hentry
      split at hentries
      · simp only [bind_eq_ok, pure_eq_ok] at hentries
        obtain ⟨-, -, -, -, tail, htail, rfl⟩ := hentries
        exact List.forall_mem_cons.mpr ⟨Json.keyed_dict.mpr hkeyed, ih hitems.2 htail⟩
      · simp only [bind_eq_ok, pure_eq_ok] at hentries
        obtain ⟨-, -, pinned, hpin, tail, htail, rfl⟩ := hentries
        exact List.forall_mem_cons.mpr
          ⟨Json.keyed_dict.mpr (pinRosterEntry_keyed hkeyed hpin), ih hitems.2 htail⟩

theorem rosterAgents_keyed
    {fields : Dict} {items : List Json} (hfields : Dict.Keyed fields)
    (hitems : rosterAgents fields = .ok items) : ∀ item ∈ items, item.keyed = true := by
  unfold rosterAgents at hitems
  split at hitems
  · split at hitems
    next hget =>
      cases hitems
      have hlist := hfields.get "agents"
      rwa [hget, Json.keyed, Json.itemsKeyed_iff] at hlist
    next => cases hitems
  · cases hitems
    simp

theorem normalizeMultiagentRoster_keyed
    {multiagent : Option Dict} {normalized : Json}
    (hmultiagent : ∀ fields, multiagent = some fields → Dict.Keyed fields)
    (hnormalized : normalizeMultiagentRoster py workspaceId self view query multiagent =
      .ok normalized) : normalized.keyed = true := by
  unfold normalizeMultiagentRoster at hnormalized
  cases multiagent with
  | none =>
      cases hnormalized
      rfl
  | some fields =>
      have hfields := hmultiagent fields rfl
      simp only [bind_eq_ok, pure_eq_ok] at hnormalized
      obtain ⟨-, -, items, hitems, -, -, -, -, out, hout, rfl⟩ := hnormalized
      have hlist : (Json.list out).keyed = true := by
        rw [Json.keyed, Json.itemsKeyed_iff]
        exact rosterEntries_keyed (rosterAgents_keyed hfields hitems) hout
      exact Json.keyed_dict.mpr (hfields.set "agents" hlist)

end

theorem resolvedMultiagent_keyed
    {condition : List Dict → Prop} {multiagent resolved : Json} {agentId : String}
    {version : ℕ} (hroster : RosterOf condition multiagent)
    (hmultiagent : multiagent.keyed = true)
    (hresolved : resolvedMultiagent multiagent agentId version = .ok resolved) :
    resolved.keyed = true := by
  obtain rfl | ⟨fields, entries, rfl, hentries, -⟩ := hroster
  · cases hresolved
    rfl
  · rw [resolvedMultiagent_of_entries agentId version hentries, Except.ok.injEq]
      at hresolved
    subst hresolved
    rw [Json.keyed_dict] at hmultiagent
    refine Json.keyed_dict.mpr (hmultiagent.set "agents" ?_)
    rw [Json.keyed]
    refine itemsKeyed_dicts fun entry hentry => ?_
    obtain ⟨given, hgiven, rfl⟩ := List.mem_map.mp hentry
    have hlist := hmultiagent.get "agents"
    rw [hentries, Json.keyed, Json.itemsKeyed_iff, List.forall_mem_map] at hlist
    unfold resolvedEntry
    split
    · exact ⟨by simp [ownEntry], by simp [ownEntry, Json.keyed]⟩
    · exact Json.keyed_dict.mp (hlist given hgiven)

/-! ## Configurations -/

/-- The configuration as a version has distinct keys. -/
def AgentConfig.Keyed (config : AgentConfig) : Prop :=
  (config.toVersion "" "" "" 0).Keyed

theorem updateConfig_keyed
    {py : Python} {context : AgentContext} {held : Agent} {body : AgentUpdateRequest}
    {view : AgentView} {query : ℕ} {update : AgentUpdate} {active : AgentVersionRow}
    {config : AgentConfig} (hbody : body.Keyed) (hactive : active.Keyed)
    (hupdate : normalizeAgentUpdate py context held body view query = .ok update)
    (hconfig : mergeAgentUpdate active update = .ok config) : config.Keyed := by
  simp only [normalizeAgentUpdate, bind_eq_ok, pure_eq_ok] at hupdate
  obtain ⟨multiagent, hroster, skills, hskills, tools, htools, rfl⟩ := hupdate
  simp only [mergeAgentUpdate, bind_eq_ok, pure_eq_ok] at hconfig
  obtain ⟨name, -, model, hmodel, metadata, -, rfl⟩ := hconfig
  constructor
  case model =>
    cases hfield : body.model with
    | none =>
        rw [hfield] at hmodel
        cases hmodel
        exact hactive.model
    | some given =>
        rw [hfield] at hmodel
        exact normalizeAgentModel_keyed (hbody.model given hfield) hmodel
  case tools =>
    cases hfield : body.tools with
    | none =>
        rw [hfield] at htools
        cases htools
        exact hactive.tools
    | some given =>
        simp only [hfield, normalizeField, bind_eq_ok, pure_eq_ok] at htools
        obtain ⟨normalized, hnormalized, rfl⟩ := htools
        refine normalizeAgentTools_keyed (fun tool htool => ?_) hnormalized
        cases given with
        | none => simp at htool
        | some list => exact hbody.tools list hfield tool htool
  case mcpServers =>
    rcases hfield : body.mcpServers with _ | _ | servers
    · simpa [AgentConfig.toVersion, hfield] using hactive.mcpServers
    · simp [AgentConfig.toVersion, Json.itemsKeyed]
    · simpa [AgentConfig.toVersion, hfield] using
        itemsKeyed_dicts (hbody.mcpServers servers hfield)
  case skills =>
    cases hfield : body.skills with
    | none =>
        rw [hfield] at hskills
        cases hskills
        exact hactive.skills
    | some given =>
        simp only [hfield, normalizeField, bind_eq_ok, pure_eq_ok] at hskills
        obtain ⟨refs, hrefs, rfl⟩ := hskills
        exact Json.itemsKeyed_iff.mpr (skillRefs_keyed hrefs)
  case multiagent =>
    cases hfield : body.multiagent with
    | none =>
        rw [hfield] at hroster
        cases hroster
        exact hactive.multiagent
    | some given =>
        simp only [hfield, normalizeField, bind_eq_ok, pure_eq_ok] at hroster
        obtain ⟨normalized, hnormalized, rfl⟩ := hroster
        refine normalizeMultiagentRoster_keyed (fun fields hfields => ?_) hnormalized
        exact hbody.multiagent fields (hfields ▸ hfield)
  case runtime =>
    rcases hfield : body.runtime with _ | _ | runtime
    · simpa [AgentConfig.toVersion, hfield] using hactive.runtime
    · simp [AgentConfig.toVersion, Json.keyed, Json.fieldsKeyed]
    · simpa [AgentConfig.toVersion, hfield] using
        Json.keyed_dict.mpr (hbody.runtime runtime hfield)

/-- The version of a configuration with its roster resolved. -/
theorem AgentConfig.Keyed.version
    {condition : List Dict → Prop} {config : AgentConfig} {agentId : String}
    {number : ℕ} {resolved : Json} {version : AgentVersionRow} (hconfig : config.Keyed)
    (hroster : RosterOf condition config.multiagent)
    (hresolved : resolvedMultiagent config.multiagent agentId number = .ok resolved)
    (hversion : version =
      { config.toVersion version.id version.workspaceId version.agentId
      version.version with multiagent := resolved }) : version.Keyed := by
  obtain ⟨hmodel, htools, hservers, hskills, hmultiagent, hruntime⟩ := hconfig
  rw [hversion]
  exact ⟨hmodel, htools, hservers, hskills,
    resolvedMultiagent_keyed hroster hmultiagent hresolved, hruntime⟩

theorem MergedOnto.keyed
    {py : Python} {call : AgentCall} {view : AgentView} {body : AgentUpdateRequest}
    {active version : AgentVersionRow} (hbody : body.Keyed) (hactive : active.Keyed)
    (hroster : RosterOf (fun entries => ∀ entry ∈ entries, isSelfEntry entry = false)
      active.multiagent)
    (hmerged : MergedOnto py call view body active version) : version.Keyed := by
  obtain ⟨held, update, config, resolved, -, hupdate, hconfig, -, hresolved, hversion⟩ :=
    hmerged
  have hkeyed := updateConfig_keyed hbody hactive hupdate hconfig
  have hsame : version = { config.toVersion version.id version.workspaceId version.agentId
      version.version with multiagent := resolved } := by
    rw [hversion]
    rfl
  rcases mergedRoster hupdate hconfig with ⟨-, htaken⟩ | ⟨-, hnormal⟩
  · exact hkeyed.version (htaken ▸ hroster) hresolved hsame
  · exact hkeyed.version hnormal hresolved hsame

theorem createAgent_keyed
    {py : Python} {context : AgentContext} {body : AgentCreateRequest} {view : AgentView}
    {current next : AgentRows} {outcome : AgentOutcome} (hbody : body.Keyed)
    (hcurrent : ∀ version ∈ current.versions, version.Keyed)
    (houtcome : createAgent py context body view = .ok outcome)
    (hcommit : commitAgents current outcome.statements = some next) :
    ∀ version ∈ next.versions, version.Keyed := by
  unfold createAgent at houtcome
  simp only [bind_eq_ok] at houtcome
  obtain ⟨name, -, model, hmodel, tools, htools, ⟨⟩, -, multiagent, hroster, skills,
    hskills, metadata, -, houtcome⟩ := houtcome
  have hnormal := normalizeMultiagentRoster_eq_ok hroster
  obtain ⟨after, resolved, hinsert, hresolved, -, rfl⟩ :=
    commitAgents_resolved hnormal houtcome hcommit
  simp only [AgentStatement.execute] at hinsert
  split at hinsert
  next => cases hinsert
  next =>
    obtain rfl := Option.some.inj hinsert
    intro version hversion
    rcases List.mem_append.mp hversion with hversion | hversion
    · exact hcurrent version hversion
    · obtain rfl := List.mem_singleton.mp hversion
      exact
        { model := normalizeAgentModel_keyed hbody.model hmodel
          tools := normalizeAgentTools_keyed hbody.tools htools
          mcpServers := itemsKeyed_dicts hbody.mcpServers
          skills := Json.itemsKeyed_iff.mpr (skillRefs_keyed hskills)
          multiagent := resolvedMultiagent_keyed hnormal
            (normalizeMultiagentRoster_keyed hbody.multiagent hroster) hresolved
          runtime := Json.keyed_dict.mpr hbody.runtime }

/-! ## Runs -/

theorem AgentCall.keyed
    {py : Python} {call : AgentCall} {view : AgentView} {current next : AgentRows}
    (hreads : AgentReads view current) (hrequest : call.request.Keyed)
    (hcurrent : ∀ version ∈ current.versions, version.Keyed)
    (hbody : call.body py view current = some next) :
    ∀ version ∈ next.versions, version.Keyed := by
  obtain ⟨outcome, houtcome, -, hcommit⟩ := AgentCall.body_eq_some.mp hbody
  cases AgentCall.committed hreads hbody with
  | created agent first hcreation =>
      obtain ⟨body, -, -, hcreate, -⟩ := hcreation.request
      rw [AgentCall.handle, hcreate] at houtcome
      rw [hcreate] at hrequest
      exact createAgent_keyed hrequest hcurrent houtcome hcommit
  | updated agent active added columns hupdated =>
      obtain ⟨body, hupdate, -, hmerged⟩ := hupdated.request
      rw [hupdate] at hrequest
      intro version hversion
      rcases List.mem_append.mp hversion with hversion | hversion
      · exact hcurrent version hversion
      · obtain rfl := List.mem_singleton.mp hversion
        exact hmerged.keyed hrequest (hcurrent active hupdated.activeMem)
          (hreads.invariant.rosters active hupdated.activeMem)
  | archived => exact hcurrent

/-- The columns of all committed versions have distinct keys. -/
theorem agent_run_keyed
    {py : Python} {calls : List (AgentCall × List ℕ)} {last : AgentWorld}
    (hcalls : ∀ label ∈ calls, label.1.request.Keyed)
    (hrun : run (agentStep py) AgentWorld.start calls = some last) :
    ∀ rows ∈ last.history, ∀ version ∈ rows.versions, version.Keyed := by
  have hkeeps : ∀ (world : AgentWorld) (label : AgentCall × List ℕ) (next : AgentWorld),
      (world.Ordered AgentHistory EarlierAgents ∧
        ∀ rows ∈ world.history, ∀ version ∈ rows.versions, version.Keyed) →
      label ∈ calls → agentStep py world label = some next →
      next.Ordered AgentHistory EarlierAgents ∧
        ∀ rows ∈ next.history, ∀ version ∈ rows.versions, version.Keyed := by
    rintro world label next ⟨hordered, hkeyed⟩ hlabel hstep
    refine ⟨agent_step_ordered hordered hstep, ?_⟩
    obtain ⟨hages, rfl | ⟨state, hbody, rfl⟩⟩ := step_cases hstep
    · exact hkeyed
    · refine List.forall_mem_cons.mpr ⟨?_, hkeyed⟩
      exact AgentCall.keyed (hordered.reads EarlierAgents.refl hages)
        (hcalls label hlabel)
        (hkeyed _ List.mem_cons_self) hbody
  have hstart : ∀ rows ∈ AgentWorld.start.history, ∀ version ∈ rows.versions,
      version.Keyed := by
    simp [Timeline.history, AgentWorld.start]
  exact (run_invariant_of_allSteps hkeeps ⟨AgentWorld.start_ordered, hstart⟩
    (allSteps_mem _ _) hrun).2

end ManagedAgents
