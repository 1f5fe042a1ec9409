import ManagedAgents.AgentVersions

/-!
# Well-formed tool configurations

What the two checks of a configuration guarantee, the one of the tools and the
one of their bindings to MCP servers, and that all versions of agents meet it.
-/

namespace ManagedAgents

open Fallible LabelledRuns ReadCommitted

def isMcpToolset (tool : Json) : Prop := tool.get "type" = .str "mcp_toolset"

/-- The tools are few enough and the custom ones have different names. -/
structure LimitedTools (tools : List Json) : Prop where
  count : (tools.map agentToolCount).sum ≤ MAX_AGENT_TOOLS
  customNames :
    ((tools.filter fun tool => tool.get "type" = .str "custom").map
      fun tool => tool.get "name").Nodup

/-- The servers are few enough, have different names, and are those which the
toolsets name. -/
structure BoundServers (mcpServers tools : List Json) : Prop where
  count : mcpServers.length ≤ 20
  names : (mcpServers.map fun server => server.get "name").Nodup
  declared : ∀ tool ∈ tools, isMcpToolset tool →
    ∃ server ∈ mcpServers, server.get "name" = tool.get "mcp_server_name"
  referenced : ∀ server ∈ mcpServers,
    ∃ tool ∈ tools, isMcpToolset tool ∧ tool.get "mcp_server_name" = server.get "name"

structure WellFormedTools (tools mcpServers : List Json) : Prop where
  limited : LimitedTools tools
  bound : BoundServers mcpServers tools

/-! ## The checks of the tools -/

theorem firstDuplicate_eq_none
    {seen names : List String} (hnone : firstDuplicate seen names = none) :
    names.Nodup ∧ ∀ name ∈ names, name ∉ seen := by
  induction names generalizing seen with
  | nil => simp
  | cons name rest ih =>
      unfold firstDuplicate at hnone
      split at hnone
      next => cases hnone
      next hfresh =>
        obtain ⟨hnodup, hseen⟩ := ih hnone
        refine ⟨List.nodup_cons.mpr ⟨?_, hnodup⟩, ?_⟩
        · exact fun hmem => hseen name hmem List.mem_cons_self
        · refine List.forall_mem_cons.mpr ⟨hfresh, ?_⟩
          exact fun other hother hmem =>
            hseen other hother (List.mem_cons_of_mem _ hmem)

theorem normalizeAgentTools_limited
    {py : Python} {raw : Json} {tools : List Json}
    (htools : normalizeAgentTools py raw = .ok tools) : LimitedTools tools := by
  unfold normalizeAgentTools at htools
  split at htools
  next items =>
    simp only [bind_eq_ok, pure_eq_ok] at htools
    obtain ⟨normalized, -, ⟨⟩, hlimits, rfl⟩ := htools
    unfold validateAgentToolLimits at hlimits
    split at hlimits
    next => cases hlimits
    next hcount =>
      split at hlimits
      next => cases hlimits
      next hnone =>
        refine ⟨not_lt.mp hcount, ?_⟩
        have hnames := (firstDuplicate_eq_none hnone).1
        apply List.Nodup.of_map fun name : Json => py.str (name.or (.str ""))
        rw [List.map_map]
        exact hnames
  next => cases htools

/-! ## The check of the bindings -/

theorem mcpServerNames_cons
    {server : Json} {servers : List Json} {names result : List String}
    (hnames : mcpServerNames names (server :: servers) = .ok result) :
    ∃ name, server.get "name" = .str name ∧ name ∉ names ∧
      mcpServerNames (names ++ [name]) servers = .ok result := by
  unfold mcpServerNames at hnames
  split at hnames
  next fields =>
    split at hnames
    next => cases hnames
    next =>
      split at hnames
      next _ _ name hname =>
        split at hnames
        next => cases hnames
        next =>
          split at hnames
          next address =>
            split at hnames
            next => cases hnames
            next =>
              split at hnames
              next => cases hnames
              next hfresh => exact ⟨name, hname, hfresh, hnames⟩
          next => cases hnames
      next => cases hnames
  next => cases hnames

theorem mcpServerNames_eq_ok
    {servers : List Json} {names result : List String} (hdistinct : names.Nodup)
    (hnames : mcpServerNames names servers = .ok result) :
    result.Nodup ∧ result.map Json.str =
      names.map Json.str ++ servers.map fun server => server.get "name" := by
  induction servers generalizing names with
  | nil =>
      cases hnames
      exact ⟨hdistinct, (List.append_nil _).symm⟩
  | cons server rest ih =>
      obtain ⟨name, hname, hfresh, hrest⟩ := mcpServerNames_cons hnames
      have hmore : (names ++ [name]).Nodup :=
        List.nodup_append.mpr ⟨hdistinct, List.nodup_singleton _, by
          rintro other hother _ hsame rfl
          rw [List.mem_singleton] at hsame
          exact hfresh (hsame ▸ hother)⟩
      obtain ⟨hnodup, hmap⟩ := ih hmore hrest
      refine ⟨hnodup, ?_⟩
      rw [hmap, List.map_append, List.map_singleton, List.map_cons, hname,
        List.append_assoc]
      rfl

/-- A name is referenced before, or by one of the toolsets, all of which name
servers. -/
theorem mcpToolRefs_eq_ok
    {serverNames refs result : List String} {tools : List Json}
    (hrefs : mcpToolRefs serverNames refs tools = .ok result) :
    (∀ tool ∈ tools, isMcpToolset tool →
      ∃ name ∈ serverNames, tool.get "mcp_server_name" = .str name) ∧
      ∀ name ∈ result, name ∈ refs ∨ ∃ tool ∈ tools, isMcpToolset tool ∧
        tool.get "mcp_server_name" = .str name := by
  induction tools generalizing refs with
  | nil =>
      cases hrefs
      exact ⟨by simp, fun name hname => Or.inl hname⟩
  | cons tool rest ih =>
      unfold mcpToolRefs at hrefs
      split at hrefs
      next hother =>
        obtain ⟨hdeclared, hresult⟩ := ih hrefs
        refine ⟨List.forall_mem_cons.mpr ⟨fun htool => absurd htool hother, hdeclared⟩,
          ?_⟩
        intro name hname
        refine (hresult name hname).imp_right ?_
        rintro ⟨found, hfound, hnamed⟩
        exact ⟨found, List.mem_cons_of_mem _ hfound, hnamed⟩
      next htype =>
        rw [ne_eq, not_not] at htype
        split at hrefs
        next serverName hserver =>
          split at hrefs
          next => cases hrefs
          next =>
            split at hrefs
            next hknown =>
              obtain ⟨hdeclared, hresult⟩ := ih hrefs
              refine ⟨List.forall_mem_cons.mpr
                ⟨fun _ => ⟨serverName, hknown, hserver⟩, hdeclared⟩, ?_⟩
              intro name hname
              rcases hresult name hname with hseen | ⟨found, hfound, hnamed⟩
              · rcases List.mem_cons.mp hseen with rfl | hseen
                · exact Or.inr ⟨tool, List.mem_cons_self, htype, hserver⟩
                · exact Or.inl hseen
              · exact Or.inr ⟨found, List.mem_cons_of_mem _ hfound, hnamed⟩
            next => cases hrefs
        next => cases hrefs

theorem validateMcpBindings_bound
    {mcpServers tools : List Json}
    (hbindings : validateMcpBindings mcpServers tools = .ok ()) :
    BoundServers mcpServers tools := by
  unfold validateMcpBindings at hbindings
  split at hbindings
  next => cases hbindings
  next hcount =>
    simp only [bind_eq_ok] at hbindings
    obtain ⟨serverNames, hnames, toolRefs, hrefs, hall⟩ := hbindings
    obtain ⟨hnodup, hmap⟩ := mcpServerNames_eq_ok List.nodup_nil hnames
    rw [List.map_nil, List.nil_append] at hmap
    obtain ⟨hdeclared, hresult⟩ := mcpToolRefs_eq_ok hrefs
    have hreferenced : ∀ name ∈ serverNames, name ∈ toolRefs := by
      by_cases hnone : (serverNames.filter fun name => name ∉ toolRefs) = []
      · rw [List.filter_eq_nil_iff] at hnone
        intro name hname
        simpa using hnone name hname
      · rw [if_pos hnone] at hall
        cases hall
    have hserver : ∀ name, name ∈ serverNames ↔
        ∃ server ∈ mcpServers, server.get "name" = .str name := by
      intro name
      rw [← List.mem_map, ← hmap]
      exact (List.mem_map_of_injective fun _ _ => Json.str.inj).symm
    refine ⟨not_lt.mp hcount, ?_, ?_, ?_⟩
    · rw [← hmap]
      exact hnodup.map fun _ _ => Json.str.inj
    · intro tool htool hmcp
      obtain ⟨name, hname, hnamed⟩ := hdeclared tool htool hmcp
      obtain ⟨server, hmem, hsame⟩ := (hserver name).mp hname
      exact ⟨server, hmem, hsame.trans hnamed.symm⟩
    · intro server hmem
      have hnamed : server.get "name" ∈ serverNames.map Json.str := by
        rw [hmap]
        exact List.mem_map_of_mem hmem
      obtain ⟨name, hname, hsame⟩ := List.mem_map.mp hnamed
      rcases hresult name (hreferenced name hname) with hnone | ⟨tool, htool, hmcp, href⟩
      · exact absurd hnone List.not_mem_nil
      · exact ⟨tool, htool, hmcp, href.trans hsame⟩

/-! ## Versions of agents -/

def ToolsWellFormed (rows : AgentRows) : Prop :=
  ∀ version ∈ rows.versions, WellFormedTools version.tools version.mcpServers

/-- A merge checks the tools which are given and the bindings of all. -/
theorem MergedOnto.wellFormed
    {py : Python} {call : AgentCall} {view : AgentView} {body : AgentUpdateRequest}
    {active version : AgentVersionRow}
    (hmerged : MergedOnto py call view body active version)
    (hactive : LimitedTools active.tools) :
    WellFormedTools version.tools version.mcpServers := by
  obtain ⟨held, update, config, resolved, -, hupdate, hconfig, hbindings, -, hversion⟩ :=
    hmerged
  have htools : version.tools = config.tools := by rw [hversion]; rfl
  have hservers : version.mcpServers = config.mcpServers := by rw [hversion]; rfl
  rw [htools, hservers]
  refine ⟨?_, validateMcpBindings_bound hbindings⟩
  simp only [normalizeAgentUpdate, bind_eq_ok, pure_eq_ok] at hupdate
  obtain ⟨multiagent, -, skills, -, tools, hnormalized, rfl⟩ := hupdate
  simp only [mergeAgentUpdate, bind_eq_ok, pure_eq_ok] at hconfig
  obtain ⟨name, -, model, -, metadata, -, rfl⟩ := hconfig
  cases hbody : body.tools with
  | none =>
      rw [hbody] at hnormalized
      cases hnormalized
      exact hactive
  | some raw =>
      simp only [hbody, normalizeField, bind_eq_ok, pure_eq_ok] at hnormalized
      obtain ⟨normalized, hnormalized, rfl⟩ := hnormalized
      exact normalizeAgentTools_limited hnormalized

theorem AgentCommit.wellFormed
    {py : Python} {call : AgentCall} {view : AgentView} {current next : AgentRows}
    (hcurrent : ToolsWellFormed current)
    (hcommitted : AgentCommit py call view current next) : ToolsWellFormed next := by
  intro version hversion
  cases hcommitted with
  | created agent first hcreation =>
      rcases List.mem_append.mp hversion with hversion | hversion
      · exact hcurrent version hversion
      · obtain rfl := List.mem_singleton.mp hversion
        obtain ⟨body, tools, multiagent, -, htools, hbindings, -, -, hsame, hservers⟩ :=
          hcreation.request
        rw [hsame, hservers]
        exact ⟨normalizeAgentTools_limited htools, validateMcpBindings_bound hbindings⟩
  | updated agent active added columns hupdated =>
      rcases List.mem_append.mp hversion with hversion | hversion
      · exact hcurrent version hversion
      · obtain rfl := List.mem_singleton.mp hversion
        obtain ⟨body, -, -, hmerged⟩ := hupdated.request
        exact hmerged.wellFormed (hcurrent active hupdated.activeMem).limited
  | archived agentId now hrequest => exact hcurrent version hversion

end ManagedAgents
