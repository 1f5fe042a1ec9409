import ManagedAgents.CommittedStates
import ManagedAgents.JsonEquality
import ManagedAgents.Library.Fallible
import ManagedAgents.Runtime.LocalBackend

/-!
# The tools handed to the SDK

The OpenAI backend turns the tools and the MCP servers of an agent into tools
of the SDK.  Every specification goes through one loop, which either maps it
or puts it on the list of the filtered ones together with a reason.

A declared server carries `"type": "url"`, and this type replaces the `"mcp"`
under which the mapper would know it.
-/

namespace ManagedAgents

/-- The capability which decides about hosted tools. -/
structure RuntimeProviderCapabilities where
  hostedTools : Bool

/-- The tool classes of the SDK with the arguments they are built from. -/
inductive SdkTool
  | webSearchTool (kwargs : Dict)
  | fileSearchTool (kwargs : Dict)
  | codeInterpreterTool (config : Dict)
  | hostedMCPTool (config : Dict)
  | imageGenerationTool (config : Dict)

/-- A result of the mapper: a tool, the reason for having none, or neither. -/
inductive MappedTool
  | tool (tool : SdkTool)
  | reason (text : String)
  | unsupported

structure SdkTools where
  tools : List SdkTool
  enabled : List Dict
  filtered : List Dict

/-! ## Specifications -/

/-- `{key: value, **fields}`. -/
def Dict.withDefault (key : String) (value : Json) (fields : Dict) : Dict :=
  if Dict.contains fields key then (key, Dict.get fields key) :: Dict.pop fields key
  else (key, value) :: fields

theorem Dict.get_withDefault
    {key : String} (value : Json) {fields : Dict}
    (hkey : Dict.contains fields key = true) :
    Dict.get (Dict.withDefault key value fields) key = Dict.get fields key := by
  simp [Dict.withDefault, hkey, Dict.get]

def toolSpecs (tools mcpServers : List Json) : List Dict :=
  toolDicts tools ++
    (toolDicts mcpServers).map (Dict.withDefault "type" (.str "mcp"))

def isHostedToolType (toolType : String) : Bool :=
  toolType ∈
    ["web_search", "web_search_preview", "file_search", "code_interpreter",
     "hosted_mcp", "mcp", "image_generation"]

def specLabel (spec : Dict) : Json :=
  (((Dict.get spec "server_label").or (Dict.get spec "label")).or
    (Dict.get spec "name")).or (Dict.get spec "id")

def toolSummary (py : Python) (spec : Dict) (index : ℕ) (toolType : Option String) :
    Dict :=
  let known := (toolType.filter (· ≠ "")).getD "unknown"
  [("index", .int index), ("type", .str known)] ++
    (if (specLabel spec).truthy then [("label", .str (py.str (specLabel spec)))]
      else []) ++
    (if (Dict.get spec "connector_id").truthy then
      [("connector_id", .str (py.str (Dict.get spec "connector_id")))] else [])

/-! ## The mapper -/

/-- `value in {"low", "medium", "high"}`, which hashes the value. -/
def isContextSize (value : Json) : Except PyError Bool :=
  match value with
  | .list _ | .dict _ => .error .typeError
  | value => .ok (value ∈ [Json.str "low", .str "medium", .str "high"])

/-- Pass a field on if it is a dictionary. -/
def passDict (spec kwargs : Dict) (key : String) : Dict :=
  match Dict.get spec key with
  | .dict fields => Dict.set kwargs key (.dict fields)
  | _ => kwargs

/-- Pass the truth of a field on if the field is there. -/
def passBool (spec kwargs : Dict) (key : String) : Dict :=
  if Dict.contains spec key then
    Dict.set kwargs key (.bool (Dict.get spec key).truthy)
  else kwargs

/-- Pass a field on if it is not `None`. -/
def passValue (spec config : Dict) (key : String) : Dict :=
  if Dict.get spec key = .null then config
  else Dict.set config key (Dict.get spec key)

/-- Pass a field on if it is there. -/
def passField (spec config : Dict) (key : String) : Dict :=
  if Dict.contains spec key then Dict.set config key (Dict.get spec key)
  else config

def mapWebSearch (spec : Dict) : Except PyError MappedTool := do
  let contextSize :=
    (Dict.get spec "search_context_size").or (Dict.get spec "context_size")
  let known ← isContextSize contextSize
  let kwargs := if known then [("search_context_size", contextSize)] else []
  let kwargs := passDict spec kwargs "user_location"
  let kwargs := passDict spec kwargs "filters"
  let kwargs := passBool spec kwargs "external_web_access"
  return .tool (.webSearchTool kwargs)

def vectorStoreIds (spec : Dict) : List Json :=
  match (Dict.get spec "vector_store_ids").or (Dict.get spec "vector_store_id") with
  | .str storeId => [.str storeId]
  | .list storeIds => storeIds
  | _ => []

def mapFileSearch (py : Python) (spec : Dict) : Except PyError MappedTool :=
  if vectorStoreIds spec = [] then .ok (.reason "missing_vector_store_ids")
  else do
    let kwargs : Dict :=
      [("vector_store_ids",
        .list ((vectorStoreIds spec).map fun item => .str (py.str item)))]
    let kwargs ←
      if Dict.get spec "max_num_results" = .null then pure kwargs
      else do
        let bound ← py.int (Dict.get spec "max_num_results")
        pure (Dict.set kwargs "max_num_results" (.int bound))
    let kwargs := passBool spec kwargs "include_search_results"
    let kwargs := passDict spec kwargs "ranking_options"
    let kwargs := passDict spec kwargs "filters"
    return .tool (.fileSearchTool kwargs)

def mapCodeInterpreter (spec : Dict) : MappedTool :=
  .tool (.codeInterpreterTool
    [("type", .str "code_interpreter"),
     ("container", (Dict.get spec "container").or (.dict [("type", .str "auto")]))])

/-- `_mcp_tool_config`: the configuration, or the reason for having none. -/
def mcpToolConfig (py : Python) (spec : Dict) : Except String Dict :=
  if !(specLabel spec).truthy then .error "missing_server_label"
  else
    let config : Dict :=
      [("type", .str "mcp"), ("server_label", .str (py.str (specLabel spec)))]
    let config :=
      ["server_url", "connector_id", "authorization", "headers", "allowed_tools",
       "require_approval", "server_description", "defer_loading",
       "tunnel_id"].foldl (passValue spec) config
    let config :=
      if !Dict.contains config "server_url" ∧ (Dict.get spec "url").truthy then
        Dict.set config "server_url" (Dict.get spec "url")
      else config
    if !Dict.contains config "server_url" ∧ !Dict.contains config "connector_id" then
      .error "missing_server_url_or_connector_id"
    else .ok config

def mapHostedMcp (py : Python) (spec : Dict) : MappedTool :=
  match mcpToolConfig py spec with
  | .ok config => .tool (.hostedMCPTool config)
  | .error reason => .reason reason

def mapImageGeneration (spec : Dict) : MappedTool :=
  .tool (.imageGenerationTool
    (["model", "quality", "size", "output_format", "output_compression",
      "background", "moderation", "partial_images", "input_fidelity",
      "action"].foldl (passField spec) [("type", .str "image_generation")]))

def mapHostedTool (py : Python) (toolType : String) (spec : Dict) :
    Except PyError MappedTool :=
  if toolType = "web_search" ∨ toolType = "web_search_preview" then mapWebSearch spec
  else if toolType = "file_search" then mapFileSearch py spec
  else if toolType = "code_interpreter" then .ok (mapCodeInterpreter spec)
  else if toolType = "hosted_mcp" ∨ toolType = "mcp" then .ok (mapHostedMcp py spec)
  else if toolType = "image_generation" then .ok (mapImageGeneration spec)
  else .ok .unsupported

/-! ## The loop -/

def SdkTools.filter (found : SdkTools) (summary : Dict) (reason : String) : SdkTools :=
  { found with
    filtered := found.filtered ++ [Dict.set summary "reason" (.str reason)] }

/-- One round of the loop in `_sdk_tools_for_provider`. -/
def addTool (py : Python) (capabilities : RuntimeProviderCapabilities)
    (found : SdkTools) (index : ℕ) (spec : Dict) : Except PyError SdkTools :=
  let toolType := normalizedToolType py spec
  let summary := toolSummary py spec index toolType
  match toolType with
  | none => .ok (found.filter summary "missing_tool_type")
  | some toolType =>
      if !capabilities.hostedTools ∧ isHostedToolType toolType then
        .ok (found.filter summary "provider_does_not_support_hosted_tools")
      else do
        match ← mapHostedTool py toolType spec with
        | .unsupported => return found.filter summary "unsupported_tool_type"
        | .reason reason => return found.filter summary reason
        | .tool tool =>
            return { found with
              tools := found.tools ++ [tool]
              enabled := found.enabled ++ [summary] }

def addTools (py : Python) (capabilities : RuntimeProviderCapabilities) :
    SdkTools → ℕ → List Dict → Except PyError SdkTools
  | found, _, [] => .ok found
  | found, index, spec :: rest => do
      let next ← addTool py capabilities found index spec
      addTools py capabilities next (index + 1) rest

def sdkToolsForProvider (py : Python) (capabilities : RuntimeProviderCapabilities)
    (tools mcpServers : List Json) : Except PyError SdkTools :=
  addTools py capabilities ⟨[], [], []⟩ 0 (toolSpecs tools mcpServers)

theorem addTools_append
    (py : Python) (capabilities : RuntimeProviderCapabilities)
    (found : SdkTools) (index : ℕ) (first second : List Dict) :
    addTools py capabilities found index (first ++ second) =
      (addTools py capabilities found index first).bind fun next =>
        addTools py capabilities next (index + first.length) second := by
  induction first generalizing found index with
  | nil => rfl
  | cons spec rest ih =>
      simp only [List.cons_append, addTools, List.length_cons]
      cases hnext : addTool py capabilities found index spec with
      | error error => rfl
      | ok next =>
          have hindex : index + 1 + rest.length = index + (rest.length + 1) := by omega
          simp only [bind, Except.bind] at ih ⊢
          rw [ih, hindex]

/-! ## Declared servers -/

/-- What the check of the bindings guarantees about a server. -/
structure DeclaredServer (server : Json) (fields : Dict) : Prop where
  isDict : server = .dict fields
  type : Dict.get fields "type" = .str "url"

theorem declaredServer_of_names
    {servers : List Json} {names result : List String}
    (hnames : mcpServerNames names servers = .ok result) :
    ∀ server ∈ servers, ∃ fields, DeclaredServer server fields := by
  induction servers generalizing names with
  | nil => simp
  | cons server rest ih =>
      unfold mcpServerNames at hnames
      cases server with
      | dict fields =>
          by_cases htype : Dict.get fields "type" = .str "url"
          · simp only [htype, ne_eq, not_true_eq_false, if_false] at hnames
            have hrest : ∃ names, mcpServerNames names rest = .ok result := by
              split at hnames
              · split at hnames
                · cases hnames
                · split at hnames
                  · split at hnames
                    · cases hnames
                    · split at hnames
                      · cases hnames
                      · exact ⟨_, hnames⟩
                  · cases hnames
              · cases hnames
            obtain ⟨later, hlater⟩ := hrest
            intro other hother
            rcases List.mem_cons.mp hother with rfl | hother
            · exact ⟨fields, rfl, htype⟩
            · exact ih hlater other hother
          · simp [htype] at hnames
      | null | bool _ | int _ | float _ | str _ | list _ => simp at hnames

theorem declaredServer_of_bindings
    {mcpServers tools : List Json}
    (hbindings : validateMcpBindings mcpServers tools = .ok ()) :
    ∀ server ∈ mcpServers, ∃ fields, DeclaredServer server fields := by
  unfold validateMcpBindings at hbindings
  split at hbindings
  · cases hbindings
  · obtain ⟨names, hnames, -⟩ := Fallible.bind_eq_ok.mp hbindings
    exact declaredServer_of_names hnames

/-- The entry of a server on the list of the filtered specifications. -/
def filteredServer (py : Python) (index : ℕ) (server : Dict) : Dict :=
  Dict.set
    (toolSummary py (Dict.withDefault "type" (.str "mcp") server) index (some "url"))
    "reason" (.str "unsupported_tool_type")

theorem normalizedToolType_server
    (py : Python) {server : Dict} (htype : Dict.get server "type" = .str "url") :
    normalizedToolType py (Dict.withDefault "type" (.str "mcp") server) =
      some "url" := by
  have hcontains : Dict.contains server "type" = true :=
    Dict.contains_of_get (by simp [htype])
  have hget :
      Dict.get (Dict.withDefault "type" (.str "mcp") server) "type" = .str "url" := by
    rw [Dict.get_withDefault _ hcontains, htype]
  have htext : strip (py.str (.str "url")) = "url" := by
    show strip "url" = "url"
    decide
  have hlower : py.lower "url" = "url" := by
    rw [Python.lower, if_pos (by decide)]
    decide
  simp only [normalizedToolType, hget, Json.or, Json.truthy]
  simp only [ne_eq, String.reduceEq, not_false_eq_true, decide_true, if_true]
  rw [htext, hlower]
  decide

/-- No provider maps the type `url`, whatever it supports. -/
theorem addTool_server
    (py : Python) (capabilities : RuntimeProviderCapabilities)
    (found : SdkTools) (index : ℕ) {server : Dict}
    (htype : Dict.get server "type" = .str "url") :
    addTool py capabilities found index (Dict.withDefault "type" (.str "mcp") server) =
      .ok { found with
        filtered := found.filtered ++ [filteredServer py index server] } := by
  have hhosted : isHostedToolType "url" = false := by decide
  simp [addTool, normalizedToolType_server py htype, hhosted, mapHostedTool,
    SdkTools.filter, filteredServer, bind, Except.bind, pure, Except.pure]

theorem addTools_servers
    (py : Python) (capabilities : RuntimeProviderCapabilities)
    (found : SdkTools) (index : ℕ) {servers : List Dict}
    (htype : ∀ server ∈ servers, Dict.get server "type" = .str "url") :
    addTools py capabilities found index
        (servers.map (Dict.withDefault "type" (.str "mcp"))) =
      .ok { found with
        filtered := found.filtered ++
          servers.mapIdx fun place server =>
            filteredServer py (index + place) server } := by
  induction servers generalizing found index with
  | nil => simp [addTools]
  | cons server rest ih =>
      have hserver : Dict.get server "type" = .str "url" :=
        htype server (List.mem_cons_self ..)
      have hrest := ih
        { found with filtered := found.filtered ++ [filteredServer py index server] }
        (index + 1) fun other hother => htype other (List.mem_cons_of_mem _ hother)
      have hplace :
          (fun place server => filteredServer py (index + 1 + place) server) =
            fun place server => filteredServer py (index + (place + 1)) server := by
        funext place server
        rw [Nat.add_assoc, Nat.add_comm 1 place]
      simp only [List.map_cons, addTools,
        addTool_server py capabilities found index hserver, bind, Except.bind, hrest,
          hplace]
      simp [List.mapIdx_cons]

/-- Servers leave the tools alone and are filtered themselves. -/
theorem sdkToolsForProvider_eq
    (py : Python) (capabilities : RuntimeProviderCapabilities)
    {mcpServers tools : List Json}
    (hbindings : validateMcpBindings mcpServers tools = .ok ()) :
    sdkToolsForProvider py capabilities tools mcpServers =
      (sdkToolsForProvider py capabilities tools []).map fun found =>
        { found with
          filtered := found.filtered ++
            (toolDicts mcpServers).mapIdx fun place server =>
              filteredServer py ((toolDicts tools).length + place) server } := by
  have htype : ∀ server ∈ toolDicts mcpServers,
      Dict.get server "type" = .str "url" := by
    intro fields hfields
    obtain ⟨server, hserver, hdict⟩ := List.mem_filterMap.mp hfields
    obtain ⟨declared, hdeclared⟩ := declaredServer_of_bindings hbindings server hserver
    rw [hdeclared.isDict] at hdict
    cases hdict
    exact hdeclared.type
  simp only [sdkToolsForProvider, toolSpecs]
  rw [addTools_append]
  simp only [toolDicts, List.filterMap_nil, List.map_nil, List.append_nil]
  cases hfound : addTools py capabilities ⟨[], [], []⟩ 0 (toolDicts tools) with
  | error error =>
      simp only [toolDicts] at hfound
      rw [hfound]
      rfl
  | ok found =>
      simp only [toolDicts] at hfound
      rw [hfound]
      simp only [Except.bind, Except.map]
      rw [Nat.zero_add]
      exact addTools_servers py capabilities found _ htype

/-! ## Reaching the model -/

/-- The hosted tool of a server under its name and address. -/
def SdkTool.isServer (server : Json) : SdkTool → Bool
  | .hostedMCPTool config =>
      Dict.get config "server_label" = server.get "name" &&
        Dict.get config "server_url" = server.get "url"
  | _ => false

/-- Each declared server becomes one tool, and its specification, which
follows those of the agent's tools, is not filtered. -/
def ServersReachModel (py : Python) (capabilities : RuntimeProviderCapabilities)
    (tools mcpServers : List Json) : Prop :=
  ∀ (place : ℕ) server, mcpServers[place]? = some server →
    ∃ found, sdkToolsForProvider py capabilities tools mcpServers = .ok found ∧
      (found.tools.filter (SdkTool.isServer server)).length = 1 ∧
      ∀ entry ∈ found.filtered,
        Dict.get entry "index" ≠ .int ((toolDicts tools).length + place)

theorem get_filteredServer_index
    (py : Python) (index : ℕ) (server : Dict) :
    Dict.get (filteredServer py index server) "index" = .int index := by
  rw [filteredServer, Dict.get_set_other _ (by decide)]
  simp [toolSummary, Dict.get]

/-- No declared server reaches the model. -/
theorem serversReachModel_iff
    (py : Python) (capabilities : RuntimeProviderCapabilities)
    {mcpServers tools : List Json}
    (hbindings : validateMcpBindings mcpServers tools = .ok ()) :
    ServersReachModel py capabilities tools mcpServers ↔ mcpServers = [] := by
  constructor
  · intro hreach
    cases mcpServers with
    | nil => rfl
    | cons server rest =>
        obtain ⟨found, hfound, -, hfiltered⟩ := hreach 0 server rfl
        rw [sdkToolsForProvider_eq py capabilities hbindings] at hfound
        obtain ⟨fields, hserver⟩ :=
          declaredServer_of_bindings hbindings server (List.mem_cons_self ..)
        cases hagent : sdkToolsForProvider py capabilities tools [] with
        | error error => simp [hagent, Except.map] at hfound
        | ok own =>
            simp only [hagent, Except.map, Except.ok.injEq] at hfound
            have hentry : filteredServer py ((toolDicts tools).length + 0) fields ∈
                found.filtered := by
              rw [← hfound]
              simp [toolDicts, hserver.isDict, List.mapIdx_cons]
            exact absurd (get_filteredServer_index py _ fields)
              (hfiltered _ hentry)
  · rintro rfl place server hserver
    simp at hserver

def sampleServer : Json :=
  .dict
    [("type", .str "url"), ("name", .str "docs"),
     ("url", .str "https://mcp.example.com")]

def sampleToolset : List Json :=
  [.dict
    [("type", .str "mcp_toolset"), ("mcp_server_name", .str "docs"),
     ("default_config",
      .dict
        [("enabled", .bool true),
         ("permission_policy", .dict [("type", .str "always_ask")])]),
     ("configs", .list [])]]

theorem serversReachModel_docs_iff :
    ServersReachModel samplePython ⟨true⟩ sampleToolset [sampleServer] ↔
      [sampleServer] = [] :=
  serversReachModel_iff samplePython ⟨true⟩ (by rfl)

theorem declared_server_filtered :
    normalizeAgentTools samplePython (.list sampleToolset) = .ok sampleToolset ∧
      validateMcpBindings [sampleServer] sampleToolset = .ok () ∧
      ¬ServersReachModel samplePython ⟨true⟩ sampleToolset [sampleServer] := by
  refine ⟨by rfl, by rfl, fun hreach => ?_⟩
  obtain ⟨found, hfound, htools, -⟩ := hreach 0 sampleServer rfl
  have hnone : (sdkToolsForProvider samplePython ⟨true⟩ sampleToolset
      [sampleServer]).map SdkTools.tools = .ok [] := by rfl
  rw [hfound] at hnone
  simp only [Except.map, Except.ok.injEq] at hnone
  simp [hnone] at htools

end ManagedAgents
