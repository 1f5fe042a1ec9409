import ManagedAgents.SessionState

/-!
# Agent tools and MCP bindings

Normalisation of tool definitions and the check that the MCP servers of a
configuration and its `mcp_toolset` entries name each other.
-/

namespace ManagedAgents

def MAX_AGENT_TOOLS : ℕ := 128
def MAX_CUSTOM_TOOL_NAME_CHARS : ℕ := 128
def MAX_CUSTOM_TOOL_DESCRIPTION_CHARS : ℕ := 1024

structure AgentVersion where
  id : String
  agentId : String
  version : ℕ
  name : String
  model : Json
  system : Option String
  description : Option String
  tools : List Json
  mcpServers : List Json
  skills : List Json
  multiagent : Json
  runtime : Json
  metadata : Dict

/-- An exception which no handler of the API catches. -/
def internalServerError : HTTPException := ⟨500, "Internal Server Error"⟩

def isToolNameChar (c : Char) : Bool :=
  ('A' ≤ c && c ≤ 'Z') || ('a' ≤ c && c ≤ 'z') || ('0' ≤ c && c ≤ '9') ||
    c = '_' || c = '-'

/-- `CUSTOM_TOOL_NAME_RE.fullmatch`. -/
def customToolNameMatches (name : String) : Bool :=
  name ≠ "" && name.toList.all isToolNameChar

def normalizeToolConfig (config : Json) (fallbackEnabled : Json)
    (fallbackPolicy : Dict) (requireName : Bool) : Except HTTPException Json :=
  match config with
  | .dict fields =>
      if requireName ∧ !(Dict.get fields "name").truthy then
        .error ⟨422, "tool configs entries require name"⟩
      else
        let normalized :=
          if Dict.get fields "enabled" = .null then
            Dict.set fields "enabled" fallbackEnabled
          else fields
        let policy := Dict.get normalized "permission_policy"
        if (policy.get "type").truthy then .ok (.dict normalized)
        else .ok (.dict (Dict.set normalized "permission_policy" (.dict fallbackPolicy)))
  | _ => .error ⟨422, "tool configs entries must be objects"⟩

/-- Iteration over `normalized.get("configs") or []`: a dictionary yields its
keys and a string its characters, none of which are objects. -/
def toolConfigEntries (configs : Json) : Except HTTPException (List Json) :=
  match configs with
  | .list items => .ok items
  | .dict (_ :: _) => .error ⟨422, "tool configs entries must be objects"⟩
  | .str text =>
      if text = "" then .ok []
      else .error ⟨422, "tool configs entries must be objects"⟩
  | value => if value.truthy then .error internalServerError else .ok []

def normalizeToolset (tool : Dict) (defaultPolicyType : String) :
    Except HTTPException Dict := do
  let rawDefault :=
    match Dict.get tool "default_config" with
    | .dict fields => fields
    | _ => []
  let defaultConfig ← normalizeToolConfig (.dict rawDefault) (.bool true)
    [("type", .str defaultPolicyType)] false
  let normalized := Dict.set tool "default_config" defaultConfig
  let fallbackPolicy :=
    match defaultConfig.get "permission_policy" with
    | .dict fields => fields
    | _ => []
  let entries ← toolConfigEntries (Dict.get normalized "configs")
  let configs ← entries.mapM fun config =>
    normalizeToolConfig config (defaultConfig.get "enabled") fallbackPolicy true
  return Dict.set normalized "configs" (.list configs)

def normalizeCustomTool (tool : Dict) : Except HTTPException Dict := do
  let name ←
    match Dict.get tool "name" with
    | .str name =>
        if name = "" then throw ⟨422, "custom tools require name"⟩
        else pure name
    | _ => throw ⟨422, "custom tools require name"⟩
  if name.length > MAX_CUSTOM_TOOL_NAME_CHARS ∨ !customToolNameMatches name then
    throw ⟨422, "custom tool name must be 1-128 characters using letters, " ++
      "digits, underscores, or hyphens"⟩
  let described ←
    match Dict.get tool "description" with
    | .null =>
        pure (Dict.set tool "description" (.str ("Custom tool " ++ name ++ ".")))
    | .str description =>
        if description = "" then
          throw ⟨422, "custom tool description must be a non-empty string"⟩
        else if description.length > MAX_CUSTOM_TOOL_DESCRIPTION_CHARS then
          throw ⟨422, "custom tool description must be at most 1024 characters"⟩
        else pure tool
    | _ => throw ⟨422, "custom tool description must be a non-empty string"⟩
  match Dict.get described "input_schema" with
  | .dict schema =>
      if Dict.get schema "type" = .str "object" then return described
      else throw ⟨422, "custom tool input_schema.type must be \"object\""⟩
  | _ =>
      return Dict.set described "input_schema"
        (.dict [("type", .str "object"), ("properties", .dict [])])

def normalizeAgentTool (tool : Json) : Except HTTPException Json :=
  match tool with
  | .dict fields =>
      match Dict.get fields "type" with
      | .str "agent_toolset_20260401" => do
          return .dict (← normalizeToolset fields "always_allow")
      | .str "mcp_toolset" => do
          let normalized ← normalizeToolset fields "always_ask"
          match Dict.get normalized "mcp_server_name" with
          | .str serverName =>
              if serverName = "" then
                throw ⟨422, "mcp_toolset entries require mcp_server_name"⟩
              else return .dict normalized
          | _ => throw ⟨422, "mcp_toolset entries require mcp_server_name"⟩
      | .str "custom" => do
          return .dict (← normalizeCustomTool fields)
      | _ => .ok (.dict fields)
  | _ => .error ⟨422, "tools entries must be objects"⟩

def agentToolCount (tool : Json) : ℕ :=
  if tool.get "type" = .str "custom" then 1
  else
    match tool.get "configs" with
    | .list (config :: rest) => (config :: rest).length
    | _ => 1

/-- `str(tool.get("name") or "")` of the custom tools, in order. -/
def customToolNames (py : Python) (tools : List Json) : List String :=
  (tools.filter fun tool => tool.get "type" = .str "custom").map fun tool =>
    py.str ((tool.get "name").or (.str ""))

def firstDuplicate : List String → List String → Option String
  | _, [] => none
  | seen, name :: rest =>
      if name ∈ seen then some name else firstDuplicate (name :: seen) rest

def validateAgentToolLimits (py : Python) (tools : List Json) :
    Except HTTPException Unit :=
  if (tools.map agentToolCount).sum > MAX_AGENT_TOOLS then
    .error ⟨422, "tools supports at most 128 tools across all toolsets"⟩
  else
    match firstDuplicate [] (customToolNames py tools) with
    | some name => .error ⟨422, "Duplicate custom tool name: " ++ name⟩
    | none => .ok ()

def normalizeAgentTools (py : Python) (tools : Json) :
    Except HTTPException (List Json) :=
  match tools with
  | .list items => do
      let normalized ← items.mapM normalizeAgentTool
      validateAgentToolLimits py normalized
      return normalized
  | _ => .error ⟨422, "tools must be an array"⟩

/-! ## MCP bindings -/

def mcpServerNames : List String → List Json → Except HTTPException (List String)
  | names, [] => .ok names
  | names, server :: rest =>
      match server with
      | .dict fields =>
          if Dict.get fields "type" ≠ .str "url" then
            .error ⟨422, "mcp_servers entries must have type \"url\""⟩
          else
            match Dict.get fields "name", Dict.get fields "url" with
            | .str name, url =>
                if name = "" then
                  .error ⟨422, "mcp_servers entries require name"⟩
                else
                  match url with
                  | .str address =>
                      if address = "" then
                        .error ⟨422, "mcp_servers entries require url"⟩
                      else if name ∈ names then
                        .error ⟨422, "Duplicate MCP server name: " ++ name⟩
                      else mcpServerNames (names ++ [name]) rest
                  | _ => .error ⟨422, "mcp_servers entries require url"⟩
            | _, _ => .error ⟨422, "mcp_servers entries require name"⟩
      | _ => .error ⟨422, "mcp_servers entries must be objects"⟩

def mcpToolRefs (serverNames : List String) :
    List String → List Json → Except HTTPException (List String)
  | refs, [] => .ok refs
  | refs, tool :: rest =>
      if tool.get "type" ≠ .str "mcp_toolset" then
        mcpToolRefs serverNames refs rest
      else
        match tool.get "mcp_server_name" with
        | .str serverName =>
            if serverName = "" then
              .error ⟨422, "mcp_toolset entries require mcp_server_name"⟩
            else if serverName ∈ serverNames then
              mcpToolRefs serverNames (serverName :: refs) rest
            else
              .error ⟨422, "mcp_toolset references undeclared MCP server: " ++
                serverName⟩
        | _ => .error ⟨422, "mcp_toolset entries require mcp_server_name"⟩

def validateMcpBindings (mcpServers tools : List Json) :
    Except HTTPException Unit := do
  if mcpServers.length > 20 then
    throw ⟨422, "mcp_servers supports at most 20 servers"⟩
  let serverNames ← mcpServerNames [] mcpServers
  let toolRefs ← mcpToolRefs serverNames [] tools
  let unreferenced := serverNames.filter fun name => name ∉ toolRefs
  if unreferenced ≠ [] then
    throw ⟨422, "MCP servers must be referenced by mcp_toolset: " ++
      ", ".intercalate (unreferenced.insertionSort (· ≤ ·))⟩

end ManagedAgents
