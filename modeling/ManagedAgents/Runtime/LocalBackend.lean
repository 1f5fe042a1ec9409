import ManagedAgents.Runtime.History

/-!
# The local backend

The deterministic backend that runs without a model provider.  It answers an
action result with a text, asks for the first custom tool or for the first
tool under an `always_ask` policy, and otherwise echoes the latest input.
-/

namespace ManagedAgents

/-! ## Runtime context -/

structure MemoryItem where
  memoryId : String
  path : Json
  pathKey : Json
  version : Json
  content : String

structure MemoryStore where
  memoryStoreId : String
  name : Json
  mountPath : Json
  access : Json
  instructions : Json
  memories : List MemoryItem

structure McpAuthMissing where
  serverName : String
  serverUrl : String

structure RuntimeContext where
  memoryStores : List MemoryStore := []
  mcpServers : List Dict := []
  mcpErrors : List McpAuthMissing := []

def MemoryItem.toJson (memory : MemoryItem) : Json :=
  .dict
    [("memory_id", .str memory.memoryId),
     ("path", memory.path),
     ("path_key", memory.pathKey),
     ("version", memory.version),
     ("content", .str memory.content)]

def MemoryStore.toJson (store : MemoryStore) : Json :=
  .dict
    [("memory_store_id", .str store.memoryStoreId),
     ("name", store.name),
     ("mount_path", store.mountPath),
     ("access", store.access),
     ("instructions", store.instructions),
     ("memories", .list (store.memories.map MemoryItem.toJson))]

def McpAuthMissing.fields (error : McpAuthMissing) : Dict :=
  [("type", .str "mcp_auth_missing"),
   ("mcp_server_name", .str error.serverName),
   ("mcp_server_url", .str error.serverUrl)]

def memoryContextForRunState (context : RuntimeContext) : Json :=
  .dict [("memory_stores", .list (context.memoryStores.map MemoryStore.toJson))]

def mcpContextForRunState (context : RuntimeContext) : Json :=
  .dict
    [("servers", .list (context.mcpServers.map .dict)),
     ("errors", .list (context.mcpErrors.map fun error => .dict error.fields))]

def memoryStoreLines (py : Python) (store : MemoryStore) : List String :=
  let label := store.name.or (.str store.memoryStoreId)
  ["- Store " ++ py.str label ++ ":"] ++
    (if store.instructions.truthy then
      ["  Instructions: " ++ py.str store.instructions] else []) ++
    store.memories.map fun memory =>
      "  - " ++ py.str ((memory.path.or memory.pathKey).or (.str memory.memoryId)) ++
        ": " ++ memory.content

def memoryContextPrompt (py : Python) (context : RuntimeContext) : String :=
  if context.memoryStores = [] then ""
  else
    "\n".intercalate
      ("Memory context:" :: context.memoryStores.flatMap (memoryStoreLines py))

/-! ## Tools -/

def normalizedToolType (py : Python) (spec : Dict) : Option String :=
  let raw :=
    ((Dict.get spec "type").or (Dict.get spec "tool_type")).or
      (Dict.get spec "name")
  if raw = .null then none
  else
    some (String.ofList
      ((py.lower (strip (py.str raw))).toList.map fun c => if c = '-' then '_' else c))

/-- The dictionaries among the tools. -/
def toolDicts (tools : List Json) : List Dict :=
  tools.filterMap fun tool =>
    match tool with
    | .dict fields => some fields
    | _ => none

def firstCustomTool (py : Python) (tools : List Json) : Option Dict :=
  (toolDicts tools).find? fun tool => normalizedToolType py tool = some "custom"

def permissionPolicyType (py : Python) (config : Dict) (default : String) :
    String :=
  let candidates :=
    match Dict.get config "default_config" with
    | .dict defaults => [defaults, config]
    | _ => [config]
  let found := candidates.findSome? fun candidate =>
    match Dict.get candidate "permission_policy" with
    | .dict policy =>
        let policyType := Dict.get policy "type"
        if policyType.truthy then some (py.str policyType) else none
    | _ => none
  found.getD default

def configuredAlwaysAskName (py : Python) (config : Json) : Option String :=
  match config with
  | .dict fields =>
      if Dict.get fields "enabled" = .bool false then none
      else if permissionPolicyType py fields "" = "always_ask" then
        let name := Dict.get fields "name"
        some (if name.truthy then py.str name else "tool")
      else none
  | _ => none

def firstConfiguredAlwaysAskTool (py : Python) (tool : Dict) : Option String :=
  match Dict.get tool "configs" with
  | .list configs => configs.findSome? (configuredAlwaysAskName py)
  | _ => none

/-- The rewriting of a key that exists; others are left out. -/
def redactKey (fields : Dict) (key : String) : Dict :=
  if Dict.contains fields key then Dict.set fields key (.str "redacted")
  else fields

def publicToolSummary (tool : Dict) : Dict :=
  redactKey (redactKey tool "authorization") "headers"

structure ConfirmationTool where
  eventType : String
  name : String
  tool : Dict

/-- One round of the loop in `_first_confirmation_tool`. -/
def confirmationToolOf (py : Python) (tool : Dict) : Option ConfirmationTool :=
  let toolType := normalizedToolType py tool
  if toolType = some "custom" then none
  else if toolType = some "mcp_toolset" ∧
      permissionPolicyType py tool "always_ask" = "always_ask" then
    some
      { eventType := "agent.mcp_tool_use"
        name := py.str
          (((Dict.get tool "mcp_server_name").or (Dict.get tool "name")).or
            (.str "mcp_tool"))
        tool := publicToolSummary tool }
  else if toolType = some "agent_toolset_20260401" then
    match firstConfiguredAlwaysAskTool py tool with
    | some configTool =>
        some
          { eventType := "agent.tool_use"
            name := configTool
            tool := publicToolSummary tool }
    | none =>
        if permissionPolicyType py tool "always_allow" = "always_ask" then
          some
            { eventType := "agent.tool_use"
              name := "bash"
              tool := publicToolSummary tool }
        else none
  else none

def firstConfirmationTool (py : Python) (tools : List Json) :
    Option ConfirmationTool :=
  (toolDicts tools).findSome? (confirmationToolOf py)

theorem firstConfirmationTool_eventType
    {py : Python} {tools : List Json} {tool : ConfirmationTool}
    (htool : firstConfirmationTool py tools = some tool) :
    tool.eventType = "agent.mcp_tool_use" ∨ tool.eventType = "agent.tool_use" := by
  unfold firstConfirmationTool at htool
  obtain ⟨spec, -, hspec⟩ := List.exists_of_findSome?_eq_some htool
  unfold confirmationToolOf at hspec
  simp only at hspec
  split at hspec
  · cases hspec
  · split at hspec
    · cases hspec
      exact Or.inl rfl
    · split at hspec
      · split at hspec
        · cases hspec
          exact Or.inr rfl
        · split at hspec
          · cases hspec
            exact Or.inr rfl
          · cases hspec
      · cases hspec

/-! ## Executing a turn -/

def orDefault (text fallback : String) : String :=
  if text = "" then fallback else text

def localActionResultText (py : Python) (event : SessionEvent) : String :=
  if event.type = "user.custom_tool_result" then
    "Open Managed Agents local runtime received custom tool result: " ++
      orDefault (textFromPayload event.payload) "custom tool result received"
  else if event.type = "user.tool_result" then
    "Open Managed Agents local runtime received tool result: " ++
      orDefault (textFromPayload event.payload) "tool result received"
  else if Dict.get event.payload "result" = .str "deny" then
    "Open Managed Agents local runtime received tool denial: " ++
      py.str ((Dict.get event.payload "deny_message").or (.str "tool use denied"))
  else "Open Managed Agents local runtime received tool confirmation: allow"

def localRunState (version : AgentVersion) (context : RuntimeContext)
    (marker : Dict) : Dict :=
  [("backend", .str "local"), ("agent_version_id", .str version.id)] ++ marker ++
    [("memory_context", memoryContextForRunState context),
     ("mcp_auth", mcpContextForRunState context)]

/-- `_execute_local`.  The summary is that of the sandbox plan which
`sandbox_plan_from_environment` returned. -/
def executeLocal (py : Python) (version : AgentVersion)
    (history : List SessionEvent) (sandboxSummary : Dict)
    (context : RuntimeContext) : Except PyError RuntimeResult :=
  let sandboxState := Dict.set sandboxSummary "runtime_backend" (.str "local")
  match latestUserActionEvent history with
  | some latestAction =>
      .ok
        { finalText := localActionResultText py latestAction
          runState := some (localRunState version context
            [("resumed_from", .str latestAction.type)])
          sandboxState := some sandboxState }
  | none =>
      match latestUserText py history with
      | .error error => .error error
      | .ok latest =>
          if latest = "" then
            .ok
              { finalText := "Open Managed Agents local runtime is idle."
                runState := some (localRunState version context [])
                sandboxState := some sandboxState }
          else
            match firstCustomTool py version.tools with
            | some customTool =>
                .ok
                  { finalText := ""
                    toolEvents :=
                      [[("type", .str "agent.custom_tool_use"),
                        ("name", .str (py.str
                          ((Dict.get customTool "name").or (.str "custom_tool")))),
                        ("input", .dict [("prompt", .str latest)]),
                        ("tool", .dict (publicToolSummary customTool))]]
                    requiresAction := true
                    runState := some (localRunState version context
                      [("pending_action", .str "custom_tool")])
                    sandboxState := some sandboxState }
            | none =>
                match firstConfirmationTool py version.tools with
                | some confirmationTool =>
                    .ok
                      { finalText := ""
                        toolEvents :=
                          [[("type", .str confirmationTool.eventType),
                            ("name", .str confirmationTool.name),
                            ("input", .dict [("prompt", .str latest)]),
                            ("permission_policy",
                              .dict [("type", .str "always_ask")]),
                            ("tool", .dict confirmationTool.tool)]]
                        requiresAction := true
                        runState := some (localRunState version context
                          [("pending_action", .str "tool_confirmation")])
                        sandboxState := some sandboxState }
                | none =>
                    let text :=
                      "Open Managed Agents local runtime received: " ++ latest
                    let memoryPrompt := memoryContextPrompt py context
                    .ok
                      { finalText :=
                          if memoryPrompt = "" then text
                          else text ++ "\n\n" ++ memoryPrompt
                        runState := some (localRunState version context [])
                        sandboxState := some sandboxState }

end ManagedAgents
