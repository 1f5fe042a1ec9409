import ManagedAgents.Runtime.History

/-!
# The OpenAI backend

The translation of the SDK's stream events into session events, and the
result which a turn makes of a finished stream.  An SDK object is seen as the
dictionary of its attributes, which is how `_raw_get` reads it.
-/

namespace ManagedAgents

def TOOL_USE_EVENTS : List String :=
  ["agent.custom_tool_use", "agent.tool_use", "agent.mcp_tool_use"]

structure RawItem where
  fields : Json
  /-- `_jsonish(raw_item)`. -/
  summary : Json

structure StreamEvent where
  type : String
  name : String := ""
  newAgentName : Json := .null
  rawItem : RawItem := ⟨.dict [], .dict []⟩
  itemOutput : Json := .null

/-! ## Reading raw items -/

/-- The first truthy value among the keys. -/
def rawFirst (rawItem : RawItem) (keys : List String) : Option Json :=
  (keys.map fun key => rawItem.fields.get key).find? Json.truthy

def rawItemName (py : Python) (rawItem : RawItem) (fallback : String) : String :=
  match rawFirst rawItem ["name", "tool_name", "server_label", "type"] with
  | some value => py.str value
  | none => fallback

def rawItemId (py : Python) (rawItem : RawItem) : Json :=
  match rawFirst rawItem ["call_id", "id", "tool_call_id"] with
  | some value => .str (py.str value)
  | none => .null

def rawText (value : Json) : Json :=
  (value.get "text").or (value.get "output_text")

def textFromRawOpenaiItem (py : Python) (rawItem : RawItem) : String :=
  match rawItem.fields.get "content" with
  | .list blocks =>
      "\n".intercalate
        (((blocks.map rawText).filter Json.truthy).map py.str)
  | _ =>
      let text := rawText rawItem.fields
      if text.truthy then py.str text else ""

def toolInputFromRawItem (py : Python) (rawItem : RawItem) : Json :=
  match rawItem.fields.get "arguments" with
  | .str arguments => (py.loads arguments).getD (.str arguments)
  | .null => rawItem.summary
  | arguments => arguments

def toolOutputFromItem (py : Python) (event : StreamEvent) : String :=
  let output :=
    if event.itemOutput = .null then
      (event.rawItem.fields.get "output").or (event.rawItem.fields.get "content")
    else event.itemOutput
  match output with
  | .str text => text
  | value => py.dumps value

/-! ## Mapping a stream -/

def openaiSource : String × Json := ("source", .str "openai_agents_sdk")

/-- A tool use as `_map_openai_stream_event` builds it. -/
def openaiToolUse (py : Python) (eventType fallback : String) (input : Json)
    (rawItem : RawItem) (extra : Dict) : Dict :=
  [("type", .str eventType),
   ("name", .str (rawItemName py rawItem fallback)),
   ("input", input),
   ("tool_use_id", rawItemId py rawItem)] ++ extra ++ [openaiSource]

def openaiToolResult (py : Python) (eventType fallback : String)
    (content : Json) (rawItem : RawItem) : Dict :=
  [("type", .str eventType),
   ("name", .str (rawItemName py rawItem fallback)),
   ("tool_use_id", rawItemId py rawItem),
   ("content", .list [content]),
   openaiSource]

def openaiThinking (content : Json) : Dict :=
  [("type", .str "agent.thinking"), ("content", .list [content]), openaiSource]

def jsonBlock (value : Json) : Json :=
  .dict [("type", .str "json"), ("json", value)]

def textBlock (text : String) : Json :=
  .dict [("type", .str "text"), ("text", .str text)]

def mapOpenaiStreamEvent (py : Python) (event : StreamEvent) : Option Dict :=
  let rawItem := event.rawItem
  if event.type = "agent_updated_stream_event" then
    some (openaiThinking (jsonBlock (.dict
      [("event", .str "agent_updated"),
       ("name", .str (py.str (event.newAgentName.or (.str "agent"))))])))
  else if event.type ≠ "run_item_stream_event" then none
  else
    match event.name with
    | "message_output_created" =>
        let text := textFromRawOpenaiItem py rawItem
        if text = "" then none
        else
          some
            [("type", .str "agent.message"),
             ("content", .list [textBlock text]),
             openaiSource]
    | "tool_called" =>
        some (openaiToolUse py "agent.tool_use" "tool"
          (toolInputFromRawItem py rawItem) rawItem [])
    | "tool_search_called" =>
        some (openaiToolUse py "agent.tool_use" "tool_search"
          rawItem.summary rawItem [])
    | "mcp_approval_requested" =>
        some (openaiToolUse py "agent.mcp_tool_use" "mcp_tool" rawItem.summary
          rawItem
          [("permission_policy", .dict [("type", .str "always_ask")]),
           ("requires_confirmation", .bool true)])
    | "tool_output" =>
        some (openaiToolResult py "agent.tool_result" "tool"
          (textBlock (toolOutputFromItem py event)) rawItem)
    | "tool_search_output_created" =>
        some (openaiToolResult py "agent.tool_result" "tool_search"
          (jsonBlock rawItem.summary) rawItem)
    | "mcp_approval_response" =>
        some (openaiToolResult py "agent.mcp_tool_result" "mcp_tool"
          (jsonBlock rawItem.summary) rawItem)
    | "mcp_list_tools" =>
        some (openaiToolResult py "agent.mcp_tool_result" "mcp"
          (jsonBlock rawItem.summary) rawItem)
    | "reasoning_item_created" =>
        some (openaiThinking (jsonBlock rawItem.summary))
    | "handoff_requested" =>
        some (openaiThinking (jsonBlock (.dict
          [("event", .str "handoff_requested"), ("item", rawItem.summary)])))
    | "handoff_occured" | "handoff_occurred" =>
        some (openaiThinking (jsonBlock (.dict
          [("event", .str "handoff_occurred"), ("item", rawItem.summary)])))
    | _ => none

/-! ## The result of a stream -/

def requiresConfirmation (event : Dict) : Bool :=
  (Dict.get event "requires_confirmation").truthy

structure OpenAIStream where
  events : List StreamEvent
  finalOutput : Json := .null
  runState : Dict := []
  sandboxSummary : Dict := []
  usage : Option Dict := none

/-- `_execute_openai` after the stream has ended. -/
def openaiResult (py : Python) (stream : OpenAIStream) : RuntimeResult :=
  let toolEvents := stream.events.filterMap (mapOpenaiStreamEvent py)
  { finalText := py.str (stream.finalOutput.or (.str ""))
    toolEvents := toolEvents
    requiresAction := toolEvents.any requiresConfirmation
    runState := some stream.runState
    sandboxState := some stream.sandboxSummary
    usage := stream.usage }

def isRequiredActionEvent (result : RuntimeResult) (event : Dict)
    (explicitConfirmationEvents : Bool) : Bool :=
  if !result.requiresAction then false
  else if ¬ ∃ eventType ∈ TOOL_USE_EVENTS,
      Dict.get event "type" = .str eventType then false
  else if explicitConfirmationEvents then requiresConfirmation event
  else true

/-- Only the approval request asks for a confirmation, and it is a tool use. -/
theorem mapOpenaiStreamEvent_requiresConfirmation
    {py : Python} {event : StreamEvent} {mapped : Dict}
    (hmapped : mapOpenaiStreamEvent py event = some mapped)
    (hconfirm : requiresConfirmation mapped = true) :
    Dict.get mapped "type" = .str "agent.mcp_tool_use" := by
  unfold mapOpenaiStreamEvent at hmapped
  simp only at hmapped
  have hthinking : ∀ content,
      requiresConfirmation (openaiThinking content) = false := by
    intro content
    rfl
  have hresult : ∀ eventType fallback content,
      requiresConfirmation
        (openaiToolResult py eventType fallback content event.rawItem) = false := by
    intro eventType fallback content
    rfl
  have huse : ∀ eventType fallback input,
      requiresConfirmation
        (openaiToolUse py eventType fallback input event.rawItem []) = false := by
    intro eventType fallback input
    rfl
  split at hmapped
  · cases hmapped
    rw [hthinking] at hconfirm
    cases hconfirm
  · split at hmapped
    · cases hmapped
    · split at hmapped
      case h_1 =>
        split at hmapped
        · cases hmapped
        · cases hmapped
          cases hconfirm
      case h_4 =>
        cases hmapped
        rfl
      all_goals
        cases hmapped
        try simp only [hthinking, hresult, huse] at hconfirm
        try cases hconfirm

end ManagedAgents
