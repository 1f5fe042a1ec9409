import ManagedAgents.AgentContract
import ManagedAgents.Database
import ManagedAgents.EventValidation
import ManagedAgents.Metadata

/-!
# Session requests

The request handlers that read or write a session.  Each takes the transaction
it runs in and returns the transaction to commit, or the error response with
nothing to commit.  Rows of other tables which a handler reads are arguments.
-/

namespace ManagedAgents

structure Environment where
  id : String
  config : Json
  archivedAt : Option Time := none
  deletedAt : Option Time := none

def Environment.live (environment : Option Environment) : Bool :=
  match environment with
  | some row => row.deletedAt.isNone
  | none => false

def shouldExecuteInline (environmentConfig : Json) : Bool :=
  environmentConfig.get "type" ≠ .str "self_hosted"

/-! ## Session responses -/

def optionalJson (value : Option α) (render : α → Json) : Json :=
  match value with
  | some v => render v
  | none => .null

def RuntimeRetry.toJson (py : Python) (retry : RuntimeRetry) : Json :=
  .dict
    [("attempt", .int retry.attempt),
     ("max_attempts", .int retry.maxAttempts),
     ("retry_after_seconds", .int retry.retryAfterSeconds),
     ("retry_at", .str (py.isoformat retry.retryAt)),
     ("error", .dict
       [("type", .str retry.error.type),
        ("message", .str retry.error.message),
        ("status_code", optionalJson retry.error.statusCode .int)])]

def AgentOverlay.toJson (overlay : AgentOverlay) : Json :=
  .dict
    ((overlay.tools.map fun tools => ("tools", Json.list tools)).toList ++
      (overlay.mcpServers.map fun servers =>
        ("mcp_servers", Json.list servers)).toList)

def StatusDetails.toJson (py : Python) (details : StatusDetails) : Json :=
  .dict
    ([("resources", .list details.resources),
      ("vault_ids", .list (details.vaultIds.map .str))] ++
      (details.agent.map fun overlay => ("agent", overlay.toJson)).toList ++
      (details.runtimeRetry.map fun retry =>
        ("runtime_retry", retry.toJson py)).toList ++
      (if details.outcomeEvaluations = [] then []
        else [("outcome_evaluations", .list details.outcomeEvaluations)]) ++
      (details.primaryThreadArchivedAt.map fun archivedAt =>
        ("primary_thread_archived_at", Json.str (py.isoformat archivedAt))).toList)

/-- The rows which the rendering of a session reads besides the session. -/
structure ResponseContext where
  version : Option AgentVersion
  resources : List Json
  createdAt : Time
  updatedAt : Time

def sessionAgentSnapshot (version : AgentVersion) (details : StatusDetails) :
    Json :=
  let overlay := details.agent.getD {}
  .dict
    [("id", .str version.agentId),
     ("type", .str "agent"),
     ("name", .str version.name),
     ("version", .int version.version),
     ("model", version.model),
     ("system", optionalJson version.system .str),
     ("description", optionalJson version.description .str),
     ("tools", .list (overlay.tools.getD version.tools)),
     ("mcp_servers", .list (overlay.mcpServers.getD version.mcpServers)),
     ("skills", .list version.skills),
     ("multiagent", version.multiagent)]

def sessionResponse (py : Python) (context : ResponseContext)
    (session : ManagedSession) : Json :=
  let details := session.statusDetails
  let resources :=
    if context.resources = [] then details.resources else context.resources
  .dict
    [("id", .str session.id),
     ("type", .str "session"),
     ("agent", optionalJson context.version fun version =>
       sessionAgentSnapshot version details),
     ("agent_id", .str session.agentId),
     ("agent_version", .int session.agentVersion),
     ("environment_id", .str session.environmentId),
     ("title", optionalJson session.title .str),
     ("status", .str session.status.name),
     ("status_details", details.toJson py),
     ("stop_reason", optionalJson session.stopReason fun reason =>
       reason.toJson py),
     ("run_state", optionalJson session.runState .dict),
     ("sandbox_state", optionalJson session.sandboxState .dict),
     ("metadata", .dict session.metadata),
     ("resources", .list resources),
     ("outcome_evaluations", .list details.outcomeEvaluations),
     ("stats", .dict []),
     ("usage", .dict []),
     ("vault_ids", .list (details.vaultIds.map .str)),
     ("last_event_seq", .int session.lastEventSeq),
     ("archived_at", optionalJson session.archivedAt fun archivedAt =>
       .str (py.isoformat archivedAt)),
     ("deleted_at", optionalJson session.deletedAt fun deletedAt =>
       .str (py.isoformat deletedAt)),
     ("deployment_id", .null),
     ("created_at", .str (py.isoformat context.createdAt)),
     ("updated_at", .str (py.isoformat context.updatedAt))]

/-! ## Updating a session -/

structure SessionUpdateRequest where
  title : Option String := none
  metadata : Option Json := none
  agent : Option Dict := none
  vaultIds : Option (List String) := none

/-- The value of `update[key] or []`, which has to be a list. -/
def overlayList (update : Dict) (key message : String) :
    Except HTTPException (List Json) :=
  match (Dict.get update key).or (.list []) with
  | .list items => .ok items
  | _ => .error ⟨422, message⟩

def mergeSessionAgentOverlay (py : Python) (details : StatusDetails)
    (version : Option AgentVersion) (update : Dict) :
    Except HTTPException StatusDetails := do
  let unsupported := (update.map Prod.fst).filter fun name =>
    name ≠ "tools" ∧ name ≠ "mcp_servers"
  if unsupported ≠ [] then
    throw ⟨422, "Unsupported session agent update fields: " ++
      ", ".intercalate (unsupported.insertionSort (· ≤ ·))⟩
  match version with
  | none => throw ⟨404, "Agent version not found"⟩
  | some version =>
      let overlay := details.agent.getD {}
      let overlay ←
        if Dict.contains update "tools" then do
          let raw ← overlayList update "tools"
            "agent.tools must be an array or null"
          let tools ← normalizeAgentTools py (.list raw)
          pure { overlay with tools := some tools }
        else pure overlay
      let overlay ←
        if Dict.contains update "mcp_servers" then do
          let servers ← overlayList update "mcp_servers"
            "agent.mcp_servers must be an array or null"
          pure { overlay with mcpServers := some servers }
        else pure overlay
      validateMcpBindings (overlay.mcpServers.getD version.mcpServers)
        (overlay.tools.getD version.tools)
      return { details with agent := some overlay }

def sessionNotFound : HTTPException := ⟨404, "Session not found"⟩

/-- The checks of an update and the columns it sets. -/
def sessionUpdateOf (py : Python) (session : ManagedSession)
    (version : Option AgentVersion) (body : SessionUpdateRequest) :
    Except HTTPException SessionUpdate := do
  if session.deletedAt.isSome then
    throw sessionNotFound
  if blocksMutation session.status then
    throw ⟨409, "Cannot update a " ++ session.status.name ++ " session"⟩
  if body.vaultIds.isSome then
    throw ⟨422, "Session vault_ids updates are reserved and not supported"⟩
  let statusDetails ←
    match body.agent with
    | none => pure none
    | some update =>
        if session.status ≠ .idle ∨ isWaitingForAction session.stopReason then
          throw ⟨409, "Session agent config can only be updated while idle"⟩
        else
          some <$> mergeSessionAgentOverlay py session.statusDetails version update
  let metadata ←
    match body.metadata with
    | none => pure none
    | some patch => some <$> mergeMetadata (.dict session.metadata) patch
  return { title := body.title, metadata, statusDetails }

def updateSessionRequest (py : Python) (response : ResponseContext)
    (body : SessionUpdateRequest) (tx : Tx) : Except HTTPException Tx :=
  match sessionUpdateOf py tx.session response.version body with
  | .error error => .error error
  | .ok update =>
      let tx := updateSession tx update
      .ok (appendEvent py tx .server "session.updated"
        [("type", .str "session.updated"),
         ("session", sessionResponse py response tx.session)])

/-! ## Archive, delete, cancel, resume -/

def archiveSession (tx : Tx) : Except HTTPException Tx :=
  if tx.session.deletedAt.isSome then .error sessionNotFound
  else if blocksMutation tx.session.status then
    .error ⟨409, "Cannot archive a " ++ tx.session.status.name ++ " session"⟩
  else .ok (markArchived tx)

def deleteSession (py : Python) (tx : Tx) : Except HTTPException Tx :=
  if tx.session.deletedAt.isSome then .error sessionNotFound
  else if blocksMutation tx.session.status then
    .error ⟨409, "Cannot delete a " ++ tx.session.status.name ++ " session"⟩
  else
    .ok (appendEvent py (markDeleted tx) .server "session.deleted"
      [("type", .str "session.deleted")])

def cancelSession (py : Python) (tx : Tx) : Except HTTPException Tx :=
  if tx.session.deletedAt.isSome then .error sessionNotFound
  else
    let stopReason := StopReason.cancelled
    let tx := updateSession tx
      { status := some .terminated, stopReason := some stopReason }
    .ok (appendEvent py tx .server "session.status_terminated"
      [("type", .str "session.status_terminated"),
       ("status", .str "terminated"),
       ("stop_reason", stopReason.toJson py)])

def resumeSession (environment : Option Environment) (tx : Tx) :
    Except HTTPException Tx :=
  if tx.session.deletedAt.isSome then .error sessionNotFound
  else if tx.session.status = .terminated then
    .error ⟨409, "Terminated sessions cannot be resumed"⟩
  else if isWaitingForAction tx.session.stopReason then
    .error ⟨409, "Session requires action results before it can resume"⟩
  else if !canStartWork tx.session.status tx.session.stopReason then
    .error ⟨409, "Cannot resume a " ++ tx.session.status.name ++ " session"⟩
  else if !Environment.live environment then
    .error ⟨404, "Environment not found"⟩
  else .ok (enqueueSessionRun tx "session.resume" [])

/-! ## Sending events -/

/-- An accepted `SessionEventInput`: a type and any other fields. -/
structure SessionEventInput where
  type : String
  fields : Dict := []

/-- `model_dump`. -/
def SessionEventInput.payload (input : SessionEventInput) : Dict :=
  ("type", .str input.type) :: input.fields

def actionResultTarget (py : Python) (eventType : String) (payload : Dict) :
    Option String :=
  let value :=
    if eventType = "user.custom_tool_result" then
      Dict.get payload "custom_tool_use_id"
    else if eventType = "user.tool_confirmation" ∨
        eventType = "user.tool_result" then
      Dict.get payload "tool_use_id"
    else .null
  if value.truthy then some (py.str value) else none

/-- The set of answered ids, as a list. -/
def resolvedActionIds (py : Python) (events : List SessionEvent) : List String :=
  events.filterMap fun event =>
    (actionResultTarget py event.type event.payload).filter fun target =>
      target ≠ ""

def validateActionResultMatchesBlocker (resultType : String) (payload : Dict)
    (blockerType : String) : Except HTTPException Unit :=
  if resultType = "user.custom_tool_result" then
    if blockerType ≠ "agent.custom_tool_use" then
      .error ⟨409, "custom_tool_result must target agent.custom_tool_use"⟩
    else .ok ()
  else if resultType = "user.tool_result" then
    if blockerType ≠ "agent.tool_use" then
      .error ⟨409, "tool_result must target agent.tool_use"⟩
    else .ok ()
  else if resultType = "user.tool_confirmation" then
    if blockerType ≠ "agent.tool_use" ∧ blockerType ≠ "agent.mcp_tool_use" then
      .error ⟨409, "tool_confirmation must target agent tool use"⟩
    else
      match Dict.get payload "result" with
      -- an unhashable value is looked up in a set
      | .list _ | .dict _ => .error internalServerError
      | result =>
          if result ≠ .str "allow" ∧ result ≠ .str "deny" then
            .error ⟨422, "tool_confirmation.result must be \"allow\" or \"deny\""⟩
          else if result ≠ .str "deny" ∧ Dict.get payload "deny_message" ≠ .null then
            .error ⟨422,
              "tool_confirmation.deny_message is only allowed when result is deny"⟩
          else .ok ()
  else .ok ()

/-- The rows of the page with this id; a dictionary keeps the last one. -/
def eventById (events : List SessionEvent) (id : String) : Option SessionEvent :=
  (events.filter fun event => event.id = id).getLast?

/-- The loop of `_validate_action_results` over the results of a batch. -/
def validateActionResultsLoop (py : Python)
    (pendingIds resolvedIds : List String) (history : List SessionEvent) :
    List String → List SessionEventInput → Except HTTPException Unit
  | _, [] => .ok ()
  | batchTargets, input :: rest =>
      match actionResultTarget py input.type input.payload with
      | none => .error ⟨422, input.type ++ " must reference a blocking event"⟩
      | some target =>
          if target = "" then
            .error ⟨422, input.type ++ " must reference a blocking event"⟩
          else if target ∉ pendingIds then
            .error ⟨409, "Action event is not pending: " ++ target⟩
          else if target ∈ resolvedIds ∨ target ∈ batchTargets then
            .error ⟨409, "Action event is already resolved: " ++ target⟩
          else
            match eventById history target with
            | none => .error ⟨404, "Blocking event not found: " ++ target⟩
            | some blockingEvent =>
                match validateActionResultMatchesBlocker input.type
                    input.payload blockingEvent.type with
                | .error error => .error error
                | .ok () =>
                    validateActionResultsLoop py pendingIds resolvedIds history
                      (target :: batchTargets) rest

def ACTION_HISTORY_LIMIT : ℕ := 1000

def validateActionResults (py : Python) (tx : Tx)
    (inputs : List SessionEventInput) : Except HTTPException Unit :=
  let history := listEvents tx.events 0 ACTION_HISTORY_LIMIT
  validateActionResultsLoop py (pendingActionIds tx.session.stopReason)
    (resolvedActionIds py history) history [] inputs

def validateDefineOutcomes (py : Python) :
    List SessionEventInput → Except HTTPException Unit
  | [] => .ok ()
  | input :: rest =>
      if input.type = "user.define_outcome" then
        match validateUserDefineOutcomeEvent py input.payload with
        | .error error => .error error
        | .ok () => validateDefineOutcomes py rest
      else validateDefineOutcomes py rest

/-- The part of `_validate_event_batch` that depends on the session. -/
def validateBatchForState (py : Python) (tx : Tx)
    (inputs : List SessionEventInput) : Except HTTPException Unit :=
  let eventTypes := inputs.map SessionEventInput.type
  if tx.session.status ∈ ACTIVE_STATUSES then
    if eventTypes = ["user.interrupt"] then .ok ()
    else
      .error ⟨409, "Cannot send events while session is " ++
        tx.session.status.name⟩
  else if isWaitingForAction tx.session.stopReason then
    if eventTypes = ["user.interrupt"] then .ok ()
    else
      let results := inputs.filter fun input => input.type ≠ "system.message"
      if results = [] ∨
          ¬ ∀ input ∈ results, input.type ∈ ACTION_RESULT_EVENTS then
        .error ⟨409, "Session is waiting for required action results"⟩
      else validateActionResults py tx results
  else if ∃ eventType ∈ eventTypes, eventType ∈ ACTION_RESULT_EVENTS then
    .error ⟨409, "Session is not waiting for action results"⟩
  else .ok ()

def validateEventBatch (py : Python) (tx : Tx)
    (inputs : List SessionEventInput) : Except HTTPException Unit :=
  match validateSystemMessageBatch (inputs.map SessionEventInput.type) with
  | .error error => .error error
  | .ok () =>
      match validateDefineOutcomes py inputs with
      | .error error => .error error
      | .ok () => validateBatchForState py tx inputs

def allPendingActionsResolved (py : Python) (tx : Tx) : Bool :=
  let pendingIds := pendingActionIds tx.session.stopReason
  if pendingIds = [] then false
  else
    let history := listEvents tx.events 0 ACTION_HISTORY_LIMIT
    pendingIds.all fun id => id ∈ resolvedActionIds py history

structure SendFlags where
  shouldRun : Bool := false
  shouldInterrupt : Bool := false
  resolvedRequiredActions : Bool := false

/-- The append loop of `send_events`. -/
def sendLoop (py : Python) : Tx → SendFlags → List SessionEventInput →
    Tx × SendFlags
  | tx, flags, [] => (tx, flags)
  | tx, flags, input :: rest =>
      let tx := appendEvent py tx .client input.type input.payload
      let flags :=
        if input.type = "user.interrupt" then
          { flags with shouldInterrupt := true }
        else if startsWork input.type then
          { flags with shouldRun := true }
        else if isActionResult input.type then
          let resolved := allPendingActionsResolved py tx
          { flags with resolvedRequiredActions := resolved, shouldRun := resolved }
        else flags
      sendLoop py tx flags rest

/-- The part of `send_events` after the append loop. -/
def settleSend (py : Python) (tx : Tx) (flags : SendFlags) : Tx :=
  if flags.shouldInterrupt then
    let stopReason := StopReason.interrupted
    let tx := updateSession tx
      { status := some .idle, stopReason := some stopReason }
    appendEvent py tx .server "session.status_idle"
      [("type", .str "session.status_idle"),
       ("status", .str SessionStatus.idle.name),
       ("stop_reason", stopReason.toJson py)]
  else if flags.shouldRun then
    let eventIds := tx.appended.map fun event => Json.str event.id
    let tx :=
      if flags.resolvedRequiredActions then
        updateSession tx
          { status := some .idle, stopReason := some .actionSubmitted }
      else tx
    enqueueSessionRun tx "session.events" [("event_ids", .list eventIds)]
  else tx

def sendEvents (py : Python) (environment : Option Environment)
    (inputs : List SessionEventInput) (tx : Tx) : Except HTTPException Tx :=
  if tx.session.deletedAt.isSome then .error sessionNotFound
  else if tx.session.archivedAt.isSome then
    .error ⟨409, "Session is archived"⟩
  else if tx.session.status = .terminated then
    .error ⟨409, "Session is terminated"⟩
  else if !Environment.live environment then
    .error ⟨404, "Environment not found"⟩
  else
    match validateEventBatch py tx inputs with
    | .error error => .error error
    | .ok () =>
        let sent := sendLoop py tx {} inputs
        .ok (settleSend py sent.1 sent.2)

/-! ## Threads -/

def primaryThreadId (session : ManagedSession) : String :=
  "thrd_" ++ session.id ++ "_primary"

/-- `archive_session_thread`.  The thread rows are kept outside of this model;
`threadExists` tells whether the addressed one is there. -/
def archiveSessionThread (threadId : String) (threadExists : Bool) (tx : Tx) :
    Except HTTPException Tx :=
  if tx.session.deletedAt.isSome then .error sessionNotFound
  else if threadId = primaryThreadId tx.session then
    let details :=
      { tx.session.statusDetails with
        primaryThreadArchivedAt := some tx.context.now }
    .ok (updateSession tx { statusDetails := some details })
  else if threadExists then .ok tx
  else .error ⟨404, "Session thread not found"⟩

end ManagedAgents
