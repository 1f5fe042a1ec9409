import ManagedAgents.Runtime.LocalBackend
import ManagedAgents.Runtime.OpenAI
import ManagedAgents.Sessions

/-!
# The transactions of a turn

A turn runs four transactions: it starts, it loads its history, it commits
the outcome of the model call, and it records a failure when one of the last
two or the model call raised.  Each is a function of the transaction it runs
in; the model call between loading and outcome is not part of any of them.
-/

namespace ManagedAgents

/-- How a transaction inside the `try` block of a turn ends. -/
inductive TurnReply
  | returned
  | raised (exc : PyException)
  | commit (tx : Tx)

/-! ## Start -/

def startTurn (py : Python) (tx : Tx) : Option Tx :=
  if tx.session.deletedAt.isSome then none
  else if !canStartWork tx.session.status tx.session.stopReason then none
  else
    let tx := updateSession tx
      { status := some .running, stopReason := some .inProgress }
    some (appendEvent py tx .server "session.status_running"
      [("type", .str "session.status_running"),
       ("status", .str SessionStatus.running.name)])

/-! ## Load -/

/-- The rows of other tables which the load transaction reads. -/
structure TurnRows where
  agentExists : Bool
  version : Option AgentVersion
  environment : Option Environment
  context : RuntimeContext

structure LoadedTurn where
  history : List SessionEvent
  version : AgentVersion
  environmentConfig : Json
  context : RuntimeContext

def HISTORY_LIMIT : ℕ := 500

def mcpErrorPayload (error : McpAuthMissing) : Dict :=
  Dict.update
    [("type", .str "session.error"),
     ("error_type", .str "mcp_auth_missing"),
     ("message", .str ("MCP credential not found for " ++
       orDefault error.serverName error.serverUrl))]
    error.fields

def appendRuntimeContextEvents (py : Python) (tx : Tx)
    (context : RuntimeContext) : Tx :=
  context.mcpErrors.foldl
    (fun tx error =>
      appendEvent py tx .server "session.error" (mcpErrorPayload error)) tx

def loadTurn (py : Python) (rows : TurnRows) (tx : Tx) :
    Except PyException (LoadedTurn × Tx) :=
  if !rows.agentExists then
    .error (runtimeError ("Agent " ++ tx.session.agentId ++ " not found"))
  else
    match rows.version, rows.environment with
    | none, _ =>
        .error (runtimeError
          ("Agent version " ++ toString tx.session.agentVersion ++ " not found"))
    | some version, environment =>
        match environment.filter fun row => row.deletedAt.isNone with
        | none =>
            .error (runtimeError
              ("Environment " ++ tx.session.environmentId ++ " not found"))
        | some environment =>
            .ok
              ({ history := listEvents tx.events 0 HISTORY_LIMIT
                 version := effectiveAgentVersion version tx.session.statusDetails
                 environmentConfig := environment.config
                 context := rows.context },
               appendRuntimeContextEvents py tx rows.context)

/-! ## Outcome -/

def withoutRuntimeRetry (details : StatusDetails) : StatusDetails :=
  { details with runtimeRetry := none }

def withOutcomeEvaluation (details : StatusDetails) (evaluation : Dict) :
    StatusDetails :=
  { details with
    outcomeEvaluations := details.outcomeEvaluations ++ [.dict evaluation] }

/-- The loop over the tool events of a result, with the blocking ids. -/
def appendToolEvents (py : Python) (result : RuntimeResult) (explicit : Bool) :
    Tx → List String → List Dict → Except PyException (Tx × List String)
  | tx, blockingIds, [] => .ok (tx, blockingIds)
  | tx, blockingIds, toolEvent :: rest =>
      if !Dict.contains toolEvent "type" then .error (keyError "type")
      else
        match Dict.get toolEvent "type" with
        | .str eventType =>
            let event := tx.newEvent py .server eventType toolEvent
            let blockingIds :=
              if isRequiredActionEvent result toolEvent explicit then
                blockingIds ++ [event.id]
              else blockingIds
            appendToolEvents py result explicit
              (appendEvent py tx .server eventType toolEvent) blockingIds rest
        | _ => .error typeError

/-- The update and the closing event of an outcome. -/
def closeTurn (py : Python) (result : RuntimeResult) (details : StatusDetails)
    (stopReason : StopReason) (tx : Tx) : Tx :=
  let tx := updateSession tx
    { status := some .idle
      statusDetails := some details
      stopReason := some stopReason
      runState := result.runState
      sandboxState := result.sandboxState }
  appendEvent py tx .server "session.status_idle"
    [("type", .str "session.status_idle"),
     ("status", .str SessionStatus.idle.name),
     ("stop_reason", stopReason.toJson py),
     ("usage", .dict (result.usage.getD []))]

def appendFinalText (py : Python) (result : RuntimeResult) (tx : Tx) : Tx :=
  if result.finalText ≠ "" ∧
      ¬ ∃ event ∈ result.toolEvents, Dict.get event "type" = .str "agent.message" then
    appendEvent py tx .server "agent.message"
      [("type", .str "agent.message"),
       ("content", .list [textBlock result.finalText])]
  else tx

/-- The event of an outcome evaluation and the details that record it. -/
def appendEvaluation (py : Python) (evaluation : Option Dict) (tx : Tx) :
    StatusDetails × Tx :=
  let details := withoutRuntimeRetry tx.session.statusDetails
  match evaluation with
  | none => (details, tx)
  | some evaluation =>
      let event := tx.newEvent py .server "span.outcome_evaluation_end"
        (("type", .str "span.outcome_evaluation_end") :: evaluation)
      (withOutcomeEvaluation details (evaluation ++ [("event_id", .str event.id)]),
        appendEvent py tx .server "span.outcome_evaluation_end"
          (("type", .str "span.outcome_evaluation_end") :: evaluation))

def commitOutcome (py : Python) (history : List SessionEvent)
    (result : RuntimeResult) (tx : Tx) : TurnReply :=
  if tx.session.status ≠ .running ∨ isWaitingForAction tx.session.stopReason then
    .returned
  else
    let explicit := result.toolEvents.any requiresConfirmation
    match appendToolEvents py result explicit tx [] result.toolEvents with
    | .error exc => .raised exc
    | .ok (tx, blockingIds) =>
        if result.requiresAction then
          .commit (closeTurn py result
            (withoutRuntimeRetry tx.session.statusDetails)
            (.requiresAction blockingIds) tx)
        else
          match outcomeEvaluationFromHistory py history result with
          | .error error => .raised error.toException
          | .ok evaluation =>
              let evaluated :=
                appendEvaluation py evaluation (appendFinalText py result tx)
              .commit (closeTurn py result evaluated.1 .endTurn evaluated.2)

/-! ## Failure -/

def transientErrorPayload (exc : PyException) (attempt : ℕ) : Dict :=
  [("type", .str "session.error"),
   ("message", .str exc.message),
   ("error_type", .str exc.className),
   ("transient", .bool true),
   ("attempt", .int attempt)]

/-- `int(retry_state.get("attempt") or 0) + 1`. -/
def nextAttempt (details : StatusDetails) : ℕ :=
  match details.runtimeRetry with
  | some retry => retry.attempt + 1
  | none => 1

def microseconds (seconds : ℤ) : ℕ := seconds.toNat * 1000000

def markTransientRuntimeFailure (py : Python) (exc : PyException) (tx : Tx) :
    Except PyError Tx :=
  let attempt := nextAttempt tx.session.statusDetails
  match retryAfterSeconds py exc attempt with
  | .error error => .error error
  | .ok retryAfter =>
      match statusCode py exc with
      | .error error => .error error
      | .ok code =>
          let retryAt := tx.context.now + microseconds retryAfter
          let details :=
            { tx.session.statusDetails with
              runtimeRetry := some
                { attempt := attempt
                  maxAttempts := MAX_TRANSIENT_RETRY_ATTEMPTS
                  retryAfterSeconds := retryAfter
                  retryAt := retryAt
                  error :=
                    { type := exc.className
                      message := exc.message
                      statusCode := code } } }
          if MAX_TRANSIENT_RETRY_ATTEMPTS ≤ attempt then
            let stopReason := StopReason.transientExhausted attempt
              MAX_TRANSIENT_RETRY_ATTEMPTS exc.className
            let tx := updateSession tx
              { status := some .terminated
                statusDetails := some details
                stopReason := some stopReason }
            let tx := appendEvent py tx .server "session.error"
              (transientErrorPayload exc attempt)
            .ok (appendEvent py tx .server "session.status_terminated"
              [("type", .str "session.status_terminated"),
               ("status", .str SessionStatus.terminated.name),
               ("stop_reason", stopReason.toJson py)])
          else
            let stopReason := StopReason.transientError exc.className attempt
              MAX_TRANSIENT_RETRY_ATTEMPTS retryAfter retryAt
            let tx := updateSession tx
              { status := some .rescheduling
                statusDetails := some details
                stopReason := some stopReason }
            let tx := appendEvent py tx .server "session.error"
              (transientErrorPayload exc attempt)
            .ok (appendEvent py tx .server "session.status_rescheduled"
              [("type", .str "session.status_rescheduled"),
               ("status", .str SessionStatus.rescheduling.name),
               ("stop_reason", stopReason.toJson py)])

def failPermanently (py : Python) (exc : PyException) (tx : Tx) : Tx :=
  let stopReason := StopReason.error
  let tx := updateSession tx
    { status := some .terminated, stopReason := some stopReason }
  let tx := appendEvent py tx .server "session.error"
    [("type", .str "session.error"),
     ("message", .str exc.message),
     ("error_type", .str exc.className)]
  appendEvent py tx .server "session.status_terminated"
    [("type", .str "session.status_terminated"),
     ("status", .str SessionStatus.terminated.name),
     ("stop_reason", stopReason.toJson py)]

/-- The `except` block of a turn; an error is an exception it raises itself. -/
def failTurn (py : Python) (exc : PyException) (tx : Tx) : Except PyError Tx :=
  match isTransientRuntimeError py exc with
  | .error error => .error error
  | .ok true => markTransientRuntimeFailure py exc tx
  | .ok false => .ok (failPermanently py exc tx)

/-- The conversions of the handler do not overflow on this exception. -/
def handlesFailure (py : Python) (exc : PyException) (details : StatusDetails) :
    Bool :=
  match isTransientRuntimeError py exc with
  | .error _ => false
  | .ok true => (retryAfterSeconds py exc (nextAttempt details)).toOption.isSome
  | .ok false => true

end ManagedAgents
