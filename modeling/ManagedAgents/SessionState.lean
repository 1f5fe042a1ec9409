import ManagedAgents.Python

/-!
# Session states

The status column, the stop reasons and the tests of the session state
machine.  A stop reason is stored as a dictionary; the program writes only the
dictionaries listed here, so they form one inductive type and `toJson` gives
the stored dictionary back.
-/

namespace ManagedAgents

/-- An error response of the API. -/
structure HTTPException where
  statusCode : ℕ
  detail : String
deriving DecidableEq, Repr

inductive SessionStatus
  | idle
  | running
  | rescheduling
  | terminated
deriving DecidableEq, Repr

def SessionStatus.name : SessionStatus → String
  | .idle => "idle"
  | .running => "running"
  | .rescheduling => "rescheduling"
  | .terminated => "terminated"

inductive StopReason
  | endTurn
  | inProgress
  | interrupted
  | cancelled
  | actionSubmitted
  | requiresAction (eventIds : List String)
  | error
  | transientExhausted (attempt : ℕ) (maxAttempts : ℕ) (errorType : String)
  | transientError (errorType : String) (attempt : ℕ) (maxAttempts : ℕ)
      (retryAfterSeconds : ℤ) (retryAt : Time)
deriving DecidableEq, Repr

/-- `stop_reason["type"]`. -/
def StopReason.typeName : StopReason → String
  | .endTurn => "end_turn"
  | .inProgress => "in_progress"
  | .interrupted => "interrupted"
  | .cancelled => "cancelled"
  | .actionSubmitted => "action_submitted"
  | .requiresAction _ => "requires_action"
  | .error => "error"
  | .transientExhausted .. => "error"
  | .transientError .. => "transient_error"

/-- The stored dictionary. -/
def StopReason.toJson (py : Python) (reason : StopReason) : Json :=
  .dict (("type", .str reason.typeName) ::
    match reason with
    | .requiresAction eventIds =>
        [("event_ids", .list (eventIds.map .str))]
    | .transientExhausted attempt maxAttempts errorType =>
        [("transient", .bool true),
         ("attempt", .int attempt),
         ("max_attempts", .int maxAttempts),
         ("error_type", .str errorType)]
    | .transientError errorType attempt maxAttempts retryAfter retryAt =>
        [("error_type", .str errorType),
         ("attempt", .int attempt),
         ("max_attempts", .int maxAttempts),
         ("retry_after_seconds", .int retryAfter),
         ("retry_at", .str (py.isoformat retryAt))]
    | _ => [])

@[simp] theorem StopReason.toJson_type (py : Python) (reason : StopReason) :
    (reason.toJson py).get "type" = .str reason.typeName := by
  simp [StopReason.toJson, Json.get, Dict.get]

/-! ## Tests of the state machine -/

def ACTIVE_STATUSES : List SessionStatus := [.running, .rescheduling]
def RUNNABLE_STATUSES : List SessionStatus := [.idle, .rescheduling]

def USER_EVENTS_THAT_START_WORK : List String :=
  ["user.message", "user.define_outcome"]

def ACTION_RESULT_EVENTS : List String :=
  ["user.custom_tool_result", "user.tool_confirmation", "user.tool_result"]

def stopReasonType (stopReason : Option StopReason) : Option String :=
  stopReason.map StopReason.typeName

def isWaitingForAction (stopReason : Option StopReason) : Bool :=
  stopReasonType stopReason = some "requires_action"

/-- The set of pending ids, as a list. -/
def pendingActionIds (stopReason : Option StopReason) : List String :=
  match stopReason with
  | some (.requiresAction eventIds) => eventIds
  | _ => []

def blocksMutation (status : SessionStatus) : Bool :=
  status ∈ ACTIVE_STATUSES

def canStartWork (status : SessionStatus) (stopReason : Option StopReason) : Bool :=
  status ∈ RUNNABLE_STATUSES && !isWaitingForAction stopReason

def startsWork (eventType : String) : Bool :=
  eventType ∈ USER_EVENTS_THAT_START_WORK

def isActionResult (eventType : String) : Bool :=
  eventType ∈ ACTION_RESULT_EVENTS

theorem isWaitingForAction_iff (stopReason : Option StopReason) :
    isWaitingForAction stopReason = true ↔
      ∃ eventIds, stopReason = some (.requiresAction eventIds) := by
  cases stopReason with
  | none => simp [isWaitingForAction, stopReasonType]
  | some reason =>
      cases reason <;>
        simp [isWaitingForAction, stopReasonType, StopReason.typeName]

@[simp] theorem isWaitingForAction_requiresAction (eventIds : List String) :
    isWaitingForAction (some (.requiresAction eventIds)) = true :=
  (isWaitingForAction_iff _).mpr ⟨eventIds, rfl⟩

@[simp] theorem blocksMutation_iff (status : SessionStatus) :
    blocksMutation status = true ↔
      status = .running ∨ status = .rescheduling := by
  simp [blocksMutation, ACTIVE_STATUSES]

theorem canStartWork_iff
    (status : SessionStatus) (stopReason : Option StopReason) :
    canStartWork status stopReason = true ↔
      (status = .idle ∨ status = .rescheduling) ∧
        isWaitingForAction stopReason = false := by
  simp [canStartWork, RUNNABLE_STATUSES]

@[simp] theorem startsWork_iff (eventType : String) :
    startsWork eventType = true ↔
      eventType = "user.message" ∨ eventType = "user.define_outcome" := by
  simp [startsWork, USER_EVENTS_THAT_START_WORK]

@[simp] theorem isActionResult_iff (eventType : String) :
    isActionResult eventType = true ↔
      eventType = "user.custom_tool_result" ∨
        eventType = "user.tool_confirmation" ∨
          eventType = "user.tool_result" := by
  simp [isActionResult, ACTION_RESULT_EVENTS]

end ManagedAgents
