import ManagedAgents.AgentContract
import ManagedAgents.Runtime.Errors

/-!
# Reading a session's history

What a turn reads from the events it loaded: the latest user input, the
latest action result, the outcome the user defined, and the conversation that
is handed to the model.  Every reader scans from the newest event back.
-/

namespace ManagedAgents

/-! ## Results and texts -/

structure RuntimeResult where
  finalText : String
  toolEvents : List Dict := []
  requiresAction : Bool := false
  runState : Option Dict := none
  sandboxState : Option Dict := none
  usage : Option Dict := none

/-- The text of one block of a content list. -/
def blockText : Json → Option String
  | .dict fields =>
      match Dict.get fields "text" with
      | .str text => some text
      | _ => none
  | .str text => some text
  | _ => none

def textFromPayload (payload : Dict) : String :=
  match Dict.get payload "content" with
  | .str content => content
  | .list blocks => "\n".intercalate (blocks.filterMap blockText)
  | _ =>
      match (Dict.get payload "text").or (Dict.get payload "message") with
      | .str text => text
      | _ => ""

/-! ## Outcomes -/

structure OutcomeSpec where
  objective : String
  rubric : Json
  maxIterations : ℤ

def outcomeMaxIterations (py : Python) (payload : Dict) : Except PyError ℤ :=
  let requested :=
    ((Dict.get payload "max_iterations").or (Dict.get payload "max_turns")).or
      (.int 3)
  match py.int requested with
  | .ok iterations => .ok (min (max iterations 1) 20)
  | .error .overflowError => .error .overflowError
  | .error _ => .ok 3

def outcomeObjective (py : Python) (payload : Dict) : String :=
  py.str
    (((((Dict.get payload "description").or (Dict.get payload "objective")).or
      (Dict.get payload "goal")).or (Dict.get payload "name")).or
        (Json.or (.str (textFromPayload payload))
          (.str "Complete the requested outcome.")))

def outcomeSpec (py : Python) (payload : Dict) : Except PyError OutcomeSpec :=
  match outcomeMaxIterations py payload with
  | .error error => .error error
  | .ok maxIterations =>
      .ok
        { objective := outcomeObjective py payload
          rubric :=
            ((Dict.get payload "rubric").or (Dict.get payload "criteria")).or
              (Dict.get payload "success_criteria")
          maxIterations := maxIterations }

def outcomePrompt (py : Python) (payload : Dict) : Except PyError String :=
  match outcomeSpec py payload with
  | .error error => .error error
  | .ok outcome =>
      .ok
        (if outcome.rubric.truthy then
          outcome.objective ++ "\nRubric: " ++ py.str outcome.rubric
        else outcome.objective)

def OutcomeSpec.toJson (outcome : OutcomeSpec) : Json :=
  .dict
    [("objective", .str outcome.objective),
     ("rubric", outcome.rubric),
     ("max_iterations", .int outcome.maxIterations)]

/-! ## The latest input -/

/-- The newest event of the history that satisfies the test. -/
def latestEvent (test : SessionEvent → Bool) (history : List SessionEvent) :
    Option SessionEvent :=
  history.reverse.find? test

def isUserEvent (event : SessionEvent) : Bool :=
  startswith event.type "user."

def isUserInput (event : SessionEvent) : Bool :=
  event.type = "user.message" || event.type = "user.define_outcome"

def isOutcomeEvent (event : SessionEvent) : Bool :=
  event.type = "user.define_outcome"

def latestUserActionEvent (history : List SessionEvent) : Option SessionEvent :=
  (latestEvent isUserEvent history).filter fun event =>
    event.type ∈ ACTION_RESULT_EVENTS

/-- The text of an input event: the part of `_latest_user_text` which returns. -/
def userInputText (py : Python) (event : SessionEvent) : Except PyError String :=
  if event.type = "user.message" then .ok (textFromPayload event.payload)
  else outcomePrompt py event.payload

def latestUserText (py : Python) (history : List SessionEvent) :
    Except PyError String :=
  match latestEvent isUserInput history with
  | some event => userInputText py event
  | none => .ok ""

def latestOutcomeEvent (history : List SessionEvent) : Option SessionEvent :=
  latestEvent isOutcomeEvent history

/-- `_outcome_evaluation_from_history`. -/
def outcomeEvaluationFromHistory (py : Python) (history : List SessionEvent)
    (result : RuntimeResult) : Except PyError (Option Dict) :=
  match latestOutcomeEvent history with
  | none => .ok none
  | some event =>
      match outcomeSpec py event.payload with
      | .error error => .error error
      | .ok outcome =>
          let passed : Bool := strip result.finalText ≠ ""
          .ok (some
            [("outcome", outcome.toJson),
             ("result", .dict
               [("type", .str "deterministic_local_grader"),
                ("passed", .bool passed),
                ("score", .float (.finite (if passed then 1 else 0))),
                ("summary", .str
                  (if passed then "Final response was produced."
                    else "No final response was produced."))]),
             ("grader_context", .dict
               [("type", .str "local_deterministic"),
                ("max_iterations", .int outcome.maxIterations),
                ("rubric", outcome.rubric)])])

/-! ## The conversation for the model -/

structure OpenAIInputItem where
  role : String
  content : String
deriving DecidableEq

def openaiInputItem (event : SessionEvent) : Option OpenAIInputItem :=
  let text := textFromPayload event.payload
  if text = "" then none
  else if event.type = "user.message" then
    some { role := "user", content := text }
  else if event.type = "agent.message" then
    some { role := "assistant", content := text }
  else none

def historyToOpenaiInput (history : List SessionEvent) : List OpenAIInputItem :=
  match history.filterMap openaiInputItem with
  | [] => [{ role := "user", content := "" }]
  | items => items

/-- The last item of the user's side. -/
def lastUserItem (items : List OpenAIInputItem) : Option OpenAIInputItem :=
  items.reverse.find? fun item => item.role = "user"

/-! ## The effective agent -/

/-- `_effective_agent_version`: the pinned version under the session overlay. -/
def effectiveAgentVersion (version : AgentVersion) (details : StatusDetails) :
    AgentVersion :=
  let overlay := details.agent.getD {}
  { version with
    tools := overlay.tools.getD version.tools
    mcpServers := overlay.mcpServers.getD version.mcpServers }

/-! ## Scans over a split history -/

theorem latestEvent_append
    (test : SessionEvent → Bool) (older newer : List SessionEvent) :
    latestEvent test (older ++ newer) =
      (latestEvent test newer).or (latestEvent test older) := by
  unfold latestEvent
  rw [List.reverse_append, List.find?_append]

theorem latestEvent_eq_none_iff
    {test : SessionEvent → Bool} {history : List SessionEvent} :
    latestEvent test history = none ↔ ∀ event ∈ history, test event = false := by
  unfold latestEvent
  simp [List.find?_eq_none]

theorem latestEvent_some
    {test : SessionEvent → Bool} {history : List SessionEvent}
    {event : SessionEvent} (hlatest : latestEvent test history = some event) :
    event ∈ history ∧ test event = true := by
  unfold latestEvent at hlatest
  have hmem := List.mem_of_find?_eq_some hlatest
  exact ⟨List.mem_reverse.mp hmem, List.find?_some hlatest⟩

end ManagedAgents
