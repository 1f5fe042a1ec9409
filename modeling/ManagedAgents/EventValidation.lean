import ManagedAgents.SessionState

/-!
# Validation of event batches

The shape rules for `system.message` and the fields of
`user.define_outcome`.
-/

namespace ManagedAgents

def SYSTEM_MESSAGE_PREDECESSORS : List String :=
  ["user.custom_tool_result", "user.message", "user.tool_result"]

def MAX_OUTCOME_RUBRIC_TEXT_CHARS : ℕ := 262144
def MAX_OUTCOME_ITERATIONS : ℕ := 20

/-- The positions of `system.message` in the batch. -/
def systemIndexes (eventTypes : List String) : List ℕ :=
  (List.range eventTypes.length).filter fun index =>
    eventTypes[index]? = some "system.message"

def validateSystemMessageBatch (eventTypes : List String) :
    Except HTTPException Unit :=
  match systemIndexes eventTypes with
  | [] => .ok ()
  | [systemIndex] =>
      if systemIndex ≠ eventTypes.length - 1 then
        .error ⟨422, "system.message must be the final event in the request"⟩
      else if systemIndex = 0 ∨
          ¬ ∃ predecessor ∈ eventTypes[systemIndex - 1]?,
            predecessor ∈ SYSTEM_MESSAGE_PREDECESSORS then
        .error ⟨422, "system.message must immediately follow user.message, " ++
          "user.tool_result, or user.custom_tool_result"⟩
      else .ok ()
  | _ :: _ :: _ =>
      .error ⟨422, "At most one system.message event is allowed per request"⟩

def validateRubric (rubric : Dict) : Except HTTPException Unit :=
  if Dict.get rubric "type" = .str "text" then
    match Dict.get rubric "content" with
    | .str content =>
        if content = "" then
          .error ⟨422, "user.define_outcome rubric.content must be a non-empty string"⟩
        else if content.length > MAX_OUTCOME_RUBRIC_TEXT_CHARS then
          .error ⟨422, "user.define_outcome rubric.content is too long"⟩
        else .ok ()
    | _ => .error ⟨422, "user.define_outcome rubric.content must be a non-empty string"⟩
  else if Dict.get rubric "type" = .str "file" then
    match Dict.get rubric "file_id" with
    | .str fileId =>
        if fileId = "" then
          .error ⟨422, "user.define_outcome rubric.file_id must be a non-empty string"⟩
        else .ok ()
    | _ => .error ⟨422, "user.define_outcome rubric.file_id must be a non-empty string"⟩
  else .error ⟨422, "user.define_outcome rubric.type must be \"text\" or \"file\""⟩

/-- An `OverflowError` of `int(...)` is not caught and ends the request. -/
def validateMaxIterations (py : Python) (value : Json) :
    Except HTTPException Unit :=
  match py.int value with
  | .ok maxIterations =>
      if maxIterations < 1 ∨ maxIterations > MAX_OUTCOME_ITERATIONS then
        .error ⟨422, "user.define_outcome max_iterations must be between 1 and 20"⟩
      else .ok ()
  | .error .overflowError => .error ⟨500, "Internal Server Error"⟩
  | .error _ => .error ⟨422, "user.define_outcome max_iterations must be an integer"⟩

def validateUserDefineOutcomeEvent (py : Python) (payload : Dict) :
    Except HTTPException Unit := do
  match (Dict.get payload "description").or (Dict.get payload "objective") with
  | .str description =>
      if strip description = "" then
        throw ⟨422, "user.define_outcome requires a non-empty description"⟩
  | _ => throw ⟨422, "user.define_outcome requires a non-empty description"⟩
  match Dict.get payload "rubric" with
  | .dict rubric => validateRubric rubric
  | _ => throw ⟨422, "user.define_outcome requires a rubric object"⟩
  if Dict.get payload "max_iterations" = .null then
    return ()
  else
    validateMaxIterations py (Dict.get payload "max_iterations")

end ManagedAgents
