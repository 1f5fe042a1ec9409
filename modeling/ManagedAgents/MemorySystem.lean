import ManagedAgents.CommittedStates
import ManagedAgents.Library.ReadCommitted
import ManagedAgents.MemoryRequests

/-!
# Runs of memory requests

Any number of clients send requests to memory stores.  Each request reads
committed states, a later query never an older one, and its statements are
committed together or not at all.
-/

namespace ManagedAgents

open Fallible LabelledRuns ReadCommitted

inductive MemoryRequest
  | createStore (body : MemoryStoreCreateRequest)
  | updateStore (storeId : String) (body : MemoryStoreUpdateRequest)
  | archiveStore (storeId : String)
  | deleteStore (storeId : String)
  | create (storeId : String) (body : MemoryCreateRequest) (viewName : Option String)
  | update (storeId memoryId : String) (body : MemoryUpdateRequest)
      (viewName : Option String)
  | delete (storeId memoryId : String) (expectedContentSha256 : Option String)
  | redact (storeId versionId : String)

/-- The request can add a version row. -/
def MemoryRequest.addsVersion : MemoryRequest → Bool
  | .create .. | .update .. | .delete .. => true
  | .createStore _ | .updateStore .. | .archiveStore _ | .deleteStore _ | .redact .. =>
    false

/-- A request in a workspace with what it draws from outside. -/
structure MemoryCall where
  workspaceId : String
  supply : Supply
  request : MemoryRequest

def MemoryCall.handle (py : Interpreter) (call : MemoryCall) (view : View) :
    Except HTTPException Outcome :=
  match call.request with
  | .createStore body => createMemoryStore py call.supply call.workspaceId body
  | .updateStore storeId body => updateMemoryStore py call.workspaceId storeId body view
  | .archiveStore storeId => archiveMemoryStore call.supply call.workspaceId storeId view
  | .deleteStore storeId => deleteMemoryStore call.supply call.workspaceId storeId view
  | .create storeId body viewName =>
      createMemory py call.supply call.workspaceId storeId body viewName view
  | .update storeId memoryId body viewName =>
      updateMemory py call.supply call.workspaceId storeId memoryId body viewName view
  | .delete storeId memoryId expectedContentSha256 =>
      deleteMemory py call.supply call.workspaceId storeId memoryId
        expectedContentSha256 view
  | .redact storeId versionId =>
      redactMemoryVersion py call.supply call.workspaceId storeId versionId view

/-- The rows after the commit; a request that fails or writes nothing makes
none. -/
def MemoryCall.body (py : Interpreter) (call : MemoryCall) (view : View)
    (current : List Resource) : Option (List Resource) :=
  match call.handle py view with
  | .error _ => none
  | .ok outcome =>
      if outcome.statements = [] then none else commit current outcome.statements

abbrev MemoryWorld := Timeline (List Resource)

/-- No stores yet. -/
def MemoryWorld.start : MemoryWorld where
  current := []
  past := []

def memoryStep (py : Interpreter) (world : MemoryWorld) (label : MemoryCall × List ℕ) :
    Option MemoryWorld :=
  ReadCommitted.step (MemoryCall.body py) world label

theorem MemoryCall.body_eq_some
    {py : Interpreter} {call : MemoryCall} {view : View} {current next : List Resource} :
    call.body py view current = some next ↔
      ∃ outcome, call.handle py view = .ok outcome ∧ outcome.statements ≠ [] ∧
        commit current outcome.statements = some next := by
  unfold MemoryCall.body
  cases call.handle py view with
  | error error => simp
  | ok outcome =>
      by_cases hempty : outcome.statements = [] <;> simp [hempty]

/-! ## A sample store -/

def sampleInterpreter : Interpreter where
  toPython := samplePython
  normalizeNfc := id
  category := fun char => if char.toNat < 32 then "Cc" else "Ll"

def sampleSupply (tag : String) : Supply where
  uuidHex := fun draw => tag ++ toString draw
  clock := fun _ => 0

def sampleCall (tag : String) (request : MemoryRequest) : MemoryCall where
  workspaceId := "wrkspc_default"
  supply := sampleSupply tag
  request := request

def sampleStore : MemoryCall × List ℕ :=
  (sampleCall "a" (.createStore { name := "notes" }), [])

def sampleMemory (tag content : String) (ages : List ℕ) : MemoryCall × List ℕ :=
  (sampleCall tag
    (.create "memstore_a0" { path := .text "/plan", content := some content } none), ages)

def sampleFinalBody : MemoryUpdateRequest :=
  { content := some (some "final") }

def sampleRewrite (tag content : String) (ages : List ℕ) : MemoryCall × List ℕ :=
  (sampleCall tag
    (.update "memstore_a0" "mem_b0" { content := some (some content) } none), ages)

end ManagedAgents
