import ManagedAgents.AgentRequests
import ManagedAgents.Library.ReadCommitted

/-!
# Runs of agent requests

Any number of clients create, update and archive agents.  Each request reads
committed states, a later query never an older one, and its statements are
committed together or not at all.
-/

namespace ManagedAgents

open Fallible LabelledRuns ReadCommitted

inductive AgentRequest
  | create (body : AgentCreateRequest)
  | update (agentId : String) (body : AgentUpdateRequest)
  | archive (agentId : String)

/-- A request with what it draws from outside. -/
structure AgentCall where
  context : AgentContext
  request : AgentRequest

def AgentCall.handle (py : Python) (call : AgentCall) (view : AgentView) :
    Except HTTPException AgentOutcome :=
  match call.request with
  | .create body => createAgent py call.context body view
  | .update agentId body => updateAgent py call.context agentId body view
  | .archive agentId => archiveAgent call.context agentId view

/-- The rows after the commit; a request that fails or writes nothing makes
none. -/
def AgentCall.body (py : Python) (call : AgentCall) (view : AgentView)
    (current : AgentRows) : Option AgentRows :=
  match call.handle py view with
  | .error _ => none
  | .ok outcome =>
      if outcome.statements.isEmpty then none
      else commitAgents current outcome.statements

abbrev AgentWorld := Timeline AgentRows

/-- No agents yet. -/
def AgentWorld.start : AgentWorld where
  current := {}
  past := []

def agentStep (py : Python) (world : AgentWorld) (label : AgentCall × List ℕ) :
    Option AgentWorld :=
  ReadCommitted.step (AgentCall.body py) world label

theorem AgentCall.body_eq_some
    {py : Python} {call : AgentCall} {view : AgentView} {current next : AgentRows} :
    call.body py view current = some next ↔
      ∃ outcome, call.handle py view = .ok outcome ∧ outcome.statements ≠ [] ∧
        commitAgents current outcome.statements = some next := by
  unfold AgentCall.body
  cases call.handle py view with
  | error error => simp
  | ok outcome =>
      by_cases hempty : outcome.statements = [] <;> simp [hempty]

end ManagedAgents
