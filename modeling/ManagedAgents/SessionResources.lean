import ManagedAgents.Library.ReadCommitted
import ManagedAgents.SessionAttachments

/-!
# Rows of session resources

A session gets its resources when it is created, by a request or by the run of a
deployment; files are added and resources are removed later.  The limits are checked
on the newest resources of the session.
-/

namespace ManagedAgents

open Fallible ReadCommitted

abbrev ResourceView := ℕ → List Resource

/-- What the requests share: the interpreter and the parser of addresses. -/
structure ResourceSettings where
  py : Python
  urlPath : UrlPath

/-- What a request draws for the resource at a position. -/
structure ResourceDraws where
  files : ℕ → FileContext
  clock : ℕ → Time

def ResourceSettings.context (settings : ResourceSettings) (draws : ResourceDraws) :
    AttachmentContext where
  py := settings.py
  urlPath := settings.urlPath
  files := draws.files
  clock := draws.clock

/-! ## Creating a resource -/

/-- In the order of `sorted(allowed_types)`. -/
def SESSION_RESOURCE_TYPES : List String := ["file", "github_repository", "memory_store"]

def normalizeSessionResourceData (context : AttachmentContext)
    (surroundings : Surroundings) (session : SessionRef) (allowedTypes : List String)
    (position : ℕ) : Json → Except HTTPException SessionResource
  | .dict fields =>
      let resourceType := context.py.str ((Dict.get fields "type").or (.str ""))
      if resourceType ∉ allowedTypes then
        .error ⟨422, "Session resource type must be one of: " ++
          ", ".intercalate allowedTypes⟩
      else if resourceType = "file" then
        fileSessionResource context.py surroundings
          (context.files position) session fields
      else if resourceType = "github_repository" then
        githubSessionResource context.py context.urlPath (context.clock position) fields
      else if resourceType = "memory_store" then
        memoryStoreSessionResource context.py surroundings session.workspaceId fields
      else .error ⟨422, "Unsupported session resource type: " ++ resourceType⟩
  | _ => .error ⟨422, "Session resource must be an object"⟩

/-- The page on which the resources of a session are counted. -/
def attachedResources (rows : List Resource) (session : SessionRef) :
    List SessionResource :=
  (listResources rows (sessionResourceQuery session.workspaceId session.id) 1000).map
    fun row => { name := row.name, data := row.data }

def createSessionResource (context : AttachmentContext) (surroundings : Surroundings)
    (session : SessionRef) (allowedTypes : List String) (position : ℕ)
    (rows : List Resource) (data : Json) : Except HTTPException Resource := do
  let attached := attachedResources rows session
  checkCapacity attached data "file" MAX_SESSION_FILE_RESOURCES
    "A session can have at most 100 file resources"
  checkCapacity attached data "memory_store" MAX_SESSION_MEMORY_STORE_RESOURCES
    "A session can have at most 8 memory store resources"
  let resource ← normalizeSessionResourceData context surroundings session allowedTypes
    position data
  return createResource (context.files position).supply.toSupply 2 2 session.workspaceId
    .sessionResource (some session.id) none resource.name resource.data

/-- The loop over the resources of a new session.  A query finds the rows which the
loop has written before. -/
def createSessionResources (context : AttachmentContext)
    (surroundings : ℕ → Surroundings) (session : SessionRef) (view : ResourceView) :
    (position : ℕ) → (created : List Resource) → List Json →
      Except HTTPException (List Resource)
  | _, created, [] => .ok created
  | position, created, data :: rest => do
      let row ← createSessionResource context (surroundings position) session
        SESSION_RESOURCE_TYPES position (view position ++ created) data
      createSessionResources context surroundings session view (position + 1)
        (created ++ [row]) rest

/-- The resources of a run are attached in the same way. -/
theorem attachSessionResource_eq
    (context : AttachmentContext) (surroundings : Surroundings) (session : SessionRef)
    (attached : List SessionResource) (data : Json) :
    attachSessionResource context surroundings session attached data = (do
      checkCapacity attached data "file" MAX_SESSION_FILE_RESOURCES
        "A session can have at most 100 file resources"
      checkCapacity attached data "memory_store" MAX_SESSION_MEMORY_STORE_RESOURCES
        "A session can have at most 8 memory store resources"
      normalizeSessionResourceData context surroundings session SESSION_RESOURCE_TYPES
        attached.length data) := by
  unfold attachSessionResource normalizeSessionResourceData
  congr 1
  funext _
  congr 1
  funext _
  cases data with
  | dict fields =>
      dsimp only
      generalize context.py.str ((Dict.get fields "type").or (.str "")) = resourceType
      by_cases hfile : resourceType = "file"
      · subst hfile
        rfl
      by_cases hgithub : resourceType = "github_repository"
      · subst hgithub
        rfl
      by_cases hstore : resourceType = "memory_store"
      · subst hstore
        rfl
      have hother : resourceType ∉ SESSION_RESOURCE_TYPES := by
        simp [SESSION_RESOURCE_TYPES, hfile, hgithub, hstore]
      rw [if_neg hfile, if_neg hgithub, if_neg hstore, if_pos hother]
      rfl
  | _ => rfl

/-! ## Requests for single resources -/

def findSessionResource (rows : List Resource) (session : SessionRef)
    (resourceId : String) : Except HTTPException Resource :=
  match getResource rows resourceId
      (sessionResourceQuery session.workspaceId session.id) with
  | some resource => .ok resource
  | none => .error ⟨404, "Session resource not found"⟩

def rotateSessionResourceToken (py : Python) (now : Time) (current data : Dict) :
    Except HTTPException Dict := do
  raiseIf (Dict.get current "type" ≠ .str "github_repository")
    ⟨422, "Only github_repository session resources support token rotation"⟩
  let token := py.str ((Dict.get data "authorization_token").or (.str ""))
  raiseIf (token = "") ⟨422, "authorization_token is required"⟩
  let current := Dict.set current "authorization_token_present" (.bool true)
  let current := Dict.set current "authorization_token_updated_at"
    (.str (py.isoformat now))
  return Dict.pop current "authorization_token"

def ensureSessionResourceDeletable (data : Dict) : Except HTTPException Unit :=
  raiseIf (Dict.get data "type" = .str "memory_store")
    ⟨422, "memory_store session resources cannot be removed after creation"⟩

inductive ResourceRequest
  | create (resources : List Json)
  | add (data : Dict)
  | rotate (resourceId : String) (data : Dict)
  | remove (resourceId : String)

/-- A request for a session which it has found, or which it makes after its other
checks; and what the request finds and draws for each resource. -/
structure ResourceCall where
  session : SessionRef
  surroundings : ℕ → Surroundings
  draws : ResourceDraws
  request : ResourceRequest

/-- The statements on the rows of session resources. -/
def ResourceCall.statements (settings : ResourceSettings) (call : ResourceCall)
    (view : ResourceView) : Except HTTPException (List Statement) :=
  match call.request with
  | .create resources => do
      let rows ← createSessionResources (settings.context call.draws) call.surroundings
        call.session view 0 [] resources
      return rows.map .insert
  | .add data => do
      let row ← createSessionResource (settings.context call.draws)
        (call.surroundings 0) call.session ["file"] 0 (view 0) (.dict data)
      return [.insert row]
  | .rotate resourceId data => do
      let resource ← findSessionResource (view 0) call.session resourceId
      let rotated ← rotateSessionResourceToken settings.py (call.draws.clock 0)
        resource.data data
      return [(updateResource resource rotated none).2]
  | .remove resourceId => do
      let resource ← findSessionResource (view 0) call.session resourceId
      ensureSessionResourceDeletable resource.data
      return [(deleteResource resource (call.draws.clock 0)).2]

def ResourceCall.body (settings : ResourceSettings) (call : ResourceCall)
    (view : ResourceView) (current : List Resource) : Option (List Resource) :=
  match call.statements settings view with
  | .ok statements => commit current statements
  | .error _ => none

/-- Requests whose queries see committed rows. -/
def resourceTimelineStep (settings : ResourceSettings)
    (timeline : Timeline (List Resource))
    (call : ResourceCall × List ℕ) : Option (Timeline (List Resource)) :=
  ReadCommitted.step (ResourceCall.body settings) timeline call

end ManagedAgents
