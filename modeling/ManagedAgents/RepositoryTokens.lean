import ManagedAgents.CredentialResponses
import ManagedAgents.ResourceLimits

/-!
# Tokens of repositories

The authorization token of a repository is checked for being there and then dropped:
requests whose tokens are other ones lead to the same rows, the same errors and the same
responses.
-/

namespace ManagedAgents

open Fallible LabelledRuns ReadCommitted

/-! ## Responses -/

/-- `str(data.get(key) or "")`. -/
def shownText (py : Interpreter) (data : Dict) (key : String) : String :=
  py.str ((Dict.get data key).or (.str ""))

def shownTimes (py : Interpreter) (columns : ShownColumns) (resource : Resource) : Dict :=
  [("created_at", .str (py.isoformat resource.createdAt)),
   ("updated_at", .str (py.isoformat columns.updatedAt))]

/-- `response[key] = data[key]` unless the value is `None`. -/
def setShown (response data : Dict) (key : String) : Dict :=
  if Dict.get data key = .null then response
  else Dict.set response key (Dict.get data key)

def shownFile (py : Interpreter) (columns : ShownColumns) (resource : Resource) : Dict :=
  let fileId := shownText py resource.data "file_id"
  [("id", .str resource.id), ("type", .str "file"), ("file_id", .str fileId),
   ("mount_path", (Dict.get resource.data "mount_path").or
     (.str ("/mnt/session/uploads/" ++ fileId)))] ++ shownTimes py columns resource

/-- `data.get("mount_path") or _default_github_mount_path(str(data.get("url") or ""))`. -/
def shownMountPath (py : Interpreter) (urlPath : UrlPath) (data : Dict) :
    Except HTTPException Json :=
  if (Dict.get data "mount_path").truthy = true then .ok (Dict.get data "mount_path")
  else do
    let name ← githubRepoName urlPath (shownText py data "url")
    return .str ("/workspace/" ++ name)

def shownRepository (py : Interpreter) (urlPath : UrlPath) (columns : ShownColumns)
    (resource : Resource) : Except HTTPException Dict := do
  let mountPath ← shownMountPath py urlPath resource.data
  let response :=
    [("id", .str resource.id), ("type", .str "github_repository"),
     ("url", .str (shownText py resource.data "url")),
     ("mount_path", .str (py.str mountPath))] ++ shownTimes py columns resource
  return setShown response resource.data "checkout"

def shownStore (py : Interpreter) (columns : ShownColumns) (resource : Resource) : Dict :=
  let data := resource.data
  let response :=
    [("id", .str resource.id), ("type", .str "memory_store"),
     ("memory_store_id", .str (shownText py data "memory_store_id")),
     ("access", (Dict.get data "access").or (.str "read_write")),
     ("description", .str (shownText py data "description")),
     ("mount_path", Dict.get data "mount_path"), ("name", Dict.get data "name")] ++
      shownTimes py columns resource
  withoutNulls (setShown response data "instructions")

/-- `session_resource_response`. -/
def sessionResourceResponse (py : Interpreter) (urlPath : UrlPath)
    (columns : ShownColumns) (resource : Resource) : Except HTTPException Dict :=
  let type := Dict.get resource.data "type"
  if type = .str "file" ∨ (Dict.get resource.data "file_id").truthy = true then
    .ok (shownFile py columns resource)
  else if type = .str "github_repository" then
    shownRepository py urlPath columns resource
  else if type = .str "memory_store" then .ok (shownStore py columns resource)
  else
    .ok (Dict.pop (resourceToResponse py columns resource (some "session_resource"))
      "authorization_token")

/-- An item of `_deployment_resources_response`. -/
def deploymentResourceResponse (py : Interpreter) (resource : Dict) : Dict :=
  let text (key : String) : String × Json := (key, .str (shownText py resource key))
  if Dict.get resource "type" = .str "github_repository" then
    setShown (setShown [("type", .str "github_repository"), text "url"] resource
      "mount_path") resource "checkout"
  else if Dict.get resource "type" = .str "file" then
    setShown [("type", .str "file"), text "file_id"] resource "mount_path"
  else if Dict.get resource "type" = .str "memory_store" then
    setShown (setShown [("type", .str "memory_store"), text "memory_store_id"] resource
      "access") resource "instructions"
  else Dict.pop resource "authorization_token"

/-- `_deployment_resources_response`: what is no dictionary is left out. -/
def deploymentResourcesResponse (py : Interpreter) : List Json → List Dict
  | [] => []
  | .dict resource :: rest =>
      deploymentResourceResponse py resource :: deploymentResourcesResponse py rest
  | _ :: rest => deploymentResourcesResponse py rest

/-! ## Bodies with other tokens -/

def hasToken (py : Python) (data : Dict) : Bool :=
  py.str ((Dict.get data "authorization_token").or (.str "")) ≠ ""

/-- The bodies are the same but for the tokens, which both or none of them give. -/
structure AlikeButToken (py : Python) (data other : Dict) : Prop where
  rest : Dict.pop data "authorization_token" = Dict.pop other "authorization_token"
  given : hasToken py data = hasToken py other

inductive AlikeResource (py : Python) : Json → Json → Prop
  | dict {data other : Dict} (halike : AlikeButToken py data other) :
      AlikeResource py (.dict data) (.dict other)
  | same (value : Json) : AlikeResource py value value

inductive AlikeRequest (py : Python) : ResourceRequest → ResourceRequest → Prop
  | create {resources others : List Json}
      (halike : List.Forall₂ (AlikeResource py) resources others) :
      AlikeRequest py (.create resources) (.create others)
  | add {data other : Dict} (halike : AlikeButToken py data other) :
      AlikeRequest py (.add data) (.add other)
  | rotate (resourceId : String) {data other : Dict}
      (halike : AlikeButToken py data other) :
      AlikeRequest py (.rotate resourceId data) (.rotate resourceId other)
  | remove (resourceId : String) :
      AlikeRequest py (.remove resourceId) (.remove resourceId)

/-- The requests differ in tokens only, and their queries see the same states. -/
structure AlikeCall (py : Python) (call other : ResourceCall × List ℕ) : Prop where
  request : AlikeRequest py call.1.request other.1.request
  rest : other = ({ call.1 with request := other.1.request }, call.2)

theorem AlikeButToken.get
    {py : Python} {data other : Dict} (halike : AlikeButToken py data other)
    {key : String} (hkey : "authorization_token" ≠ key) :
    Dict.get data key = Dict.get other key := by
  rw [← Dict.get_pop_other hkey, halike.rest, Dict.get_pop_other hkey]

theorem AlikeButToken.missing_iff
    {py : Python} {data other : Dict} (halike : AlikeButToken py data other) :
    py.str ((Dict.get data "authorization_token").or (.str "")) = "" ↔
      py.str ((Dict.get other "authorization_token").or (.str "")) = "" := by
  have hgiven := halike.given
  unfold hasToken at hgiven
  simpa using hgiven

theorem AlikeResource.get
    {py : Python} {value twin : Json} (halike : AlikeResource py value twin)
    {key : String} (hkey : "authorization_token" ≠ key) :
    value.get key = twin.get key := by
  cases halike with
  | dict halike => exact halike.get hkey
  | same => rfl

/-! ## The same rows and errors -/

section

variable {py : Python} {data other : Dict}

theorem fileSessionResource_alike
    (halike : AlikeButToken py data other) (surroundings : Surroundings)
    (context : FileContext) (session : SessionRef) :
    fileSessionResource py surroundings context session data =
      fileSessionResource py surroundings context session other := by
  unfold fileSessionResource
  rw [halike.get (by decide : _ ≠ "file_id"), halike.get (by decide : _ ≠ "mount_path")]

theorem githubSessionResource_alike
    (halike : AlikeButToken py data other) (urlPath : UrlPath) (now : Time) :
    githubSessionResource py urlPath now data =
      githubSessionResource py urlPath now other := by
  unfold githubSessionResource
  simp only [halike.missing_iff, halike.get (by decide : _ ≠ "url"),
    halike.get (by decide : _ ≠ "mount_path"), halike.get (by decide : _ ≠ "checkout")]

theorem memoryStoreSessionResource_alike
    (halike : AlikeButToken py data other) (surroundings : Surroundings)
    (workspaceId : String) :
    memoryStoreSessionResource py surroundings workspaceId data =
      memoryStoreSessionResource py surroundings workspaceId other := by
  unfold memoryStoreSessionResource
  rw [halike.get (by decide : _ ≠ "memory_store_id"),
    halike.get (by decide : _ ≠ "access"), halike.get (by decide : _ ≠ "instructions")]

theorem rotateSessionResourceToken_alike
    (halike : AlikeButToken py data other) (now : Time) (current : Dict) :
    rotateSessionResourceToken py now current data =
      rotateSessionResourceToken py now current other := by
  unfold rotateSessionResourceToken
  simp only [halike.missing_iff]

end

theorem normalizeSessionResourceData_alike
    {context : AttachmentContext} {value twin : Json}
    (halike : AlikeResource context.py value twin) (surroundings : Surroundings)
    (session : SessionRef) (allowedTypes : List String) (position : ℕ) :
    normalizeSessionResourceData context surroundings session allowedTypes position value =
      normalizeSessionResourceData context surroundings session allowedTypes position
        twin := by
  cases halike with
  | dict halike =>
      unfold normalizeSessionResourceData
      simp only [halike.get (by decide : _ ≠ "type"), fileSessionResource_alike halike,
        githubSessionResource_alike halike, memoryStoreSessionResource_alike halike]
  | same => rfl

theorem createSessionResource_alike
    {context : AttachmentContext} {value twin : Json}
    (halike : AlikeResource context.py value twin) (surroundings : Surroundings)
    (session : SessionRef) (allowedTypes : List String) (position : ℕ)
    (rows : List Resource) :
    createSessionResource context surroundings session allowedTypes position rows value =
      createSessionResource context surroundings session allowedTypes position rows
        twin := by
  unfold createSessionResource checkCapacity
  rw [normalizeSessionResourceData_alike halike, halike.get (by decide : _ ≠ "type")]

theorem createSessionResources_alike
    {context : AttachmentContext} {resources others : List Json}
    (halike : List.Forall₂ (AlikeResource context.py) resources others)
    (surroundings : ℕ → Surroundings) (session : SessionRef) (view : ResourceView)
    (position : ℕ) (created : List Resource) :
    createSessionResources context surroundings session view position created resources =
      createSessionResources context surroundings session view position created
        others := by
  induction halike generalizing position created with
  | nil => rfl
  | cons hvalue hrest ih =>
      unfold createSessionResources
      rw [createSessionResource_alike hvalue]
      simp only [ih]

/-- The loop of a run of a deployment. -/
theorem attachSessionResources_alike
    {context : AttachmentContext} {resources others : List Json}
    (halike : List.Forall₂ (AlikeResource context.py) resources others)
    (surroundings : Surroundings) (session : SessionRef)
    (attached : List SessionResource) :
    attachSessionResources context surroundings session attached resources =
      attachSessionResources context surroundings session attached others := by
  induction halike generalizing attached with
  | nil => rfl
  | cons hvalue hrest ih =>
      unfold attachSessionResources
      rw [attachSessionResource_eq, attachSessionResource_eq,
        normalizeSessionResourceData_alike hvalue]
      unfold checkCapacity
      rw [hvalue.get (by decide : _ ≠ "type")]
      simp only [ih]

theorem ResourceCall.statements_alike
    {settings : ResourceSettings} {call other : ResourceCall × List ℕ}
    (halike : AlikeCall settings.py call other) (view : ResourceView) :
    other.1.statements settings view = call.1.statements settings view := by
  obtain ⟨hrequest, hrest⟩ := halike
  obtain ⟨⟨session, surroundings, draws, request⟩, ages⟩ := call
  obtain ⟨⟨otherSession, otherSurroundings, otherDraws, otherRequest⟩, otherAges⟩ := other
  cases hrest
  dsimp only at hrequest
  unfold ResourceCall.statements
  cases hrequest with
  | create hresources =>
      dsimp only
      rw [@createSessionResources_alike (settings.context draws) _ _ hresources]
  | add hdata =>
      dsimp only
      rw [@createSessionResource_alike (settings.context draws) _ _ (.dict hdata)]
  | rotate resourceId hdata =>
      dsimp only
      simp only [rotateSessionResourceToken_alike hdata]
  | remove resourceId => rfl

theorem resourceTimelineStep_alike
    {settings : ResourceSettings} {call other : ResourceCall × List ℕ}
    (halike : AlikeCall settings.py call other) (timeline : Timeline (List Resource)) :
    resourceTimelineStep settings timeline other =
      resourceTimelineStep settings timeline call := by
  have hages : other.2 = call.2 := by rw [halike.rest]
  unfold resourceTimelineStep ReadCommitted.step ResourceCall.body
  rw [ResourceCall.statements_alike halike, hages]

theorem run_alike
    {settings : ResourceSettings} {calls others : List (ResourceCall × List ℕ)}
    (halike : List.Forall₂ (AlikeCall settings.py) calls others)
    (start : Timeline (List Resource)) :
    run (resourceTimelineStep settings) start others =
      run (resourceTimelineStep settings) start calls := by
  induction halike generalizing start with
  | nil => rfl
  | cons hcall hrest ih =>
      unfold run
      rw [resourceTimelineStep_alike hcall]
      simp only [ih]

/-! ## Responses of deployments -/

theorem deploymentResourceResponse_alike
    {py : Interpreter} {data other : Dict}
    (halike : AlikeButToken py.toPython data other) :
    deploymentResourceResponse py data = deploymentResourceResponse py other := by
  unfold deploymentResourceResponse setShown shownText
  simp only [halike.get (by decide : _ ≠ "type"), halike.get (by decide : _ ≠ "url"),
    halike.get (by decide : _ ≠ "mount_path"), halike.get (by decide : _ ≠ "checkout"),
    halike.get (by decide : _ ≠ "file_id"), halike.get (by decide : _ ≠ "access"),
    halike.get (by decide : _ ≠ "memory_store_id"),
    halike.get (by decide : _ ≠ "instructions"), halike.rest]

theorem deploymentResourcesResponse_alike
    {py : Interpreter} {resources others : List Json}
    (halike : List.Forall₂ (AlikeResource py.toPython) resources others) :
    deploymentResourcesResponse py resources = deploymentResourcesResponse py others := by
  induction halike with
  | nil => rfl
  | @cons value twin rest twins hvalue hrest ih =>
      cases hvalue with
      | dict hdata =>
          unfold deploymentResourcesResponse
          rw [deploymentResourceResponse_alike hdata, ih]
      | same =>
          cases value <;> simp only [deploymentResourcesResponse, ih]

/-! ## No token is stored -/

def Tokenless (data : Dict) : Prop := Dict.contains data "authorization_token" = false

def TokenlessHistory (timeline : Timeline (List Resource)) : Prop :=
  ∀ rows ∈ timeline.history, ∀ row ∈ rows, Tokenless row.data

theorem Tokenless.set
    {data : Dict} (htokenless : Tokenless data) {key : String} {value : Json}
    (hkey : key ≠ "authorization_token") : Tokenless (Dict.set data key value) := by
  unfold Tokenless at htokenless ⊢
  rw [Dict.contains_set_of_ne _ hkey, htokenless]

theorem Tokenless.setShown
    {response : Dict} (htokenless : Tokenless response) (data : Dict) {key : String}
    (hkey : key ≠ "authorization_token") :
    Tokenless (ManagedAgents.setShown response data key) := by
  unfold ManagedAgents.setShown
  split
  · exact htokenless
  · exact htokenless.set hkey

theorem tokenless_pop
    (data : Dict) :
    Tokenless (Dict.pop data "authorization_token") := by
  simp [Tokenless, Dict.contains, Dict.pop]

theorem Tokenless.withoutNulls
    {data : Dict} (htokenless : Tokenless data) :
    Tokenless (ManagedAgents.withoutNulls data) := by
  unfold Tokenless Dict.contains at htokenless ⊢
  rw [List.any_eq_false] at htokenless ⊢
  intro field hfield
  exact htokenless field (List.mem_of_mem_filter hfield)

section

variable {py : Python} {data : Dict} {resource : SessionResource}

theorem fileSessionResource_tokenless
    {surroundings : Surroundings} {context : FileContext} {session : SessionRef}
    (hresource : fileSessionResource py surroundings context session data =
      .ok resource) : Tokenless resource.data := by
  unfold fileSessionResource at hresource
  dsimp only at hresource
  obtain ⟨-, -, hresource⟩ := bind_eq_ok.mp hresource
  split at hresource
  · cases hresource
  next file hfile =>
    obtain ⟨-, -, hresource⟩ := bind_eq_ok.mp hresource
    split at hresource
    · cases hresource
    · cases hresource
    next source storage hsource hstorage =>
      obtain ⟨-, -, hresource⟩ := bind_eq_ok.mp hresource
      cases hresource
      rfl

theorem githubSessionResource_tokenless
    {urlPath : UrlPath} {now : Time}
    (hresource : githubSessionResource py urlPath now data = .ok resource) :
    Tokenless resource.data := by
  unfold githubSessionResource at hresource
  dsimp only at hresource
  obtain ⟨-, -, hresource⟩ := bind_eq_ok.mp hresource
  obtain ⟨-, -, hresource⟩ := bind_eq_ok.mp hresource
  obtain ⟨name, -, hresource⟩ := bind_eq_ok.mp hresource
  obtain ⟨-, -, hresource⟩ := bind_eq_ok.mp hresource
  split at hresource
  · cases hresource
    rfl
  · obtain ⟨checkout, -, hresource⟩ := bind_eq_ok.mp hresource
    cases hresource
    exact Tokenless.set (by rfl) (by decide)

theorem memoryStoreSessionResource_tokenless
    {surroundings : Surroundings} {workspaceId : String}
    (hresource : memoryStoreSessionResource py surroundings workspaceId data =
      .ok resource) : Tokenless resource.data := by
  unfold memoryStoreSessionResource at hresource
  dsimp only at hresource
  obtain ⟨-, -, hresource⟩ := bind_eq_ok.mp hresource
  split at hresource
  · cases hresource
  next store hstore =>
    obtain ⟨-, -, hresource⟩ := bind_eq_ok.mp hresource
    obtain ⟨-, -, hresource⟩ := bind_eq_ok.mp hresource
    split at hresource
    · cases hresource
      rfl
    · obtain ⟨-, -, hresource⟩ := bind_eq_ok.mp hresource
      cases hresource
      exact Tokenless.set (by rfl) (by decide)

end

theorem normalizeSessionResourceData_tokenless
    {context : AttachmentContext} {surroundings : Surroundings} {session : SessionRef}
    {allowedTypes : List String} {position : ℕ} {value : Json}
    {resource : SessionResource}
    (hresource : normalizeSessionResourceData context surroundings session allowedTypes
      position value = .ok resource) : Tokenless resource.data := by
  unfold normalizeSessionResourceData at hresource
  split at hresource
  next fields =>
    dsimp only at hresource
    split at hresource
    · cases hresource
    split at hresource
    · exact fileSessionResource_tokenless hresource
    split at hresource
    · exact githubSessionResource_tokenless hresource
    split at hresource
    · exact memoryStoreSessionResource_tokenless hresource
    · cases hresource
  next => cases hresource

theorem createSessionResource_tokenless
    {context : AttachmentContext} {surroundings : Surroundings} {session : SessionRef}
    {allowedTypes : List String} {position : ℕ} {rows : List Resource} {value : Json}
    {row : Resource}
    (hrow : createSessionResource context surroundings session allowedTypes position rows
      value = .ok row) : Tokenless row.data := by
  unfold createSessionResource at hrow
  dsimp only at hrow
  obtain ⟨-, -, hrow⟩ := bind_eq_ok.mp hrow
  obtain ⟨-, -, hrow⟩ := bind_eq_ok.mp hrow
  obtain ⟨resource, hresource, hrow⟩ := bind_eq_ok.mp hrow
  cases hrow
  exact normalizeSessionResourceData_tokenless hresource

theorem createSessionResources_tokenless
    {context : AttachmentContext} {surroundings : ℕ → Surroundings} {session : SessionRef}
    {view : ResourceView} {position : ℕ} {created rows : List Resource}
    {resources : List Json}
    (hrows : createSessionResources context surroundings session view position created
      resources = .ok rows) (hcreated : ∀ row ∈ created, Tokenless row.data) :
    ∀ row ∈ rows, Tokenless row.data := by
  induction resources generalizing position created with
  | nil =>
      cases hrows
      exact hcreated
  | cons data rest ih =>
      unfold createSessionResources at hrows
      obtain ⟨row, hrow, hrest⟩ := bind_eq_ok.mp hrows
      refine ih hrest ?_
      intro other hother
      rcases List.mem_append.mp hother with hother | hother
      · exact hcreated other hother
      · obtain rfl := List.mem_singleton.mp hother
        exact createSessionResource_tokenless hrow

/-- What the statement writes has the property. -/
def Statement.WritesData (property : Dict → Prop) : Statement → Prop
  | .insert row => property row.data
  | .update _ columns => ∀ data ∈ columns.data, property data

theorem commit_data
    {property : Dict → Prop} {rows next : List Resource} {statements : List Statement}
    (hrows : ∀ row ∈ rows, property row.data)
    (hstatements : ∀ statement ∈ statements, statement.WritesData property)
    (hcommit : commit rows statements = some next) : ∀ row ∈ next, property row.data := by
  induction statements generalizing rows with
  | nil =>
      cases hcommit
      exact hrows
  | cons statement rest ih =>
      obtain ⟨hwrites, hlater⟩ := List.forall_mem_cons.mp hstatements
      cases statement with
      | insert row =>
          obtain ⟨-, hcommit⟩ := commit_insert.mp hcommit
          refine ih ?_ hlater hcommit
          intro other hother
          rcases List.mem_append.mp hother with hother | hother
          · exact hrows other hother
          · obtain rfl := List.mem_singleton.mp hother
            exact hwrites
      | update resourceId columns =>
          rw [commit_update] at hcommit
          refine ih ?_ hlater hcommit
          intro other hother
          rcases mem_updateRow.mp hother with ⟨hother, -⟩ | ⟨old, hold, -, rfl⟩
          · exact hrows other hother
          · cases hdata : columns.data with
            | none => simpa [Columns.write, hdata] using hrows old hold
            | some data => simpa [Columns.write, hdata] using hwrites data hdata

theorem rotateSessionResourceToken_tokenless
    {py : Python} {now : Time} {current data rotated : Dict}
    (hrotated : rotateSessionResourceToken py now current data = .ok rotated) :
    Tokenless rotated := by
  unfold rotateSessionResourceToken at hrotated
  dsimp only at hrotated
  obtain ⟨-, -, hrotated⟩ := bind_eq_ok.mp hrotated
  obtain ⟨-, -, hrotated⟩ := bind_eq_ok.mp hrotated
  cases hrotated
  exact tokenless_pop _

theorem ResourceCall.statements_tokenless
    {settings : ResourceSettings} {call : ResourceCall} {view : ResourceView}
    {statements : List Statement}
    (hstatements : call.statements settings view = .ok statements) :
    ∀ statement ∈ statements, statement.WritesData Tokenless := by
  obtain ⟨session, surroundings, draws, request⟩ := call
  cases request with
  | create resources =>
      obtain ⟨rows, hrows, hdone⟩ := bind_eq_ok.mp hstatements
      cases hdone
      intro statement hstatement
      obtain ⟨row, hrow, rfl⟩ := List.mem_map.mp hstatement
      exact createSessionResources_tokenless hrows (by simp) row hrow
  | add data =>
      obtain ⟨row, hrow, hdone⟩ := bind_eq_ok.mp hstatements
      cases hdone
      exact List.forall_mem_singleton.mpr (createSessionResource_tokenless hrow)
  | rotate resourceId data =>
      obtain ⟨held, -, hdone⟩ := bind_eq_ok.mp hstatements
      obtain ⟨rotated, hrotated, hdone⟩ := bind_eq_ok.mp hdone
      cases hdone
      refine List.forall_mem_singleton.mpr fun data hdata => ?_
      split at hdata
      · cases hdata
      · cases hdata
        exact rotateSessionResourceToken_tokenless hrotated
  | remove resourceId =>
      obtain ⟨held, -, hdone⟩ := bind_eq_ok.mp hstatements
      obtain ⟨-, -, hdone⟩ := bind_eq_ok.mp hdone
      cases hdone
      refine List.forall_mem_singleton.mpr fun data hdata => ?_
      cases hdata

theorem run_tokenless
    {settings : ResourceSettings} {start last : Timeline (List Resource)}
    {calls : List (ResourceCall × List ℕ)}
    (hstart : TokenlessHistory start)
    (hrun : run (resourceTimelineStep settings) start calls = some last) :
    TokenlessHistory last := by
  refine run_invariant ?_ hstart hrun
  intro timeline call next htimeline hstep
  obtain ⟨-, rfl | ⟨rows, hbody, rfl⟩⟩ := step_cases hstep
  · exact htimeline
  · refine List.forall_mem_cons.mpr ⟨?_, htimeline⟩
    unfold ResourceCall.body at hbody
    split at hbody
    next statements hstatements =>
      exact commit_data (htimeline _ List.mem_cons_self)
        (ResourceCall.statements_tokenless hstatements) hbody
    next => cases hbody

/-! ## No token is shown -/

theorem sessionResourceResponse_tokenless
    {py : Interpreter} {urlPath : UrlPath} {columns : ShownColumns} {resource : Resource}
    {response : Dict}
    (hresponse : sessionResourceResponse py urlPath columns resource = .ok response) :
    Tokenless response := by
  unfold sessionResourceResponse at hresponse
  dsimp only at hresponse
  split at hresponse
  · cases hresponse
    rfl
  split at hresponse
  · unfold shownRepository at hresponse
    obtain ⟨mountPath, -, hresponse⟩ := bind_eq_ok.mp hresponse
    cases hresponse
    exact Tokenless.setShown (by rfl) _ (by decide)
  split at hresponse
  · cases hresponse
    exact (Tokenless.setShown (by rfl) _ (by decide)).withoutNulls
  · cases hresponse
    exact tokenless_pop _

theorem deploymentResourcesResponse_tokenless
    (py : Interpreter) (resources : List Json) :
    ∀ response ∈ deploymentResourcesResponse py resources, Tokenless response := by
  induction resources with
  | nil => simp [deploymentResourcesResponse]
  | cons value rest ih =>
      cases value with
      | dict resource =>
          refine List.forall_mem_cons.mpr ⟨?_, ih⟩
          unfold deploymentResourceResponse
          dsimp only
          split
          · exact (Tokenless.setShown (by rfl) _ (by decide)).setShown _ (by decide)
          split
          · exact Tokenless.setShown (by rfl) _ (by decide)
          split
          · exact (Tokenless.setShown (by rfl) _ (by decide)).setShown _ (by decide)
          · exact tokenless_pop _
      | _ => exact ih

/-! ## Tokens are unseen -/

/-- Nothing that is stored or shown depends on the tokens of the requests. -/
structure TokensUnseen (settings : ResourceSettings)
    (start last : Timeline (List Resource))
    (calls others : List (ResourceCall × List ℕ)) :
    Prop where
  run : run (resourceTimelineStep settings) start others = some last
  outcomes : List.Forall₂ (fun call other => ∀ view,
    other.1.statements settings view = call.1.statements settings view) calls others
  stored : TokenlessHistory last
  shown : ∀ py urlPath columns resource response,
    sessionResourceResponse py urlPath columns resource = .ok response →
      Tokenless response
  attached : ∀ (context : AttachmentContext) (surroundings : Surroundings)
    (session : SessionRef) (attached : List SessionResource)
    (resources twins : List Json),
    List.Forall₂ (AlikeResource context.py) resources twins →
      attachSessionResources context surroundings session attached resources =
        attachSessionResources context surroundings session attached twins
  deployments : ∀ (py : Interpreter) (resources twins : List Json),
    List.Forall₂ (AlikeResource py.toPython) resources twins →
      deploymentResourcesResponse py resources = deploymentResourcesResponse py twins ∧
        ∀ response ∈ deploymentResourcesResponse py resources, Tokenless response

/-- Requests with other tokens run to the same rows with the same errors, and no row and
no response holds a token. -/
theorem repository_tokens_unseen
    {settings : ResourceSettings} {start last : Timeline (List Resource)}
    {calls others : List (ResourceCall × List ℕ)}
    (halike : List.Forall₂ (AlikeCall settings.py) calls others)
    (hstart : TokenlessHistory start)
    (hrun : run (resourceTimelineStep settings) start calls = some last) :
    TokensUnseen settings start last calls others where
  run := by rw [run_alike halike, hrun]
  outcomes := halike.imp fun _ _ hcall view => ResourceCall.statements_alike hcall view
  stored := run_tokenless hstart hrun
  shown := fun _ _ _ _ _ => sessionResourceResponse_tokenless
  attached := fun _ surroundings session attached _ _ hresources =>
    attachSessionResources_alike hresources surroundings session attached
  deployments := fun py resources _ hresources =>
    ⟨deploymentResourcesResponse_alike hresources,
      deploymentResourcesResponse_tokenless py resources⟩

/-- A repository is attached, and its token is rotated. -/
def sampleRepositoryCalls (first second : String) : List (ResourceCall × List ℕ) :=
  let call (request : ResourceRequest) : ResourceCall :=
    { session := sampleSession
      surroundings := fun _ => sampleSurroundings
      draws := sampleResourceDraws
      request := request }
  [(call (.create
      [.dict [("type", .str "github_repository"),
        ("url", .str "https://git.example.com/team/app.git"),
        ("authorization_token", .str first)]]), []),
   (call (.rotate "sesrsc_a" [("authorization_token", .str second)]), [])]

def sampleRepositoryRun : Option (Timeline (List Resource)) :=
  run (resourceTimelineStep sampleResourceSettings) emptyResources
    (sampleRepositoryCalls "first" "second")

theorem sample_repository_tokens :
    TokensUnseen sampleResourceSettings emptyResources
      (sampleRepositoryRun.get (by decide)) (sampleRepositoryCalls "first" "second")
      (sampleRepositoryCalls "third" "fourth") := by
  refine repository_tokens_unseen (.cons ⟨?_, rfl⟩ (.cons ⟨?_, rfl⟩ .nil)) ?_
    (Option.some_get _).symm
  · refine .create (.cons (.dict ⟨by decide, by decide⟩) .nil)
  · exact .rotate _ ⟨by decide, by decide⟩
  · intro rows hrows row hrow
    obtain rfl := List.mem_singleton.mp hrows
    cases hrow

end ManagedAgents
