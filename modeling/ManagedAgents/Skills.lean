import ManagedAgents.Agents
import ManagedAgents.ChildRequests
import ManagedAgents.Files
import ManagedAgents.Library.ReadCommitted

/-!
# Skills

The endpoints that write skills and their versions.  A version is numbered by the
clock in microseconds, or follows the number that the skill names as its latest.
-/

namespace ManagedAgents

open Fallible ReadCommitted

/-- What `_skill_payload_from_request` makes of a body: its fields and the archive. -/
structure SkillPayload where
  data : Dict
  content : List UInt8

/-- The workspace, the settings and the clocks of a request. -/
structure SkillContext where
  workspaceId : String
  supply : Supply
  timeNs : ℤ
  maxSkillArchiveBytes : ℤ
  objectStorage : Bool

def findSkill (workspaceId skillId : String) (view : View) :
    Except HTTPException Resource :=
  match getResource (view 0) skillId (skillQuery workspaceId) with
  | some skill => .ok skill
  | none => .error ⟨404, "Skill not found"⟩

def enforceSkillArchiveSize (maxBytes : ℤ) (content : List UInt8) :
    Except HTTPException Unit :=
  raiseIf (maxBytes > 0 ∧ (content.length : ℤ) > maxBytes)
    ⟨413, "Skill archive exceeds maximum size of " ++ toString maxBytes ++ " bytes"⟩

/-- Only an infinite number makes `int` raise something that is not caught. -/
def newSkillVersionId (py : Python) (timeNs : ℤ) (previous : Json) :
    Except HTTPException ℤ :=
  let candidate := timeNs / 1000
  match py.int (previous.or (.int 0)) with
  | .ok previousVersion => .ok (max candidate (previousVersion + 1))
  | .error .overflowError => .error internalServerError
  | .error .typeError | .error .valueError => .ok (max candidate 1)

def skillVersionData (versionNumber : ℤ) (data : Dict) : Dict :=
  [("version", .int versionNumber),
   ("files", if Dict.contains data "files" then Dict.get data "files" else .list []),
   ("archive_format", .str "zip"),
   ("name", Dict.get data "name"),
   ("description", Dict.get data "description"),
   ("top_level_directory", Dict.get data "top_level_directory"),
   ("manifest", Dict.get data "manifest")]

def createSkillVersionResource (context : SkillContext) (draw : ℕ) (skillId : String)
    (versionNumber : ℤ) (payload : SkillPayload) : Except HTTPException Resource := do
  enforceSkillArchiveSize context.maxSkillArchiveBytes payload.content
  validateUploadContent "Skill archive" payload.content
  raiseIf (!context.objectStorage) storageNotConfigured
  return createResource context.supply draw draw context.workspaceId .skillVersion
    (some skillId) (some versionNumber) none (skillVersionData versionNumber payload.data)

def skillData (data : Dict) (versionNumber : ℤ) : Dict :=
  [("display_title", Dict.get data "display_title"),
   ("name", Dict.get data "name"),
   ("description", Dict.get data "description"),
   ("top_level_directory", Dict.get data "top_level_directory"),
   ("latest_version", .int versionNumber)]

def createSkill (py : Python) (context : SkillContext)
    (body : Except HTTPException SkillPayload) : Except HTTPException Outcome := do
  let payload ← body
  let versionNumber ← newSkillVersionId py context.timeNs .null
  let name ← nameOr
    ((Dict.get payload.data "display_title").or (Dict.get payload.data "name")) none
  let skill := createResource context.supply 0 0 context.workspaceId .skill none none name
    (skillData payload.data versionNumber)
  let version ← createSkillVersionResource context 1 skill.id versionNumber payload
  return { statements := [.insert skill, .insert version], shown := skill }

def createSkillVersion (py : Python) (context : SkillContext) (skillId : String)
    (body : Except HTTPException SkillPayload) (view : View) :
    Except HTTPException Outcome := do
  let skill ← findSkill context.workspaceId skillId view
  let payload ← body
  let versionNumber ←
    newSkillVersionId py context.timeNs (Dict.get skill.data "latest_version")
  let version ← createSkillVersionResource context 0 skill.id versionNumber payload
  let (_, changed) :=
    updateResource skill (Dict.set skill.data "latest_version" (.int versionNumber)) none
  return { statements := [.insert version, changed], shown := version }

def deleteSkill (context : SkillContext) (skillId : String) (view : View) :
    Except HTTPException Outcome := do
  let skill ← findSkill context.workspaceId skillId view
  let (shown, deleted) := deleteResource skill (context.supply.clock 0)
  return { statements := [deleted], shown := shown }

/-! ## Requests -/

inductive SkillRequest
  | create (body : Except HTTPException SkillPayload)
  | createVersion (skillId : String) (body : Except HTTPException SkillPayload)
  | delete (skillId : String)
  | deleteVersion (skillId : String) (version : ℤ)

structure SkillCall where
  context : SkillContext
  request : SkillRequest

def SkillCall.handle (py : Python) (call : SkillCall) (view : View) :
    Except HTTPException Outcome :=
  match call.request with
  | .create body => createSkill py call.context body
  | .createVersion skillId body => createSkillVersion py call.context skillId body view
  | .delete skillId => deleteSkill call.context skillId view
  | .deleteVersion skillId version =>
      deleteSkillVersion call.context.supply call.context.workspaceId skillId version view

/-- The rows after the commit; a request that fails makes none. -/
def SkillCall.body (py : Python) (call : SkillCall) (view : View)
    (current : List Resource) : Option (List Resource) :=
  match call.handle py view with
  | .error _ => none
  | .ok outcome => commit current outcome.statements

theorem SkillCall.body_eq_some
    {py : Python} {call : SkillCall} {view : View} {current next : List Resource} :
    call.body py view current = some next ↔
      ∃ outcome, call.handle py view = .ok outcome ∧
        commit current outcome.statements = some next := by
  unfold SkillCall.body
  cases call.handle py view with
  | error error => simp
  | ok outcome => simp

abbrev SkillWorld := Timeline (List Resource)

/-- No skills yet. -/
def SkillWorld.start : SkillWorld where
  current := []
  past := []

def skillStep (py : Python) (world : SkillWorld) (label : SkillCall × List ℕ) :
    Option SkillWorld :=
  ReadCommitted.step (SkillCall.body py) world label

end ManagedAgents
