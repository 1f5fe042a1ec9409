import ManagedAgents.Metadata
import ManagedAgents.ResourceWrites

/-!
# Environments

The requests that create, update, archive and delete environments.  A scope is kept
inside the configuration, under a key of its own, and the names of a workspace are
unique, those of deleted environments included.
-/

namespace ManagedAgents

open Fallible

/-! ## Configurations -/

/-- `value not in allowed`, which raises `TypeError` for a list or a dictionary. -/
def requireMember (value : Json) (allowed : List Json) (message : String) :
    Except HTTPException Unit :=
  match value with
  | .list _ | .dict _ => .error internalServerError
  | _ => raiseIf (value ∉ allowed) ⟨422, message⟩

/-- `fields.get(key, default)`. -/
def getDefault (fields : Dict) (key : String) (default : Json) : Json :=
  if Dict.contains fields key then Dict.get fields key else default

/-- The check of an optional value: `None` passes. -/
def unlessNull (value : Json) (check : Json → Except HTTPException Unit) :
    Except HTTPException Unit :=
  if value = .null then .ok () else check value

def validateObject (field : String) (check : Dict → Except HTTPException Unit)
    (value : Json) : Except HTTPException Unit :=
  match value with
  | .dict fields => check fields
  | _ => .error ⟨422, field ++ " must be an object"⟩

/-- `value <= 0` is false of a number that is none. -/
def isPositiveNumber : Json → Bool
  | .int value => 0 < value
  | .float .nan => true
  | .float (.inf negative) => !negative
  | .float (.finite value) => 0 < value
  | _ => false

def validatePositiveNumber (field : String) (value : Json) : Except HTTPException Unit :=
  raiseIf (isPositiveNumber value = false) ⟨422, field ++ " must be a positive number"⟩

def isNonEmptyText : Json → Bool
  | .str text => strip text ≠ ""
  | _ => false

def validateStringList (field : String) (value : Json) : Except HTTPException Unit :=
  let message := field ++ " must be an array of non-empty strings"
  match value with
  | .list items => raiseIf (items.all isNonEmptyText = false) ⟨422, message⟩
  | _ => .error ⟨422, message⟩

def validateBoolean (field : String) (value : Json) : Except HTTPException Unit :=
  match value with
  | .bool _ => .ok ()
  | _ => .error ⟨422, field ++ " must be a boolean"⟩

/-- The same check of several fields of an object. -/
def validateFields (fields : Dict) (keys : List String) (path : String)
    (check : String → Json → Except HTTPException Unit) : Except HTTPException Unit :=
  keys.forM fun key => unlessNull (Dict.get fields key) (check (path ++ "." ++ key))

def validateNetworking (value : Json) : Except HTTPException Unit :=
  unlessNull value <| validateObject "environment config.networking" fun networking => do
    requireMember (Dict.get networking "type")
      [.str "unrestricted", .str "restricted", .str "limited", .str "none", .null]
      "environment config.networking.type is unsupported"
    unlessNull (Dict.get networking "allowed_hosts")
      (validateStringList "environment config.networking.allowed_hosts")
    validateFields networking ["allow_mcp_servers", "allow_package_managers"]
      "environment config.networking" validateBoolean

def validatePackages (value : Json) : Except HTTPException Unit :=
  unlessNull value <| validateObject "environment config.packages" fun packages =>
    validateFields packages ["apt", "cargo", "gem", "go", "npm", "pip"]
      "environment config.packages" validateStringList

def validateResources (value : Json) : Except HTTPException Unit :=
  unlessNull value <| validateObject "environment config.resources" fun resources =>
    validateFields resources ["cpu", "memory_mb", "disk_mb", "timeout_seconds"]
      "environment config.resources" validatePositiveNumber

def validateLimitObject (field : String) (allowedKeys : List String) (value : Json) :
    Except HTTPException Unit :=
  unlessNull value <| validateObject field fun limits =>
    validateFields limits allowedKeys field validatePositiveNumber

def validateSandbox (value : Json) : Except HTTPException Unit :=
  unlessNull value <| validateObject "environment config.sandbox" fun sandbox => do
    requireMember (Dict.get sandbox "backend")
      [.null, .str "unix_local", .str "self_hosted_worker", .str "unconfigured_cloud"]
      "environment config.sandbox.backend is unsupported"
    match Dict.get sandbox "root" with
    | .null | .str _ => pure ()
    | _ => throw ⟨422, "environment config.sandbox.root must be a string"⟩
    validateLimitObject "environment config.sandbox.concurrency_limits"
      ["manifest_entries", "local_dir_files"] (Dict.get sandbox "concurrency_limits")
    validateLimitObject "environment config.sandbox.archive_limits"
      ["max_input_bytes", "max_extracted_bytes", "max_members"]
      (Dict.get sandbox "archive_limits")

def configType (config : Dict) : Json := getDefault config "type" (.str "cloud")

def validateEnvironmentConfig (config : Dict) : Except HTTPException Unit := do
  requireMember (configType config) [.str "cloud", .str "self_hosted", .str "local"]
    "environment config.type must be cloud, self_hosted, or local"
  validateNetworking (Dict.get config "networking")
  validatePackages (Dict.get config "packages")
  validateResources (Dict.get config "resources")
  validateSandbox (Dict.get config "sandbox")

/-! ## Scopes -/

inductive EnvironmentScope
  | organization
  | account
deriving DecidableEq, Repr

def EnvironmentScope.name : EnvironmentScope → String
  | .organization => "organization"
  | .account => "account"

/-- `dict(config or {"type": "cloud"})`. -/
def configOrCloud (config : Dict) : Dict :=
  if config = [] then [("type", .str "cloud")] else config

def environmentConfigWithScope (config : Dict) (scope : Option EnvironmentScope) :
    Except HTTPException Dict :=
  match scope with
  | none => .ok (configOrCloud config)
  | some scope =>
      if configType (configOrCloud config) ≠ .str "self_hosted" then
        .error ⟨422, "environment scope is only supported for self_hosted environments"⟩
      else .ok (Dict.set (configOrCloud config) "_scope" (.str scope.name))

/-- Membership in a set raises `TypeError` for a list or a dictionary. -/
def environmentScope (config : Dict) : Except HTTPException (Option EnvironmentScope) :=
  match Dict.get config "_scope" with
  | .list _ | .dict _ => .error internalServerError
  | .str text =>
      if text = "organization" then .ok (some .organization)
      else if text = "account" then .ok (some .account)
      else .ok none
  | _ => .ok none

/-! ## Requests -/

structure ManagedEnvironment where
  id : String
  workspaceId : String
  name : String
  description : String
  config : Dict
  metadata : Dict
  archivedAt : Option Time := none
  deletedAt : Option Time := none
deriving DecidableEq

structure EnvironmentCreateRequest where
  name : String
  description : Option String := none
  config : Option Dict := some [("type", .str "cloud")]
  metadata : Dict := []
  scope : Option EnvironmentScope := none

structure EnvironmentUpdateRequest where
  name : Option String := none
  description : Option String := none
  config : Option Dict := none
  metadata : Option Dict := none
  scope : Option EnvironmentScope := none

inductive EnvironmentRequest
  | create (body : EnvironmentCreateRequest)
  | update (environmentId : String) (body : EnvironmentUpdateRequest)
  | archive (environmentId : String)
  | delete (environmentId : String)

structure EnvironmentCall where
  workspaceId : String
  uuidHex : String
  now : Time
  request : EnvironmentRequest

def findEnvironment (rows : List ManagedEnvironment)
    (workspaceId environmentId : String) :
    Option ManagedEnvironment :=
  rows.find? fun row => row.id = environmentId ∧ row.workspaceId = workspaceId

def mustGetEnvironment (rows : List ManagedEnvironment)
    (workspaceId environmentId : String) : Except HTTPException ManagedEnvironment :=
  match findEnvironment rows workspaceId environmentId with
  | none => .error ⟨404, "Environment not found"⟩
  | some row =>
      if row.deletedAt ≠ none then .error ⟨404, "Environment not found"⟩ else .ok row

def normalizeEnvironmentName (value : String) : Except HTTPException String :=
  if strip value = "" then .error ⟨422, "environment name must be a non-empty string"⟩
  else .ok (strip value)

def createdEnvironment (call : EnvironmentCall) (body : EnvironmentCreateRequest) :
    Except HTTPException ManagedEnvironment := do
  (body.config.map validateEnvironmentConfig).getD (.ok ())
  let name ← normalizeEnvironmentName body.name
  let config ← environmentConfigWithScope (body.config.getD []) body.scope
  let metadata ← normalizeMetadata (.dict body.metadata)
  return {
    id := "env_" ++ call.uuidHex
    workspaceId := call.workspaceId
    name := name
    description := body.description.getD ""
    config := config
    metadata := metadata }

/-- The new configuration, if the update writes one. -/
def updatedConfig (held : Dict) (body : EnvironmentUpdateRequest) :
    Except HTTPException (Option Dict) :=
  match body.scope, body.config with
  | some scope, config =>
      let given := config.getD []
      some <$> environmentConfigWithScope (if given = [] then held else given)
        (some scope)
  | none, some config => do
      let scope ← environmentScope held
      some <$> environmentConfigWithScope config scope
  | none, none => .ok none

def updatedEnvironment (rows : List ManagedEnvironment) (call : EnvironmentCall)
    (environmentId : String) (body : EnvironmentUpdateRequest) :
    Except HTTPException ManagedEnvironment := do
  (body.config.map validateEnvironmentConfig).getD (.ok ())
  let held ← mustGetEnvironment rows call.workspaceId environmentId
  let name ← body.name.mapM normalizeEnvironmentName
  let config ← updatedConfig held.config body
  let metadata ← body.metadata.mapM fun patch =>
    mergeMetadata (.dict held.metadata) (.dict patch)
  return { held with
    name := name.getD held.name
    description := body.description.getD held.description
    config := config.getD held.config
    metadata := metadata.getD held.metadata }

/-- The row which the request writes, or its error response. -/
def EnvironmentCall.written (rows : List ManagedEnvironment) (call : EnvironmentCall) :
    Except HTTPException ManagedEnvironment :=
  match call.request with
  | .create body => createdEnvironment call body
  | .update environmentId body => updatedEnvironment rows call environmentId body
  | .archive environmentId => do
      let held ← mustGetEnvironment rows call.workspaceId environmentId
      return { held with archivedAt := some call.now }
  | .delete environmentId => do
      let held ← mustGetEnvironment rows call.workspaceId environmentId
      return { held with deletedAt := some call.now }

/-! ## The table -/

/-- `uq_environments_workspace_name`. -/
def sameName (row other : ManagedEnvironment) : Bool :=
  row.workspaceId = other.workspaceId ∧ row.name = other.name

def EnvironmentRequest.creates : EnvironmentRequest → Bool
  | .create _ => true
  | .update .. | .archive _ | .delete _ => false

/-- The flush violates the primary key or the unique constraint. -/
def violates (rows : List ManagedEnvironment) (creates : Bool)
    (row : ManagedEnvironment) : Bool :=
  if creates then rows.any fun other => other.id = row.id ∨ sameName row other
  else rows.any fun other => other.id ≠ row.id ∧ sameName row other

def writeEnvironment (rows : List ManagedEnvironment) (creates : Bool)
    (row : ManagedEnvironment) : List ManagedEnvironment :=
  if creates then rows ++ [row]
  else rows.map fun other => if other.id = row.id then row else other

/-- The response shows the scope, which a list or a dictionary under its key breaks;
the one to a deletion does not show it. -/
def EnvironmentRequest.rendered (request : EnvironmentRequest)
    (row : ManagedEnvironment) :
    Bool :=
  match request, environmentScope row.config with
  | .delete _, _ => true
  | _, .ok _ => true
  | _, .error _ => false

inductive EnvironmentAnswer
  | accepted (row : ManagedEnvironment)
  | refused (error : HTTPException)
  /-- An `IntegrityError` which nothing catches. -/
  | integrityError
  /-- A `TypeError` after the commit. -/
  | unrendered (row : ManagedEnvironment)
deriving DecidableEq

def EnvironmentCall.answer (rows : List ManagedEnvironment) (call : EnvironmentCall) :
    EnvironmentAnswer :=
  match call.written rows with
  | .error error => .refused error
  | .ok row =>
      if violates rows call.request.creates row then .integrityError
      else if call.request.rendered row then .accepted row
      else .unrendered row

/-- The rows after the request. -/
def EnvironmentCall.after (rows : List ManagedEnvironment) (call : EnvironmentCall) :
    List ManagedEnvironment :=
  match call.answer rows with
  | .accepted row | .unrendered row => writeEnvironment rows call.request.creates row
  | .refused _ | .integrityError => rows

def environmentStep (rows : List ManagedEnvironment) (call : EnvironmentCall) :
    Option (List ManagedEnvironment) :=
  some (call.after rows)

end ManagedAgents
