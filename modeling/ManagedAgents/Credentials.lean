import ManagedAgents.JsonText
import ManagedAgents.Memories

/-!
# Vault credentials

The stored data of a credential: how a body becomes the stored dictionary, how
an update is merged into the one before, and which values are encrypted or
purged.
-/

namespace ManagedAgents

/-! ## Secret values -/

def SECRET_VALUE_KEYS : List String :=
  ["access_token", "api_key", "apikey", "client_secret", "password", "private_key",
   "refresh_token", "secret_value", "token"]

/-- `key.lower().replace("-", "_")` as far as ASCII words can see it; the Kelvin
sign is the one other character whose lower case is an ASCII letter. -/
def normalizedKey (key : String) : List Char :=
  key.toList.map fun char =>
    if char = '-' then '_'
    else if char = Char.ofNat 0x212A then 'k'
    else lowerChar char

def isSecretKey (key : String) : Bool :=
  normalizedKey key ∈ SECRET_VALUE_KEYS.map String.toList ||
    "_token".toList.isSuffixOf (normalizedKey key) ||
    "_api_key".toList.isSuffixOf (normalizedKey key)

def ENCRYPTED_PREFIX : String := "enc:v1:"

/-- The configured key, the random bytes and the cipher. -/
structure SecretCipher where
  encryptionKey : Except PyError (Option (List UInt8))
  nonce : ℕ → List UInt8
  aesgcmEncrypt : (key nonce plaintext : List UInt8) → List UInt8

def base64Char (value : ℕ) : Char :=
  "ABCDEFGHIJKLMNOPQRSTUVWXYZabcdefghijklmnopqrstuvwxyz0123456789+/".toList.getD value 'A'

/-- `base64.b64encode(data).decode("ascii")`. -/
def b64encode : List UInt8 → List Char
  | [] => []
  | [first] =>
      let bits := first.toNat * 16
      [base64Char (bits / 64), base64Char (bits % 64), '=', '=']
  | [first, second] =>
      let bits := (first.toNat * 256 + second.toNat) * 4
      [base64Char (bits / 4096), base64Char (bits / 64 % 64), base64Char (bits % 64), '=']
  | first :: second :: third :: rest =>
      let bits := (first.toNat * 256 + second.toNat) * 256 + third.toNat
      base64Char (bits / 262144) :: base64Char (bits / 4096 % 64) ::
        base64Char (bits / 64 % 64) :: base64Char (bits % 64) :: b64encode rest

/-- Computations which draw nonces. -/
abbrev Encrypting := StateT ℕ (Except HTTPException)

def encryptSecret (cipher : SecretCipher) (value : String) : Encrypting String :=
    fun draw =>
  match cipher.encryptionKey with
  | .error _ => .error internalServerError
  | .ok none => .ok (value, draw)
  | .ok (some key) =>
      if startswith value ENCRYPTED_PREFIX then .ok (value, draw)
      else
        let nonce := cipher.nonce draw
        let ciphertext := cipher.aesgcmEncrypt key nonce (utf8 value)
        .ok (ENCRYPTED_PREFIX ++ String.ofList (b64encode (nonce ++ ciphertext)),
          draw + 1)

/-- The text under a secret key. -/
def secretText (key : String) : Json → Option String
  | .str value => if isSecretKey key then some value else none
  | _ => none

mutual

/-- `_walk`. -/
def walk (transform : String → Encrypting String) : Json → Encrypting Json
  | .list items => do return .list (← walkItems transform items)
  | .dict fields => do return .dict (← walkFields transform fields)
  | value => return value

def walkItems (transform : String → Encrypting String) :
    List Json → Encrypting (List Json)
  | [] => return []
  | item :: rest => do
      let item ← walk transform item
      return item :: (← walkItems transform rest)

def walkFields (transform : String → Encrypting String) :
    List (String × Json) → Encrypting (List (String × Json))
  | [] => return []
  | (key, child) :: rest => do
      let child ←
        match secretText key child with
        | some value => Json.str <$> transform value
        | none => walk transform child
      return (key, child) :: (← walkFields transform rest)

end

def encryptSecretValues (cipher : SecretCipher) (value : Dict) : Encrypting Dict :=
  walkFields (encryptSecret cipher) value

mutual

def purgeSecretValues : Json → Json
  | .list items => .list (purgeSecretItems items)
  | .dict fields => .dict (purgeSecretFields fields)
  | value => value

def purgeSecretItems : List Json → List Json
  | [] => []
  | item :: rest => purgeSecretValues item :: purgeSecretItems rest

def purgeSecretFields : List (String × Json) → List (String × Json)
  | [] => []
  | (key, child) :: rest =>
      (key, if isSecretKey key then .null else purgeSecretValues child) ::
        purgeSecretFields rest

end

def purgeCredentialSecretData (py : Interpreter) (now : Time) (data : Dict) : Dict :=
  Dict.set (purgeSecretFields data) "secrets_purged_at" (.str (py.isoformat now))

/-! ## The fields of `auth` -/

def CREDENTIAL_AUTH_TYPES : List String :=
  ["environment_variable", "mcp_oauth", "static_bearer"]

def CREDENTIAL_TOKEN_ENDPOINT_AUTH_TYPES : List String :=
  ["client_secret_basic", "client_secret_post", "none"]

/-- `value in types`, which raises `TypeError` for a list or a dictionary. -/
def memberText (value : Json) (types : List String) (message : String) :
    Except HTTPException String :=
  match value with
  | .str text => if text ∈ types then .ok text else .error ⟨422, message⟩
  | .list _ | .dict _ => .error internalServerError
  | _ => .error ⟨422, message⟩

def credentialAuthType (auth : Dict) : Except HTTPException String :=
  memberText (Dict.get auth "type") CREDENTIAL_AUTH_TYPES
    "credential auth type must be environment_variable, mcp_oauth, or static_bearer"

def stringCredentialValue (value : Json) (field : String) :
    Except HTTPException String :=
  match value with
  | .str text => .ok text
  | _ => .error ⟨422, field ++ " must be a string"⟩

def requireCredentialString (data : Dict) (field authType : String) :
    Except HTTPException Dict :=
  if Dict.get data field = .null then
    .error ⟨422, authType ++ "." ++ field ++ " is required"⟩
  else do
    let value ← stringCredentialValue (Dict.get data field) (authType ++ "." ++ field)
    return Dict.set data field (.str value)

/-- A field which may be absent must be a text. -/
def optionalCredentialString (data : Dict) (field authType : String) :
    Except HTTPException Dict :=
  if Dict.get data field = .null then .ok data
  else do
    let value ← stringCredentialValue (Dict.get data field) (authType ++ "." ++ field)
    return Dict.set data field (.str value)

def isBareHostname : Json → Bool
  | .str host => host ≠ "" && '/' ∉ host.toList && ':' ∉ host.toList
  | _ => false

def normalizeCredentialNetworking : Json → Except HTTPException Dict
  | .dict value =>
      if Dict.get value "type" = .str "unrestricted" then
        .ok [("type", .str "unrestricted")]
      else if Dict.get value "type" ≠ .str "limited" then
        .error ⟨422,
          "environment_variable.networking.type must be limited or unrestricted"⟩
      else
        match Dict.get value "allowed_hosts" with
        | .list hosts =>
            if hosts.length > 16 then
              .error ⟨422,
                "environment_variable.networking.allowed_hosts supports at most 16 hosts"⟩
            else if hosts.all isBareHostname then
              .ok [("type", .str "limited"), ("allowed_hosts", .list hosts)]
            else
              .error ⟨422,
                "environment_variable.networking.allowed_hosts entries must be bare hostnames"⟩
        | _ =>
            .error ⟨422, "environment_variable.networking.allowed_hosts must be an array"⟩
  | _ => .error ⟨422, "environment_variable.networking must be an object"⟩

def normalizeTokenEndpointAuth : Json → Except HTTPException Dict
  | .dict auth => do
      let authType ← memberText (Dict.get auth "type") CREDENTIAL_TOKEN_ENDPOINT_AUTH_TYPES
        "mcp_oauth.refresh.token_endpoint_auth.type must be client_secret_basic, client_secret_post, or none"
      if authType ≠ "none" ∧ Dict.get auth "client_secret" ≠ .null then
        let secret ← stringCredentialValue (Dict.get auth "client_secret")
          "mcp_oauth.refresh.token_endpoint_auth.client_secret"
        return [("type", .str authType), ("client_secret", .str secret)]
      else return [("type", .str authType)]
  | _ => .error ⟨422, "mcp_oauth.refresh.token_endpoint_auth must be an object"⟩

def normalizeOauthRefresh : Json → Except HTTPException Dict
  | .dict refresh => do
      let refresh ← requireCredentialString refresh "client_id" "mcp_oauth.refresh"
      let refresh ← requireCredentialString refresh "refresh_token" "mcp_oauth.refresh"
      let refresh ← requireCredentialString refresh "token_endpoint" "mcp_oauth.refresh"
      let auth ← normalizeTokenEndpointAuth (Dict.get refresh "token_endpoint_auth")
      let refresh := Dict.set refresh "token_endpoint_auth" (.dict auth)
      let refresh ← optionalCredentialString refresh "resource" "mcp_oauth.refresh"
      optionalCredentialString refresh "scope" "mcp_oauth.refresh"
  | _ => .error ⟨422, "mcp_oauth.refresh must be an object"⟩

def normalizeEnvironmentVariable (auth : Dict) : Except HTTPException Dict := do
  let auth ← requireCredentialString auth "secret_name" "environment_variable"
  let auth ← optionalCredentialString auth "secret_value" "environment_variable"
  let networking ← normalizeCredentialNetworking
    ((Dict.get auth "networking").or (.dict [("type", .str "unrestricted")]))
  return Dict.set auth "networking" (.dict networking)

def normalizeStaticBearer (auth : Dict) : Except HTTPException Dict := do
  let auth ← requireCredentialString auth "mcp_server_url" "static_bearer"
  optionalCredentialString auth "token" "static_bearer"

def normalizeMcpOauth (py : Interpreter) (auth : Dict) : Except HTTPException Dict := do
  let auth ← requireCredentialString auth "mcp_server_url" "mcp_oauth"
  let auth ← optionalCredentialString auth "access_token" "mcp_oauth"
  let auth :=
    if Dict.get auth "expires_at" = .null then auth
    else Dict.set auth "expires_at" (.str (py.str (Dict.get auth "expires_at")))
  if Dict.get auth "refresh" = .null then return auth
  else
    let refresh ← normalizeOauthRefresh (Dict.get auth "refresh")
    return Dict.set auth "refresh" (.dict refresh)

def normalizeCredentialAuth (py : Interpreter) : Json → Except HTTPException Dict
  | .dict auth => do
      let authType ← credentialAuthType auth
      let auth := Dict.set auth "type" (.str authType)
      if authType = "environment_variable" then normalizeEnvironmentVariable auth
      else if authType = "static_bearer" then normalizeStaticBearer auth
      else normalizeMcpOauth py auth
  | _ => .error ⟨422, "credential auth must be an object"⟩

/-! ## The stored dictionary -/

def displayNameFromData (data : Dict) (resourceName : String) (required : Bool) :
    Except HTTPException (Option String) :=
  match (Dict.get data "display_name").or (Dict.get data "name") with
  | .null =>
      if required then .error ⟨422, resourceName ++ " display_name is required"⟩
      else .ok none
  | .str name =>
      if name = "" then .error ⟨422, resourceName ++ " display_name must not be empty"⟩
      else if name.length > MAX_DISPLAY_NAME_CHARS then
        .error ⟨422, resourceName ++ " display_name must be at most 255 characters"⟩
      else .ok (some name)
  | _ => .error ⟨422, resourceName ++ " display_name must be a string"⟩

def legacyCredentialAuth (authType : String) (data : Dict) : Dict :=
  if authType = "static_bearer" then
    [("type", .str "static_bearer"),
     ("mcp_server_url",
       (Dict.get data "mcp_server_url").or (.str "https://example.invalid/mcp")),
     ("token", ((Dict.get data "token").or (Dict.get data "api_key")).or (.str ""))]
  else if authType = "environment_variable" then
    [("type", .str "environment_variable"),
     ("secret_name",
       ((Dict.get data "secret_name").or (Dict.get data "name")).or (.str "SECRET")),
     ("secret_value", (Dict.get data "secret_value").or (.str "")),
     ("networking",
       (Dict.get data "networking").or (.dict [("type", .str "unrestricted")]))]
  else
    [("type", .str "mcp_oauth"),
     ("mcp_server_url",
       (Dict.get data "mcp_server_url").or (.str "https://example.invalid/mcp")),
     ("access_token", (Dict.get data "access_token").or (.str "")),
     ("expires_at", Dict.get data "expires_at"),
     ("refresh", Dict.get data "refresh")]

def withDisplayName (data : Dict) : Option String → Dict
  | none => data
  | some name =>
      Dict.setdefault (Dict.set data "display_name" (.str name)) "name" (.str name)

/-- The flat form of the body is turned into an `auth` object. -/
def withAuth (py : Interpreter) (data : Dict) : Dict :=
  if Dict.contains data "auth" then data
  else
    let authType :=
      if Dict.contains data "type" then py.str (Dict.get data "type") else "mcp_oauth"
    let data := Dict.pop data "type"
    Dict.set data "auth" (.dict (legacyCredentialAuth authType data))

def normalizeCredentialData (py : Interpreter) (cipher : SecretCipher) (data : Dict) :
    Except HTTPException Dict := do
  let displayName ← displayNameFromData data "credential" false
  let normalized := withAuth py (withDisplayName data displayName)
  let auth ← normalizeCredentialAuth py (Dict.get normalized "auth")
  let (auth, _) ← encryptSecretValues cipher auth 0
  let normalized := Dict.set normalized "auth" (.dict auth)
  let metadata ← normalizeMetadata (Dict.get normalized "metadata")
  return Dict.set normalized "metadata" (.dict metadata)

/-! ## Updates -/

/-- One round of the loop of `_merge_oauth_refresh`. -/
def mergeRefreshField (merged : Dict) (field : String × Json) : Dict :=
  match field.2, Dict.get merged "token_endpoint_auth" with
  | .dict given, .dict held =>
      if field.1 = "token_endpoint_auth" ∧
          Json.equal (Dict.get held "type") (Dict.get given "type") then
        Dict.set merged "token_endpoint_auth"
          (.dict (Dict.update held (given.filter fun child => child.2 ≠ .null)))
      else Dict.set merged field.1 field.2
  | .null, _ => merged
  | value, _ => Dict.set merged field.1 value

def mergeOauthRefresh (existing patch : Dict) : Dict :=
  patch.foldl mergeRefreshField existing

/-- One round of the loop of `_merge_credential_auth`. -/
def mergeAuthField (merged : Dict) (field : String × Json) : Dict :=
  match field.2, Dict.get merged "refresh" with
  | .dict given, .dict held =>
      if field.1 = "refresh" then
        Dict.set merged "refresh" (.dict (mergeOauthRefresh held given))
      else Dict.set merged field.1 field.2
  | .null, _ =>
      if field.1 ∈ ["expires_at", "refresh"] then Dict.set merged field.1 .null else merged
  | value, _ => Dict.set merged field.1 value

def mergeCredentialAuth (existing : Json) (patch : Dict) : Except HTTPException Dict := do
  let authType ← credentialAuthType patch
  let existingAuth ← toDict existing
  let existingType := Dict.get existingAuth "type"
  Fallible.raiseIf (existingType.truthy = true ∧ existingType ≠ .str authType)
    ⟨422, "credential auth type is immutable"⟩
  return patch.foldl mergeAuthField existingAuth

/-- `_merge_resource_update` of a credential. -/
def mergeCredentialUpdate (existing update : Dict) : Except HTTPException Dict :=
  if Dict.contains update "auth" then
    match Dict.get update "auth" with
    | .dict authPatch => do
        let merged ← mergeData existing (Dict.pop update "auth")
        let auth ← mergeCredentialAuth (Dict.get existing "auth") authPatch
        return Dict.set merged "auth" (.dict auth)
    | _ => .error ⟨422, "credential auth must be an object"⟩
  else mergeData existing update

/-! ## Validation -/

/-- `validation` with the clock reading in ISO format and its keys in order. -/
def credentialValidationPayload (py : Interpreter) (now : Time) (credential : Resource)
    (vaultId : String) : Dict :=
  let auth := (Dict.get credential.data "auth").or (.dict [])
  [("credential_id", .str credential.id),
   ("has_refresh_token", .bool (auth.get "refresh").truthy),
   ("mcp_probe", .null),
   ("refresh", .null),
   ("status", .str "unknown"),
   ("type", .str "vault_credential_validation"),
   ("validated_at", .str (py.isoformat now)),
   ("vault_id", .str vaultId)]

/-- The data with the validation as a text in its metadata. -/
def validatedCredentialData (py : Interpreter) (now : Time) (credential : Resource)
    (vaultId : String) : Except HTTPException Dict := do
  let metadata ← toDict (Dict.get credential.data "metadata")
  let validation := credentialValidationPayload py now credential vaultId
  let metadata := Dict.set metadata "last_validation"
    (.str (dumpsCompact py.toPython (.dict validation)))
  return Dict.set credential.data "metadata" (.dict metadata)

end ManagedAgents
