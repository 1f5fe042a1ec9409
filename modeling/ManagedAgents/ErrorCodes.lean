import ManagedAgents.ChildRequests
import ManagedAgents.ValidMetadata

/-!
# Errors other than 404

Checks of values and stored data answer 422, 409 or 500.  Only a look-up which
finds nothing answers 404.
-/

namespace ManagedAgents

open Fallible

def OtherThan404 (error : HTTPException) : Prop :=
  error.statusCode ≠ 404

@[simp] theorem otherThan404_mk (statusCode : ℕ) (detail : String) :
    OtherThan404 ⟨statusCode, detail⟩ ↔ statusCode ≠ 404 :=
  Iff.rfl

@[simp] theorem otherThan404_internalServerError : OtherThan404 internalServerError := by
  simp [internalServerError]

/-- The computation ends with a value or with an error other than 404. -/
abbrev NeverNotFound {Value : Type} (computation : Except HTTPException Value) : Prop :=
  OnlyRaises OtherThan404 computation

theorem neverNotFound_toInt (py : Interpreter) (value : Json) :
    NeverNotFound (py.toInt value) := by
  unfold Interpreter.toInt
  split <;> simp

theorem neverNotFound_memoryView (view : Option String) :
    NeverNotFound (normalizeMemoryView view) := by
  cases view <;> simp [normalizeMemoryView]

theorem neverNotFound_pathText (py : Interpreter) (path : String) :
    NeverNotFound (validateMemoryPathText py path) := by
  simp [validateMemoryPathText]

theorem neverNotFound_memoryPath (py : Interpreter) (value : Json) :
    NeverNotFound (normalizeMemoryPath py value) := by
  have hparts : NeverNotFound (memoryPathParts py value) := by
    unfold memoryPathParts
    split
    · simp
    · exact (neverNotFound_pathText py _).bind fun _ => onlyRaises_pure _ _
    · simp
    · simp
  unfold normalizeMemoryPath
  refine hparts.bind fun parts => ?_
  simp [onlyRaises_bind, neverNotFound_pathText]

theorem neverNotFound_contentLimit (content : String) :
    NeverNotFound (enforceMemoryContentLimit content) := by
  simp [enforceMemoryContentLimit]

theorem neverNotFound_scalarOneOrNone (rows : List Resource) :
    NeverNotFound (scalarOneOrNone rows) := by
  unfold scalarOneOrNone
  split <;> simp

theorem neverNotFound_memoryPathKey (data : Dict) :
    NeverNotFound (memoryPathKey data) := by
  unfold memoryPathKey
  split <;> simp

theorem neverNotFound_pairField (item : Json) : NeverNotFound (pairField item) := by
  have hkey : ∀ key, NeverNotFound (keyText key) := by
    intro key
    unfold keyText
    split <;> simp
  unfold pairField
  split
  · exact (hkey _).bind fun _ => onlyRaises_pure _ _
  · split <;> simp
  · simp
  · simp

theorem neverNotFound_toDict (value : Json) : NeverNotFound (toDict value) := by
  unfold toDict
  split
  · split
    · simp
    · exact (OnlyRaises.mapM neverNotFound_pairField _).bind fun _ => onlyRaises_pure _ _
    · simp
  · simp

theorem neverNotFound_nameOr (value : Json) (fallback : Option String) :
    NeverNotFound (nameOr value fallback) := by
  unfold nameOr
  split
  · split <;> simp
  · simp

/-! ## Memories -/

theorem neverNotFound_memoryVersion
    (py : Interpreter) (expected : Json) (data : Dict) :
    NeverNotFound (checkMemoryVersion py expected data) := by
  unfold checkMemoryVersion storedMemoryVersion
  simp [onlyRaises_bind, neverNotFound_toInt]

theorem neverNotFound_staleContent
    (py : Interpreter) (memory : Resource) (update : Dict) :
    NeverNotFound (answerStaleContent py memory update) := by
  unfold answerStaleContent memoryRequestedStateMatchesCurrent
  simp [onlyRaises_bind, neverNotFound_memoryPath]

theorem neverNotFound_mergeMemoryData
    (py : Interpreter) (now : Time) (existing update : Dict) :
    NeverNotFound (mergeMemoryData py now existing update) := by
  unfold mergeMemoryData mergeMemoryPath mergeMemoryContent
  simp [onlyRaises_bind, neverNotFound_memoryPath, neverNotFound_contentLimit,
    neverNotFound_toInt]

theorem neverNotFound_checkMemoryPath
    (rows : List Resource) (workspaceId storeId memoryId : String)
    (existing merged : Dict) :
    NeverNotFound
      (checkMemoryPath rows workspaceId storeId memoryId existing merged) := by
  unfold checkMemoryPath findMemoryByPath getResourceByName
  simp [onlyRaises_bind, neverNotFound_memoryPathKey, neverNotFound_scalarOneOrNone,
    pathExists]

theorem neverNotFound_writeMemory
    (py : Interpreter) (supply : Supply) (workspaceId : String) (memory : Resource)
    (data : Dict) : NeverNotFound (writeMemory py supply workspaceId memory data) := by
  unfold writeMemory
  simp [onlyRaises_bind, neverNotFound_memoryPathKey, neverNotFound_toInt]

/-! ## Credentials -/

theorem neverNotFound_normalizeMetadata (value : Json) :
    NeverNotFound (normalizeMetadata value) :=
  onlyRaises_normalizeMetadata (fun _ => by simp) value

theorem neverNotFound_mergeMetadata (current patch : Json) :
    NeverNotFound (mergeMetadata current patch) :=
  onlyRaises_mergeMetadata (fun _ => by simp) current patch

theorem neverNotFound_mergeData (existing update : Dict) :
    NeverNotFound (mergeData existing update) := by
  induction update generalizing existing with
  | nil => simp [mergeData]
  | cons field rest ih =>
      simp [mergeData, onlyRaises_bind, neverNotFound_mergeMetadata, ih]

theorem neverNotFound_memberText (value : Json) (types : List String) (message : String) :
    NeverNotFound (memberText value types message) := by
  unfold memberText
  split <;> simp

theorem neverNotFound_authType (auth : Dict) :
    NeverNotFound (credentialAuthType auth) := by
  unfold credentialAuthType
  exact neverNotFound_memberText _ _ _

theorem neverNotFound_stringValue (value : Json) (field : String) :
    NeverNotFound (stringCredentialValue value field) := by
  unfold stringCredentialValue
  split <;> simp

theorem neverNotFound_requireString (data : Dict) (field authType : String) :
    NeverNotFound (requireCredentialString data field authType) := by
  simp [requireCredentialString, neverNotFound_stringValue]

theorem neverNotFound_optionalString (data : Dict) (field authType : String) :
    NeverNotFound (optionalCredentialString data field authType) := by
  simp [optionalCredentialString, neverNotFound_stringValue]

theorem neverNotFound_networking (value : Json) :
    NeverNotFound (normalizeCredentialNetworking value) := by
  unfold normalizeCredentialNetworking
  split
  · split
    · simp
    · split
      · simp
      · split <;> simp
  · simp

theorem neverNotFound_oauthRefresh (value : Json) :
    NeverNotFound (normalizeOauthRefresh value) := by
  have hauth : ∀ auth, NeverNotFound (normalizeTokenEndpointAuth auth) := by
    intro auth
    unfold normalizeTokenEndpointAuth
    split
    · simp [onlyRaises_bind, neverNotFound_memberText, neverNotFound_stringValue]
    · simp
  unfold normalizeOauthRefresh
  split
  · simp [onlyRaises_bind, neverNotFound_requireString, neverNotFound_optionalString,
      hauth]
  · simp

theorem neverNotFound_credentialAuth (py : Interpreter) (value : Json) :
    NeverNotFound (normalizeCredentialAuth py value) := by
  unfold normalizeCredentialAuth
  split
  · simp [onlyRaises_bind, neverNotFound_authType, normalizeEnvironmentVariable,
      normalizeStaticBearer, normalizeMcpOauth, neverNotFound_requireString,
      neverNotFound_optionalString, neverNotFound_networking, neverNotFound_oauthRefresh]
  · simp

theorem neverNotFound_displayName (data : Dict) (resourceName : String)
    (required : Bool) :
    NeverNotFound (displayNameFromData data resourceName required) := by
  unfold displayNameFromData
  split <;> simp

section

variable {transform : String → Encrypting String}

mutual

theorem neverNotFound_walk
    (htransform : ∀ value draw, NeverNotFound (transform value draw)) :
    (value : Json) → (draw : ℕ) → NeverNotFound (walk transform value draw)
  | .list items, draw =>
      (neverNotFound_walkItems htransform items draw).bind fun _ => onlyRaises_ok _ _
  | .dict fields, draw =>
      (neverNotFound_walkFields htransform fields draw).bind fun _ => onlyRaises_ok _ _
  | .null, _ => onlyRaises_ok _ _
  | .bool _, _ => onlyRaises_ok _ _
  | .int _, _ => onlyRaises_ok _ _
  | .float _, _ => onlyRaises_ok _ _
  | .str _, _ => onlyRaises_ok _ _

theorem neverNotFound_walkItems
    (htransform : ∀ value draw, NeverNotFound (transform value draw)) :
    (items : List Json) → (draw : ℕ) → NeverNotFound (walkItems transform items draw)
  | [], _ => onlyRaises_ok _ _
  | item :: rest, draw =>
      (neverNotFound_walk htransform item draw).bind fun walked =>
        (neverNotFound_walkItems htransform rest walked.2).bind fun _ => onlyRaises_ok _ _

theorem neverNotFound_walkFields
    (htransform : ∀ value draw, NeverNotFound (transform value draw)) :
    (fields : List (String × Json)) → (draw : ℕ) →
      NeverNotFound (walkFields transform fields draw)
  | [], _ => onlyRaises_ok _ _
  | (key, child) :: rest, draw => by
      have hrest : ∀ walked : Json × ℕ,
          NeverNotFound (walkFields transform rest walked.2 >>= fun fields =>
            Except.ok ((key, walked.1) :: fields.1, fields.2)) :=
        fun walked => (neverNotFound_walkFields htransform rest walked.2).bind fun _ =>
          onlyRaises_ok _ _
      cases hsecret : secretText key child with
      | some text =>
          have htext :
              NeverNotFound ((Json.str <$> transform text : Encrypting Json) draw) :=
            (htransform text draw).bind fun _ => onlyRaises_ok _ _
          simp only [walkFields, hsecret]
          exact htext.bind hrest
      | none =>
          simp only [walkFields, hsecret]
          exact (neverNotFound_walk htransform child draw).bind hrest

end

end

theorem neverNotFound_encryptSecretValues (cipher : SecretCipher) (value : Dict)
    (draw : ℕ) :
    NeverNotFound (encryptSecretValues cipher value draw) := by
  apply neverNotFound_walkFields
  intro text draw
  unfold encryptSecret
  split
  · simp
  · simp
  · split <;> simp

theorem neverNotFound_credentialData
    (py : Interpreter) (cipher : SecretCipher) (data : Dict) :
    NeverNotFound (normalizeCredentialData py cipher data) := by
  unfold normalizeCredentialData
  simp [onlyRaises_bind, neverNotFound_displayName, neverNotFound_credentialAuth,
    neverNotFound_encryptSecretValues, neverNotFound_normalizeMetadata]

theorem neverNotFound_credentialUpdate (existing update : Dict) :
    NeverNotFound (mergeCredentialUpdate existing update) := by
  unfold mergeCredentialUpdate mergeCredentialAuth
  split
  · split
    · simp [onlyRaises_bind, neverNotFound_mergeData, neverNotFound_authType,
        neverNotFound_toDict]
    · simp
  · exact neverNotFound_mergeData existing update

end ManagedAgents
