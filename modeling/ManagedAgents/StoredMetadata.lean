import ManagedAgents.CredentialPatches
import ManagedAgents.MetadataSystem
import ManagedAgents.Responses

/-!
# Metadata in stored data

What every writer makes of the metadata of a row.  All checks end with valid
metadata; a validation adds a key, a purge empties the secret-named ones and a run
takes the metadata of its request.
-/

namespace ManagedAgents

open Fallible

/-! ## Data with metadata -/

def HoldsMetadata (data : Dict) : Prop :=
  ∃ metadata, Dict.get data "metadata" = .dict metadata ∧ StoredMetadata metadata

/-- The metadata of the data, if they are a dictionary. -/
def metadataOf (data : Dict) : Dict :=
  match Dict.get data "metadata" with
  | .dict metadata => metadata
  | _ => []

theorem metadataOf_eq
    {data metadata : Dict} (hget : Dict.get data "metadata" = .dict metadata) :
    metadataOf data = metadata := by
  unfold metadataOf
  rw [hget]

section

variable {data : Dict} {key : String}

theorem HoldsMetadata.set_other
    (hdata : HoldsMetadata data) (value : Json) (hkey : key ≠ "metadata") :
    HoldsMetadata (Dict.set data key value) := by
  obtain ⟨metadata, hget, hstored⟩ := hdata
  exact ⟨metadata, by rw [Dict.get_set_other value hkey, hget], hstored⟩

theorem HoldsMetadata.setdefault_other
    (hdata : HoldsMetadata data) (value : Json) (hkey : key ≠ "metadata") :
    HoldsMetadata (Dict.setdefault data key value) := by
  obtain ⟨metadata, hget, hstored⟩ := hdata
  exact ⟨metadata, by rw [Dict.get_setdefault_other value hkey, hget], hstored⟩

theorem HoldsMetadata.pop_other
    (hdata : HoldsMetadata data) (hkey : key ≠ "metadata") :
    HoldsMetadata (Dict.pop data key) := by
  obtain ⟨metadata, hget, hstored⟩ := hdata
  exact ⟨metadata, by rw [Dict.get_pop_other hkey, hget], hstored⟩

/-- The last step of every normalisation. -/
theorem holdsMetadata_normalized
    {given : Json} {metadata : Dict}
    (hmetadata : normalizeMetadata given = .ok metadata) :
    HoldsMetadata (Dict.set data "metadata" (.dict metadata)) :=
  ⟨metadata, Dict.get_set_same _ _ _, normalizeMetadata_stored hmetadata⟩

end

/-! ## Normalised data -/

section

variable {data result : Dict}

theorem normalizeVaultData_holds
    (hresult : normalizeVaultData data = .ok result) : HoldsMetadata result := by
  unfold normalizeVaultData at hresult
  simp only [bind_eq_ok, pure_eq_ok] at hresult
  obtain ⟨displayName, -, metadata, hmetadata, rfl⟩ := hresult
  exact holdsMetadata_normalized hmetadata

theorem normalizeMemoryStoreData_holds
    {py : Interpreter} (hresult : normalizeMemoryStoreData py data = .ok result) :
    HoldsMetadata result := by
  unfold normalizeMemoryStoreData at hresult
  simp only [bind_eq_ok, pure_eq_ok] at hresult
  obtain ⟨name, -, description, -, metadata, hmetadata, rfl⟩ := hresult
  exact holdsMetadata_normalized hmetadata

theorem normalizeCredentialData_holds
    {py : Interpreter} {cipher : SecretCipher}
    (hresult : normalizeCredentialData py cipher data = .ok result) :
    HoldsMetadata result := by
  unfold normalizeCredentialData at hresult
  simp only [bind_eq_ok, pure_eq_ok] at hresult
  obtain ⟨displayName, -, auth, -, sealedAuth, -, metadata, hmetadata, rfl⟩ := hresult
  exact holdsMetadata_normalized hmetadata

theorem normalizeUserProfileData_holds
    (hresult : normalizeUserProfileData data = .ok result) : HoldsMetadata result := by
  unfold normalizeUserProfileData at hresult
  simp only [bind_eq_ok, pure_eq_ok] at hresult
  obtain ⟨metadata, hmetadata, -, -, rfl⟩ := hresult
  exact (holdsMetadata_normalized hmetadata).setdefault_other _ (by decide)

theorem normalizeDeploymentData_holds
    {calendar : Calendar} {utcnow : Time}
    (hresult : normalizeDeploymentData calendar utcnow data = .ok result) :
    HoldsMetadata result := by
  unfold normalizeDeploymentData at hresult
  simp only [bind_eq_ok] at hresult
  obtain ⟨checked, -, agent, -, resources, -, vaultIds, -, metadata, hmetadata,
    hresult⟩ := hresult
  have hholds := @holdsMetadata_normalized
    (Dict.set (Dict.set (Dict.setdefault (Dict.setdefault
      (Dict.set checked "agent" (.dict agent)) "environment_id" (.str ""))
      "initial_events" (.list [])) "resources" (.list resources)) "vault_ids"
      (.list vaultIds)) _ metadata hmetadata
  split at hresult
  · cases hresult
    exact hholds
  · obtain ⟨schedule, -, hresult⟩ := bind_eq_ok.mp hresult
    cases hresult
    exact hholds.set_other _ (by decide)

end

/-! ## Validations -/

/-- A validation finds its key or room for it. -/
def RoomForValidation (data : Dict) : Prop :=
  Dict.contains (metadataOf data) "last_validation" = true ∨
    (metadataOf data).length < MAX_METADATA_KEYS

instance (data : Dict) : Decidable (RoomForValidation data) :=
  inferInstanceAs (Decidable (_ ∨ _))

theorem escape_plain
    {text : List Char}
    (hplain : ∀ char ∈ text, JsonString.isPlain char.toNat = true) :
    JsonString.escape text = text := by
  unfold JsonString.escape
  induction text with
  | nil => rfl
  | cons char rest ih =>
      rw [List.forall_mem_cons] at hplain
      have hchar := hplain.1
      simp only [JsonString.isPlain, Bool.and_eq_true, decide_eq_true_eq] at hchar
      have hbasic : char.toNat < 0x10000 := by omega
      rw [List.flatMap_cons, List.flatMap_append, ih hplain.2, JsonString.units,
        if_pos hbasic, List.flatMap_singleton, JsonString.escapeUnit, if_pos hplain.1,
        Char.ofNat_toNat, List.singleton_append]

theorem quoted_length
    {limit : ℕ} {text : String} (htext : ShortText limit text) :
    (quoted text).length ≤ limit + 2 := by
  unfold quoted
  rw [escape_plain htext.2]
  have hlength := htext.1
  rw [← String.length_toList] at hlength
  simp only [List.length_cons, List.length_append, List.length_nil]
  omega

/-- The text of a validation is within the limit of a value. -/
theorem validation_length
    {py : Interpreter} {now : Time} {credential : Resource} {vaultId : String}
    (htimestamp : ShortText 32 (py.isoformat now)) (hid : ShortText 64 credential.id)
    (hvault : ShortText 64 vaultId) :
    (dumpsCompact py.toPython
      (.dict (credentialValidationPayload py now credential vaultId))).length ≤
        MAX_METADATA_VALUE_CHARS := by
  have hcredentialText := quoted_length hid
  have hvaultText := quoted_length hvault
  have htimestampText := quoted_length htimestamp
  have hbool : ∀ value, (Json.text py.toPython (.bool value)).length ≤ 5 := by
    intro value
    cases value with
    | false => exact (by decide : "false".toList.length ≤ 5)
    | true => exact (by decide : "true".toList.length ≤ 5)
  have hrefresh := hbool
    (((Dict.get credential.data "auth").or (.dict [])).get "refresh").truthy
  have hkeys : (quoted "credential_id").length + (quoted "has_refresh_token").length +
      (quoted "mcp_probe").length + (quoted "refresh").length +
      (quoted "status").length + (quoted "type").length +
      (quoted "validated_at").length + (quoted "vault_id").length = 92 := by
    decide
  have hvalues : (quoted "unknown").length +
      (quoted "vault_credential_validation").length = 38 := by
    decide
  have hnull : "null".toList.length = 4 := by decide
  unfold dumpsCompact credentialValidationPayload MAX_METADATA_VALUE_CHARS
  rw [String.length_ofList]
  simp only [Json.text, Json.fieldsText, List.length_cons, List.length_append,
    List.length_nil, hnull] at hrefresh ⊢
  omega

theorem validMetadataField_text
    {key text : String} (hkey : ValidMetadataKey key)
    (htext : text.length ≤ MAX_METADATA_VALUE_CHARS) :
    ValidMetadataField (key, .str text) :=
  ⟨hkey.1, hkey.2, text, rfl, htext⟩

theorem StoredMetadata.set_iff
    {metadata : Dict} {key : String} {value : Json} (hmetadata : StoredMetadata metadata)
    (hfield : ValidMetadataField (key, value)) :
    StoredMetadata (Dict.set metadata key value) ↔
      Dict.contains metadata key = true ∨ metadata.length < MAX_METADATA_KEYS := by
  have hlength := @Dict.length_set metadata key value
  have hsize := hmetadata.size
  constructor
  · intro hset
    have hroom := hset.size
    rw [hlength] at hroom
    by_cases hfound : Dict.contains metadata key = true
    · exact .inl hfound
    · rw [if_neg hfound] at hroom
      exact .inr hroom
  · intro hroom
    refine ⟨⟨?_, Dict.forall_set hmetadata.fields hfield⟩,
      Dict.set_distinct hmetadata.distinct _ _⟩
    rw [hlength]
    rcases hroom with hfound | hless
    · rw [if_pos hfound]
      exact hsize
    · split <;> omega

theorem validatedCredentialData_holds
    {py : Interpreter} {now : Time} {credential : Resource} {vaultId : String}
    {data : Dict} (hheld : HoldsMetadata credential.data)
    (htimestamp : ShortText 32 (py.isoformat now)) (hid : ShortText 64 credential.id)
    (hvault : ShortText 64 vaultId)
    (hdata : validatedCredentialData py now credential vaultId = .ok data) :
    HoldsMetadata data ↔ RoomForValidation credential.data := by
  obtain ⟨metadata, hget, hstored⟩ := hheld
  unfold validatedCredentialData at hdata
  rw [hget, toDict_dict] at hdata
  cases hdata
  have hfield : ValidMetadataField ("last_validation",
      .str (dumpsCompact py.toPython
        (.dict (credentialValidationPayload py now credential vaultId)))) :=
    validMetadataField_text ⟨by decide, by decide⟩
      (validation_length htimestamp hid hvault)
  unfold RoomForValidation
  rw [metadataOf_eq hget, ← hstored.set_iff hfield]
  constructor
  · rintro ⟨written, hwritten, hvalid⟩
    rw [Dict.get_set_same] at hwritten
    cases hwritten
    exact hvalid
  · exact fun hvalid => ⟨_, Dict.get_set_same _ _ _, hvalid⟩

/-! ## Purges -/

/-- No key of the metadata is that of a secret. -/
def NoSecretMetadata (data : Dict) : Prop :=
  ∀ field ∈ metadataOf data, isSecretKey field.1 = false

instance (data : Dict) : Decidable (NoSecretMetadata data) :=
  inferInstanceAs (Decidable (∀ field ∈ metadataOf data, _))

theorem purgeSecretFields_metadata
    {metadata : Dict} (hfields : ∀ field ∈ metadata, ValidMetadataField field) :
    (∀ field ∈ purgeSecretFields metadata, ValidMetadataField field) ↔
      ∀ field ∈ metadata, isSecretKey field.1 = false := by
  induction metadata with
  | nil => simp [purgeSecretFields]
  | cons field rest ih =>
      obtain ⟨key, value⟩ := field
      rw [List.forall_mem_cons] at hfields
      obtain ⟨⟨hempty, hlong, text, rfl, htext⟩, hrest⟩ := hfields
      rw [purgeSecretFields, List.forall_mem_cons, List.forall_mem_cons, ih hrest]
      apply and_congr_left
      intro _
      cases hsecret : isSecretKey key with
      | true => simp [ValidMetadataField]
      | false =>
          simp only [Bool.false_eq_true, if_false, purgeSecretValues, iff_true]
          exact ⟨hempty, hlong, text, rfl, htext⟩

theorem StoredMetadata.purge_iff
    {metadata : Dict} (hmetadata : StoredMetadata metadata) :
    StoredMetadata (purgeSecretFields metadata) ↔
      ∀ field ∈ metadata, isSecretKey field.1 = false := by
  have hkeys := purgeSecretFields_keys metadata
  have hlength : (purgeSecretFields metadata).length = metadata.length := by
    simpa using congrArg List.length hkeys
  rw [← purgeSecretFields_metadata hmetadata.fields]
  constructor
  · exact fun hpurged => hpurged.fields
  · exact fun hfields => ⟨⟨hlength ▸ hmetadata.size, hfields⟩, hkeys ▸ hmetadata.distinct⟩

theorem purgeCredentialSecretData_holds
    {py : Interpreter} {now : Time} {data : Dict} (hdata : HoldsMetadata data) :
    HoldsMetadata (purgeCredentialSecretData py now data) ↔ NoSecretMetadata data := by
  obtain ⟨metadata, hget, hstored⟩ := hdata
  have hplain : isSecretKey "metadata" = false := by decide
  have hpurged : Dict.get (purgeCredentialSecretData py now data) "metadata" =
      .dict (purgeSecretFields metadata) := by
    unfold purgeCredentialSecretData
    rw [Dict.get_set_other _ (by decide), purgeSecretFields_plain hplain, hget,
      purgeSecretValues]
  unfold NoSecretMetadata HoldsMetadata
  rw [metadataOf_eq hget, ← hstored.purge_iff, hpurged]
  constructor
  · rintro ⟨written, hwritten, hvalid⟩
    cases hwritten
    exact hvalid
  · exact fun hvalid => ⟨_, rfl, hvalid⟩

/-! ## Sessions of runs -/

/-- The keys which a run sets in the metadata of its session. -/
def RUN_METADATA_KEYS : List String := ["deployment_id", "deployment_run_id"]

/-- The given metadata are valid but for the keys which a run sets, and leave room
for these. -/
structure FitsRun (given : Dict) : Prop where
  distinct : (given.map Prod.fst).Nodup
  fields : ∀ field ∈ given, field.1 ∉ RUN_METADATA_KEYS → ValidMetadataField field
  room : (given.filter fun field => field.1 ∉ RUN_METADATA_KEYS).length +
    RUN_METADATA_KEYS.length ≤ MAX_METADATA_KEYS

/-- Whether the value is a text within the limit. -/
def isMetadataValue : Json → Bool
  | .str text => text.length ≤ MAX_METADATA_VALUE_CHARS
  | _ => false

theorem isMetadataValue_iff
    (value : Json) :
    isMetadataValue value = true ↔
      ∃ text, value = .str text ∧ text.length ≤ MAX_METADATA_VALUE_CHARS := by
  cases value <;> simp [isMetadataValue]

instance (field : String × Json) : Decidable (ValidMetadataField field) :=
  decidable_of_iff (field.1 ≠ "" ∧ field.1.length ≤ MAX_METADATA_KEY_CHARS ∧
      isMetadataValue field.2 = true)
    (and_congr_right fun _ => and_congr_right fun _ => isMetadataValue_iff field.2)

instance (given : Dict) : Decidable (FitsRun given) :=
  decidable_of_iff ((given.map Prod.fst).Nodup ∧
      (∀ field ∈ given, field.1 ∉ RUN_METADATA_KEYS → ValidMetadataField field) ∧
      (given.filter fun field => field.1 ∉ RUN_METADATA_KEYS).length +
        RUN_METADATA_KEYS.length ≤ MAX_METADATA_KEYS)
    ⟨fun ⟨hdistinct, hfields, hroom⟩ => ⟨hdistinct, hfields, hroom⟩,
      fun hfits => ⟨hfits.distinct, hfits.fields, hfits.room⟩⟩

theorem StoredMetadata.perm
    {left right : Dict} (hleft : StoredMetadata left) (hperm : left.Perm right) :
    StoredMetadata right :=
  ⟨hleft.toValidMetadata.perm hperm, (hperm.map Prod.fst).nodup_iff.mp hleft.distinct⟩

theorem pop_pop_runKeys (given : Dict) :
    Dict.pop (Dict.pop given "deployment_id") "deployment_run_id" =
      given.filter fun field => field.1 ∉ RUN_METADATA_KEYS := by
  unfold Dict.pop
  rw [List.filter_filter]
  apply List.filter_congr
  intro field _
  simp [RUN_METADATA_KEYS, Bool.and_comm]

/-- The metadata of the session, without their order. -/
theorem update_runKeys_perm
    {given : Dict} (hgiven : (given.map Prod.fst).Nodup) (deploymentId runId : String) :
    (Dict.update given
      [("deployment_id", .str deploymentId), ("deployment_run_id", .str runId)]).Perm
      (("deployment_run_id", .str runId) :: ("deployment_id", .str deploymentId) ::
        given.filter fun field => field.1 ∉ RUN_METADATA_KEYS) := by
  have hfirst := @Dict.set_perm given "deployment_id" (.str deploymentId) hgiven
  have hsecond := @Dict.set_perm _ "deployment_run_id" (.str runId)
    (Dict.set_distinct hgiven "deployment_id" (.str deploymentId))
  have hpopped := hfirst.filter fun field => decide (field.1 ≠ "deployment_run_id")
  rw [List.filter_cons_of_pos (by simp)] at hpopped
  rw [← pop_pop_runKeys]
  exact hsecond.trans (hpopped.cons _)

theorem update_runKeys_distinct
    {given : Dict} {deploymentId runId : String}
    (hdistinct : ((Dict.update given
      [("deployment_id", .str deploymentId),
        ("deployment_run_id", .str runId)]).map Prod.fst).Nodup) :
    (given.map Prod.fst).Nodup := by
  have hkeys : ∀ (fields : Dict) key value,
      ((Dict.set fields key value).map Prod.fst).Nodup → (fields.map Prod.fst).Nodup := by
    intro fields key value hset
    rw [Dict.keys_set] at hset
    split at hset
    · exact hset
    · exact hset.of_append_left
  exact hkeys _ _ _ (hkeys _ _ _ hdistinct)

theorem runSessionMetadata_stored
    {deploymentId runId : String} {runInput metadata : Dict}
    (hdeployment : deploymentId.length ≤ MAX_METADATA_VALUE_CHARS)
    (hrun : runId.length ≤ MAX_METADATA_VALUE_CHARS)
    (hmetadata : runSessionMetadata deploymentId runId runInput = .ok metadata) :
    StoredMetadata metadata ↔
      ∃ given, toDict (Dict.get runInput "metadata") = .ok given ∧ FitsRun given := by
  unfold runSessionMetadata at hmetadata
  simp only [bind_eq_ok, pure_eq_ok] at hmetadata
  obtain ⟨given, hgiven, rfl⟩ := hmetadata
  have hdeploymentKey : ValidMetadataField ("deployment_id", .str deploymentId) :=
    validMetadataField_text ⟨by decide, by decide⟩ hdeployment
  have hrunKey : ValidMetadataField ("deployment_run_id", .str runId) :=
    validMetadataField_text ⟨by decide, by decide⟩ hrun
  have hfits : StoredMetadata (Dict.update given
      [("deployment_id", .str deploymentId), ("deployment_run_id", .str runId)]) ↔
      FitsRun given := by
    constructor
    · intro hstored
      have hdistinct := update_runKeys_distinct hstored.distinct
      have hlisted := hstored.perm (update_runKeys_perm hdistinct deploymentId runId)
      refine ⟨hdistinct, fun field hfield hother => ?_, hlisted.size⟩
      exact hlisted.fields field (List.mem_cons_of_mem _ (List.mem_cons_of_mem _
        (List.mem_filter.mpr ⟨hfield, by simpa using hother⟩)))
    · intro hfits
      have hperm := update_runKeys_perm hfits.distinct deploymentId runId
      refine ⟨⟨?_, ?_⟩, ?_⟩
      · rw [hperm.length_eq]
        exact hfits.room
      · intro field hfield
        rcases List.mem_cons.mp (hperm.mem_iff.mp hfield) with rfl | hfield
        · exact hrunKey
        rcases List.mem_cons.mp hfield with rfl | hfield
        · exact hdeploymentKey
        obtain ⟨hmem, hother⟩ := List.mem_filter.mp hfield
        exact hfits.fields field hmem (by simpa using hother)
      · exact Dict.set_distinct (Dict.set_distinct hfits.distinct _ _) _ _
  rw [hfits]
  constructor
  · exact fun hfits => ⟨given, hgiven, hfits⟩
  · rintro ⟨other, hother, hfits⟩
    rw [hgiven] at hother
    cases hother
    exact hfits

end ManagedAgents
