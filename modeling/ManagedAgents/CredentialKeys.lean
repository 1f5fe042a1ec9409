import ManagedAgents.CredentialSystem
import ManagedAgents.MetadataMerges

/-!
# Keys of stored credentials

The data of a credential have distinct keys at every depth: bodies are JSON
objects, and checking, merging, encrypting and purging them never adds a key that
is there.
-/

namespace ManagedAgents

open Fallible

/-! ## Single steps -/

section

variable {fields given merged patch : Dict} {left right : Json}

theorem Json.keyed_or
    (hleft : left.keyed = true) (hright : right.keyed = true) :
    (left.or right).keyed = true := by
  unfold Json.or
  split
  · exact hleft
  · exact hright

theorem emptyFields_keyed : Dict.Keyed [] := ⟨List.nodup_nil, by simp⟩

theorem Dict.Keyed.update
    (hfields : Dict.Keyed fields) (hgiven : ∀ field ∈ given, field.2.keyed = true) :
    Dict.Keyed (Dict.update fields given) := by
  unfold Dict.update
  induction given generalizing fields with
  | nil => exact hfields
  | cons field rest ih =>
      rw [List.forall_mem_cons] at hgiven
      exact ih (hfields.set field.1 hgiven.1) hgiven.2

theorem pairField_keyed
    {item : Json} {field : String × Json} (hitem : item.keyed = true)
    (hfield : pairField item = .ok field) : field.2.keyed = true := by
  unfold pairField at hfield
  split at hfield
  · simp only [bind_eq_ok, pure_eq_ok] at hfield
    obtain ⟨key, -, rfl⟩ := hfield
    simp only [Json.keyed, Json.itemsKeyed, Bool.and_true, Bool.and_eq_true] at hitem
    exact hitem.2
  · split at hfield
    · cases hfield
      rfl
    · cases hfield
  · cases hfield
    rfl
  · cases hfield

theorem toDict_keyed
    {value : Json} {result : Dict} (hvalue : value.keyed = true)
    (hresult : toDict value = .ok result) : Dict.Keyed result := by
  unfold toDict at hresult
  split at hresult
  · split at hresult
    · cases hresult
      exact Json.keyed_dict.mp hvalue
    next items =>
      simp only [bind_eq_ok, pure_eq_ok] at hresult
      obtain ⟨fields, hfields, rfl⟩ := hresult
      refine emptyFields_keyed.update fun field hfield => ?_
      obtain ⟨item, hitem, hpair⟩ := (mem_of_mapM hfields).mp hfield
      exact pairField_keyed (Json.itemsKeyed_iff.mp hvalue item hitem) hpair
    · cases hresult
  · cases hresult
    exact emptyFields_keyed

theorem StoredMetadata.keyed
    {metadata : Dict} (hstored : StoredMetadata metadata) : Dict.Keyed metadata := by
  refine ⟨hstored.distinct, fun field hfield => ?_⟩
  obtain ⟨-, -, text, htext, -⟩ := hstored.fields field hfield
  rw [htext]
  rfl

theorem mergeData_keyed
    {existing result : Dict} (hexisting : Dict.Keyed existing) (hpatch : Dict.Keyed patch)
    (hresult : mergeData existing patch = .ok result) : Dict.Keyed result := by
  obtain ⟨-, hvalues⟩ := hpatch
  induction patch generalizing existing with
  | nil =>
      cases hresult
      exact hexisting
  | cons field rest ih =>
      obtain ⟨key, value⟩ := field
      rw [List.forall_mem_cons] at hvalues
      rw [mergeData] at hresult
      split at hresult
      · simp only [bind_eq_ok, pure_eq_ok] at hresult
        obtain ⟨metadata, hmetadata, _, rfl, hresult⟩ := hresult
        have hkeyed := (mergeMetadata_stored hmetadata).keyed
        exact ih (hexisting.set _ (Json.keyed_dict.mpr hkeyed)) hresult hvalues.2
      · split at hresult
        · simp only [bind_eq_ok, pure_eq_ok] at hresult
          obtain ⟨_, rfl, hresult⟩ := hresult
          exact ih (hexisting.pop _) hresult hvalues.2
        · simp only [bind_eq_ok, pure_eq_ok] at hresult
          obtain ⟨_, rfl, hresult⟩ := hresult
          exact ih (hexisting.set _ hvalues.1) hresult hvalues.2

theorem foldl_keyed
    {merge : Dict → String × Json → Dict}
    (hmerge : ∀ fields field, Dict.Keyed fields → field.2.keyed = true →
      Dict.Keyed (merge fields field))
    (hmerged : Dict.Keyed merged) (hpatch : Dict.Keyed patch) :
    Dict.Keyed (patch.foldl merge merged) := by
  obtain ⟨-, hvalues⟩ := hpatch
  induction patch generalizing merged with
  | nil => exact hmerged
  | cons field rest ih =>
      rw [List.forall_mem_cons] at hvalues
      exact ih (hmerge merged field hmerged hvalues.1) hvalues.2

theorem mergeRefreshField_keyed
    {field : String × Json} (hmerged : Dict.Keyed merged)
    (hfield : field.2.keyed = true) : Dict.Keyed (mergeRefreshField merged field) := by
  unfold mergeRefreshField
  split
  next given held hgiven hheld =>
    have hheldKeyed := hmerged.get "token_endpoint_auth"
    rw [hheld, Json.keyed_dict] at hheldKeyed
    rw [hgiven, Json.keyed_dict] at hfield
    split
    · exact hmerged.set _
        (Json.keyed_dict.mpr (hheldKeyed.update (hfield.filter _).values))
    · rw [hgiven]
      exact hmerged.set _ (Json.keyed_dict.mpr hfield)
  next => exact hmerged
  next => exact hmerged.set _ hfield

theorem mergeOauthRefresh_keyed
    (hfields : Dict.Keyed fields) (hgiven : Dict.Keyed given) :
    Dict.Keyed (mergeOauthRefresh fields given) :=
  foldl_keyed (fun _ _ => mergeRefreshField_keyed) hfields hgiven

theorem mergeAuthField_keyed
    {field : String × Json} (hmerged : Dict.Keyed merged)
    (hfield : field.2.keyed = true) : Dict.Keyed (mergeAuthField merged field) := by
  unfold mergeAuthField
  split
  next given held hgiven hheld =>
    have hheldKeyed := hmerged.get "refresh"
    rw [hheld, Json.keyed_dict] at hheldKeyed
    rw [hgiven, Json.keyed_dict] at hfield
    split
    · exact hmerged.set _
        (Json.keyed_dict.mpr (mergeOauthRefresh_keyed hheldKeyed hfield))
    · rw [hgiven]
      exact hmerged.set _ (Json.keyed_dict.mpr hfield)
  next =>
    split
    · exact hmerged.set _ rfl
    · exact hmerged
  next => exact hmerged.set _ hfield

theorem mergeCredentialAuth_keyed
    {existing : Json} {result : Dict} (hexisting : existing.keyed = true)
    (hpatch : Dict.Keyed patch)
    (hresult : mergeCredentialAuth existing patch = .ok result) : Dict.Keyed result := by
  unfold mergeCredentialAuth at hresult
  simp only [bind_eq_ok, pure_eq_ok] at hresult
  obtain ⟨_, -, held, hheld, -, -, rfl⟩ := hresult
  exact foldl_keyed (fun _ _ => mergeAuthField_keyed)
    (toDict_keyed hexisting hheld) hpatch

theorem mergeCredentialUpdate_keyed
    {existing result : Dict} (hexisting : Dict.Keyed existing) (hpatch : Dict.Keyed patch)
    (hresult : mergeCredentialUpdate existing patch = .ok result) :
    Dict.Keyed result := by
  unfold mergeCredentialUpdate at hresult
  split at hresult
  · split at hresult
    next auth hauth =>
      simp only [bind_eq_ok, pure_eq_ok] at hresult
      obtain ⟨others, hothers, mergedAuth, hmerged, rfl⟩ := hresult
      have hgiven := hpatch.get "auth"
      rw [hauth, Json.keyed_dict] at hgiven
      exact (mergeData_keyed hexisting (hpatch.pop _) hothers).set _
        (Json.keyed_dict.mpr (mergeCredentialAuth_keyed (hexisting.get _) hgiven hmerged))
    next => cases hresult
  · exact mergeData_keyed hexisting hpatch hresult

end

/-! ## Checking -/

section

variable {data auth result : Dict} {field authType : String}

theorem requireCredentialString_keyed
    (hdata : Dict.Keyed data)
    (hresult : requireCredentialString data field authType = .ok result) :
    Dict.Keyed result := by
  unfold requireCredentialString at hresult
  split at hresult
  · cases hresult
  · simp only [bind_eq_ok, pure_eq_ok] at hresult
    obtain ⟨value, -, rfl⟩ := hresult
    exact hdata.set _ rfl

theorem optionalCredentialString_keyed
    (hdata : Dict.Keyed data)
    (hresult : optionalCredentialString data field authType = .ok result) :
    Dict.Keyed result := by
  unfold optionalCredentialString at hresult
  split at hresult
  · cases hresult
    exact hdata
  · simp only [bind_eq_ok, pure_eq_ok] at hresult
    obtain ⟨value, -, rfl⟩ := hresult
    exact hdata.set _ rfl

theorem normalizeCredentialNetworking_keyed
    {value : Json} (hvalue : value.keyed = true)
    (hresult : normalizeCredentialNetworking value = .ok result) : Dict.Keyed result := by
  unfold normalizeCredentialNetworking at hresult
  split at hresult
  next fields =>
    split at hresult
    · cases hresult
      exact emptyFields_keyed.set "type" rfl
    · split at hresult
      · cases hresult
      · split at hresult
        next hosts hhosts =>
          have hkeyed := (Json.keyed_dict.mp hvalue).get "allowed_hosts"
          rw [hhosts] at hkeyed
          split at hresult
          · cases hresult
          · split at hresult
            · cases hresult
              exact (emptyFields_keyed.set "type" rfl).set "allowed_hosts" hkeyed
            · cases hresult
        next => cases hresult
  next => cases hresult

theorem normalizeTokenEndpointAuth_keyed
    {value : Json} (hresult : normalizeTokenEndpointAuth value = .ok result) :
    Dict.Keyed result := by
  unfold normalizeTokenEndpointAuth at hresult
  split at hresult
  next fields =>
    obtain ⟨text, -, hresult⟩ := bind_eq_ok.mp hresult
    split at hresult
    · simp only [bind_eq_ok, pure_eq_ok] at hresult
      obtain ⟨secret, -, rfl⟩ := hresult
      exact (emptyFields_keyed.set "type" rfl).set "client_secret" rfl
    · rw [pure_eq_ok] at hresult
      subst hresult
      exact emptyFields_keyed.set "type" rfl
  next => cases hresult

theorem normalizeOauthRefresh_keyed
    {value : Json} (hvalue : value.keyed = true)
    (hresult : normalizeOauthRefresh value = .ok result) : Dict.Keyed result := by
  unfold normalizeOauthRefresh at hresult
  split at hresult
  next refresh =>
    simp only [bind_eq_ok] at hresult
    obtain ⟨first, hfirst, second, hsecond, third, hthird, auth, hauth, fourth, hfourth,
      hresult⟩ := hresult
    have hkeyed := requireCredentialString_keyed
      (requireCredentialString_keyed
        (requireCredentialString_keyed (Json.keyed_dict.mp hvalue) hfirst) hsecond) hthird
    have hset := hkeyed.set "token_endpoint_auth"
      (Json.keyed_dict.mpr (normalizeTokenEndpointAuth_keyed hauth))
    exact optionalCredentialString_keyed (optionalCredentialString_keyed hset hfourth)
      hresult
  next => cases hresult

theorem normalizeCredentialAuth_keyed
    {py : Interpreter} {value : Json} (hvalue : value.keyed = true)
    (hresult : normalizeCredentialAuth py value = .ok result) : Dict.Keyed result := by
  unfold normalizeCredentialAuth at hresult
  split at hresult
  next fields =>
    obtain ⟨authType, -, hresult⟩ := bind_eq_ok.mp hresult
    have hset :=
      (Json.keyed_dict.mp hvalue).set "type" (rfl : (Json.str authType).keyed = true)
    split at hresult
    · unfold normalizeEnvironmentVariable at hresult
      simp only [bind_eq_ok, pure_eq_ok] at hresult
      obtain ⟨first, hfirst, second, hsecond, networking, hnetworking, rfl⟩ := hresult
      have hkeyed := optionalCredentialString_keyed
        (requireCredentialString_keyed hset hfirst) hsecond
      exact hkeyed.set _ (Json.keyed_dict.mpr
        (normalizeCredentialNetworking_keyed (Json.keyed_or (hkeyed.get _) rfl)
          hnetworking))
    · split at hresult
      · unfold normalizeStaticBearer at hresult
        obtain ⟨first, hfirst, hresult⟩ := bind_eq_ok.mp hresult
        exact optionalCredentialString_keyed (requireCredentialString_keyed hset hfirst)
          hresult
      · unfold normalizeMcpOauth at hresult
        simp only [bind_eq_ok] at hresult
        obtain ⟨first, hfirst, second, hsecond, hresult⟩ := hresult
        have hkeyed := optionalCredentialString_keyed
          (requireCredentialString_keyed hset hfirst) hsecond
        have hdated : Dict.Keyed
            (if Dict.get second "expires_at" = .null then second
              else Dict.set second "expires_at"
                (.str (py.str (Dict.get second "expires_at")))) := by
          split
          · exact hkeyed
          · exact hkeyed.set _ rfl
        generalize (if Dict.get second "expires_at" = .null then second
          else Dict.set second "expires_at"
            (.str (py.str (Dict.get second "expires_at")))) = dated at hresult hdated
        split at hresult
        · rw [pure_eq_ok] at hresult
          exact hresult ▸ hdated
        · simp only [bind_eq_ok, pure_eq_ok] at hresult
          obtain ⟨refresh, hrefresh, rfl⟩ := hresult
          exact hdated.set _ (Json.keyed_dict.mpr
            (normalizeOauthRefresh_keyed (hdated.get _) hrefresh))
  next => cases hresult

end

/-! ## Encrypting and purging -/

section

variable {transform : String → Encrypting String}

mutual

theorem walk_keyed :
    ∀ (value : Json) {draw : ℕ} {encrypted : Json} {next : ℕ}, value.keyed = true →
      walk transform value draw = .ok (encrypted, next) → encrypted.keyed = true
  | .dict fields, draw, encrypted, next, hvalue, hwalk => by
      rw [walk] at hwalk
      obtain ⟨walked, _, hwalked, hresult⟩ := encrypting_bind_eq_ok.mp hwalk
      cases encrypting_pure_eq_ok.mp hresult
      rw [Json.keyed, Bool.and_eq_true, decide_eq_true_eq] at hvalue ⊢
      obtain ⟨hkeys, hvalues⟩ := walkFields_keyed fields hvalue.2 hwalked
      exact ⟨hkeys ▸ hvalue.1, hvalues⟩
  | .list items, draw, encrypted, next, hvalue, hwalk => by
      rw [walk] at hwalk
      obtain ⟨walked, _, hwalked, hresult⟩ := encrypting_bind_eq_ok.mp hwalk
      cases encrypting_pure_eq_ok.mp hresult
      exact walkItems_keyed items hvalue hwalked
  | .null, _, _, _, _, hwalk | .bool _, _, _, _, _, hwalk | .int _, _, _, _, _, hwalk
  | .float _, _, _, _, _, hwalk | .str _, _, _, _, _, hwalk => by
      rw [walk] at hwalk
      · cases encrypting_pure_eq_ok.mp hwalk
        rfl
      all_goals simp

theorem walkItems_keyed :
    ∀ (items : List Json) {draw : ℕ} {encrypted : List Json} {next : ℕ},
      Json.itemsKeyed items = true →
      walkItems transform items draw = .ok (encrypted, next) →
      Json.itemsKeyed encrypted = true
  | [], draw, encrypted, next, _, hwalk => by
      rw [walkItems] at hwalk
      cases encrypting_pure_eq_ok.mp hwalk
      rfl
  | item :: rest, draw, encrypted, next, hitems, hwalk => by
      rw [walkItems] at hwalk
      obtain ⟨first, _, hfirst, hwalk⟩ := encrypting_bind_eq_ok.mp hwalk
      obtain ⟨others, _, hothers, hresult⟩ := encrypting_bind_eq_ok.mp hwalk
      cases encrypting_pure_eq_ok.mp hresult
      rw [Json.itemsKeyed, Bool.and_eq_true] at hitems ⊢
      exact ⟨walk_keyed item hitems.1 hfirst, walkItems_keyed rest hitems.2 hothers⟩

theorem walkFields_keyed :
    ∀ (fields : List (String × Json)) {draw : ℕ} {encrypted : List (String × Json)}
      {next : ℕ}, Json.fieldsKeyed fields = true →
      walkFields transform fields draw = .ok (encrypted, next) →
      encrypted.map Prod.fst = fields.map Prod.fst ∧ Json.fieldsKeyed encrypted = true
  | [], draw, encrypted, next, _, hwalk => by
      rw [walkFields] at hwalk
      cases encrypting_pure_eq_ok.mp hwalk
      exact ⟨rfl, rfl⟩
  | (key, child) :: rest, draw, encrypted, next, hfields, hwalk => by
      rw [walkFields] at hwalk
      rw [Json.fieldsKeyed, Bool.and_eq_true] at hfields
      cases htext : secretText key child with
      | some text =>
          simp only [htext] at hwalk
          obtain ⟨first, _, hfirst, hwalk⟩ := encrypting_bind_eq_ok.mp hwalk
          obtain ⟨others, _, hothers, hresult⟩ := encrypting_bind_eq_ok.mp hwalk
          cases encrypting_pure_eq_ok.mp hresult
          obtain ⟨value, -, rfl⟩ := encrypting_map_eq_ok.mp hfirst
          obtain ⟨hkeys, hvalues⟩ := walkFields_keyed rest hfields.2 hothers
          refine ⟨congrArg (key :: ·) hkeys, ?_⟩
          rw [Json.fieldsKeyed, Bool.and_eq_true]
          exact ⟨rfl, hvalues⟩
      | none =>
          simp only [htext] at hwalk
          obtain ⟨first, _, hfirst, hwalk⟩ := encrypting_bind_eq_ok.mp hwalk
          obtain ⟨others, _, hothers, hresult⟩ := encrypting_bind_eq_ok.mp hwalk
          cases encrypting_pure_eq_ok.mp hresult
          obtain ⟨hkeys, hvalues⟩ := walkFields_keyed rest hfields.2 hothers
          refine ⟨congrArg (key :: ·) hkeys, ?_⟩
          rw [Json.fieldsKeyed, Bool.and_eq_true]
          exact ⟨walk_keyed child hfields.1 hfirst, hvalues⟩

end

end

theorem purgeSecretFields_keys
    (fields : Dict) : (purgeSecretFields fields).map Prod.fst = fields.map Prod.fst := by
  induction fields with
  | nil => rfl
  | cons field rest ih =>
      rw [purgeSecretFields, List.map_cons, List.map_cons, ih]

mutual

theorem purgeSecretValues_keyed :
    ∀ value : Json, value.keyed = true → (purgeSecretValues value).keyed = true
  | .dict fields, hvalue => by
      rw [purgeSecretValues, Json.keyed, Bool.and_eq_true, decide_eq_true_eq]
      rw [Json.keyed, Bool.and_eq_true, decide_eq_true_eq] at hvalue
      rw [purgeSecretFields_keys]
      exact ⟨hvalue.1, purgeSecretFields_keyed fields hvalue.2⟩
  | .list items, hvalue => by
      rw [purgeSecretValues, Json.keyed]
      exact purgeSecretItems_keyed items hvalue
  | .null, _ | .bool _, _ | .int _, _ | .float _, _ | .str _, _ => by
      rw [purgeSecretValues]
      · rfl
      all_goals simp

theorem purgeSecretItems_keyed :
    ∀ items : List Json, Json.itemsKeyed items = true →
      Json.itemsKeyed (purgeSecretItems items) = true
  | [], _ => rfl
  | item :: rest, hitems => by
      rw [Json.itemsKeyed, Bool.and_eq_true] at hitems
      rw [purgeSecretItems, Json.itemsKeyed, Bool.and_eq_true]
      exact ⟨purgeSecretValues_keyed item hitems.1, purgeSecretItems_keyed rest hitems.2⟩

theorem purgeSecretFields_keyed :
    ∀ fields : List (String × Json), Json.fieldsKeyed fields = true →
      Json.fieldsKeyed (purgeSecretFields fields) = true
  | [], _ => rfl
  | (key, child) :: rest, hfields => by
      rw [Json.fieldsKeyed, Bool.and_eq_true] at hfields
      rw [purgeSecretFields, Json.fieldsKeyed, Bool.and_eq_true]
      refine ⟨?_, purgeSecretFields_keyed rest hfields.2⟩
      split
      · rfl
      · exact purgeSecretValues_keyed child hfields.1

end

theorem purgeCredentialSecretData_keyed
    (py : Interpreter) (now : Time) {data : Dict} (hdata : Dict.Keyed data) :
    Dict.Keyed (purgeCredentialSecretData py now data) := by
  unfold purgeCredentialSecretData
  have hpurged := purgeSecretValues_keyed (.dict data) (Json.keyed_dict.mpr hdata)
  rw [purgeSecretValues, Json.keyed_dict] at hpurged
  exact hpurged.set _ rfl

/-! ## The stored dictionary -/

section

variable {py : Interpreter} {settings : EncryptionSettings} {data stored : Dict}

theorem legacyCredentialAuth_keyed
    (hdata : Dict.Keyed data) (authType : String) :
    Dict.Keyed (legacyCredentialAuth authType data) := by
  have hget : ∀ key {fallback : Json}, fallback.keyed = true →
      ((Dict.get data key).or fallback).keyed = true :=
    fun key _ hfallback => Json.keyed_or (hdata.get key) hfallback
  unfold legacyCredentialAuth
  split
  · refine ⟨by simp, ?_⟩
    simp only [List.forall_mem_cons]
    exact ⟨rfl, hget _ rfl, Json.keyed_or (hget _ (hdata.get _)) rfl, by simp⟩
  · split
    · refine ⟨by simp, ?_⟩
      simp only [List.forall_mem_cons]
      exact ⟨rfl, Json.keyed_or (hget _ (hdata.get _)) rfl, hget _ rfl, hget _ rfl,
        by simp⟩
    · refine ⟨by simp, ?_⟩
      simp only [List.forall_mem_cons]
      exact ⟨rfl, hget _ rfl, hget _ rfl, hdata.get _, hdata.get _, by simp⟩

theorem withDisplayName_keyed
    (hdata : Dict.Keyed data) (name : Option String) :
    Dict.Keyed (withDisplayName data name) := by
  cases name with
  | none => exact hdata
  | some name => exact (hdata.set _ rfl).setdefault _ rfl

theorem withAuth_keyed (hdata : Dict.Keyed data) : Dict.Keyed (withAuth py data) := by
  unfold withAuth
  split
  · exact hdata
  · exact (hdata.pop _).set _
      (Json.keyed_dict.mpr (legacyCredentialAuth_keyed (hdata.pop _) _))

theorem normalizeCredentialData_keyed
    {cipher : SecretCipher} (hdata : Dict.Keyed data)
    (hstored : normalizeCredentialData py cipher data = .ok stored) :
    Dict.Keyed stored := by
  unfold normalizeCredentialData at hstored
  simp only [bind_eq_ok, pure_eq_ok] at hstored
  obtain ⟨name, -, auth, hauth, ⟨encrypted, draw⟩, hencrypted, metadata, hmetadata,
    rfl⟩ :=
    hstored
  have hnormalized : Dict.Keyed (withAuth py (withDisplayName data name)) :=
    withAuth_keyed (withDisplayName_keyed hdata name)
  have hauthKeyed := normalizeCredentialAuth_keyed (hnormalized.get "auth") hauth
  have hencryptedKeyed : (Json.dict encrypted).keyed = true := by
    rw [Json.keyed, Bool.and_eq_true, decide_eq_true_eq]
    obtain ⟨hkeys, hvalues⟩ := walkFields_keyed auth
      (Json.fieldsKeyed_iff.mpr hauthKeyed.values) hencrypted
    exact ⟨hkeys ▸ hauthKeyed.distinct, hvalues⟩
  exact (hnormalized.set _ hencryptedKeyed).set _
    (Json.keyed_dict.mpr (normalizeMetadata_stored hmetadata).keyed)

theorem validatedCredentialData_keyed
    {now : Time} {held : Resource} {vaultId : String} (hheld : Dict.Keyed held.data)
    (hdata : validatedCredentialData py now held vaultId = .ok data) :
    Dict.Keyed data := by
  unfold validatedCredentialData at hdata
  simp only [bind_eq_ok, pure_eq_ok] at hdata
  obtain ⟨metadata, hmetadata, rfl⟩ := hdata
  exact hheld.set _ (Json.keyed_dict.mpr
    ((toDict_keyed (hheld.get _) hmetadata).set _ rfl))

end

/-! ## The shape of stored data -/

/-- The keys are distinct at every depth, and `auth` and `metadata` are objects. -/
structure CredentialShape (data : Dict) : Prop where
  keyed : Dict.Keyed data
  auth : ∃ auth, Dict.get data "auth" = .dict auth
  metadata : ∃ metadata, Dict.get data "metadata" = .dict metadata

section

variable {py : Interpreter} {settings : EncryptionSettings} {data stored : Dict}

theorem CredentialShape.contains_auth
    (hshape : CredentialShape data) : Dict.contains data "auth" = true := by
  obtain ⟨auth, hauth⟩ := hshape.auth
  exact Dict.contains_of_get (by simp [hauth])

theorem normalizeCredentialData_shape
    {cipher : SecretCipher} (hdata : Dict.Keyed data)
    (hstored : normalizeCredentialData py cipher data = .ok stored) :
    CredentialShape stored := by
  have hkeyed := normalizeCredentialData_keyed hdata hstored
  unfold normalizeCredentialData at hstored
  simp only [bind_eq_ok, pure_eq_ok] at hstored
  obtain ⟨name, -, auth, -, ⟨encrypted, draw⟩, -, metadata, -, rfl⟩ := hstored
  refine ⟨hkeyed, ⟨encrypted, ?_⟩, metadata, Dict.get_set_same _ _ _⟩
  rw [Dict.get_set_other _ (by decide), Dict.get_set_same]

theorem purgeSecretFields_get
    (fields : Dict) (key : String) :
    Dict.get (purgeSecretFields fields) key =
      if isSecretKey key then .null else purgeSecretValues (Dict.get fields key) := by
  induction fields with
  | nil => simp [purgeSecretFields, Dict.get, purgeSecretValues]
  | cons field rest ih =>
      obtain ⟨name, child⟩ := field
      by_cases hname : name = key
      · subst hname
        simp [purgeSecretFields, Dict.get]
      · simp [purgeSecretFields, Dict.get, hname, ih]

theorem purgeSecretFields_plain
    {fields : Dict} {key : String} (hkey : isSecretKey key = false) :
    Dict.get (purgeSecretFields fields) key =
      purgeSecretValues (Dict.get fields key) := by
  rw [purgeSecretFields_get, hkey]
  rfl

theorem purgeCredentialSecretData_shape
    (py : Interpreter) (now : Time) (hdata : CredentialShape data) :
    CredentialShape (purgeCredentialSecretData py now data) := by
  have hauthKey : isSecretKey "auth" = false := isSecretKey_plain _ (by simp)
  have hmetadataKey : isSecretKey "metadata" = false := isSecretKey_plain _ (by simp)
  obtain ⟨auth, hauth⟩ := hdata.auth
  obtain ⟨metadata, hmetadata⟩ := hdata.metadata
  refine ⟨purgeCredentialSecretData_keyed py now hdata.keyed,
    ⟨purgeSecretFields auth, ?_⟩, purgeSecretFields metadata, ?_⟩
  · rw [purgeCredentialSecretData, Dict.get_set_other _ (by decide),
      purgeSecretFields_plain hauthKey, hauth, purgeSecretValues]
  · rw [purgeCredentialSecretData, Dict.get_set_other _ (by decide),
      purgeSecretFields_plain hmetadataKey, hmetadata, purgeSecretValues]

theorem validatedCredentialData_eq_ok
    {now : Time} {held : Resource} {vaultId : String} (hheld : CredentialShape held.data)
    (hdata : validatedCredentialData py now held vaultId = .ok data) :
    ∃ metadata validation, Dict.get held.data "metadata" = .dict metadata ∧
      data = Dict.set held.data "metadata"
        (.dict (Dict.set metadata "last_validation" (.str validation))) := by
  obtain ⟨metadata, hmetadata⟩ := hheld.metadata
  unfold validatedCredentialData at hdata
  rw [hmetadata, toDict_dict] at hdata
  cases hdata
  exact ⟨metadata, _, hmetadata, rfl⟩

theorem validatedCredentialData_shape
    {now : Time} {held : Resource} {vaultId : String} (hheld : CredentialShape held.data)
    (hdata : validatedCredentialData py now held vaultId = .ok data) :
    CredentialShape data := by
  have hkeyed := validatedCredentialData_keyed hheld.keyed hdata
  obtain ⟨metadata, validation, -, rfl⟩ := validatedCredentialData_eq_ok hheld hdata
  obtain ⟨auth, hauth⟩ := hheld.auth
  refine ⟨hkeyed, ⟨auth, ?_⟩, _, Dict.get_set_same _ _ _⟩
  rw [Dict.get_set_other _ (by decide), hauth]

theorem newData_shape
    {call : CredentialCall} {held : Resource} (hheld : CredentialShape held.data)
    (hdata : NewData py settings call held data) : CredentialShape data := by
  unfold NewData at hdata
  cases hrequest : call.request <;> simp only [hrequest] at hdata
  case update vaultId credentialId body =>
    obtain ⟨merged, hmerged, hnormal⟩ := hdata
    exact normalizeCredentialData_shape
      (mergeCredentialUpdate_keyed hheld.keyed body.keyed hmerged) hnormal
  case archive | delete =>
    subst hdata
    exact purgeCredentialSecretData_shape _ _ hheld
  case validate => exact validatedCredentialData_shape hheld hdata

end

/-! ## Fields by key -/

section

variable {Holds : Json → Prop} {fields left right : Dict}

/-- What holds of null holds of all fields if it holds of the value under every key. -/
theorem Dict.forall_field_iff
    {Holds : String × Json → Prop} (hdistinct : (fields.map Prod.fst).Nodup)
    (hnull : ∀ key, Holds (key, .null)) :
    (∀ field ∈ fields, Holds field) ↔ ∀ key, Holds (key, Dict.get fields key) := by
  constructor
  · exact fun hfields key => Dict.get_holds hfields (hnull key)
  · intro hget field hfield
    have hvalue := hget field.1
    rwa [Dict.get_of_mem hdistinct hfield] at hvalue

theorem Dict.Keyed.secretsHold_iff
    (hfields : Dict.Keyed fields) (hnull : Holds .null) :
    Dict.SecretsHold Holds fields ↔ ∀ key, FieldHolds Holds (key, Dict.get fields key) :=
  Dict.forall_field_iff hfields.distinct (fieldHolds_null hnull)

/-- Equal dictionaries hold the same if equal values of their fields do. -/
theorem Dict.secretsHold_equal
    (hleft : Dict.Keyed left) (hright : Dict.Keyed right) (hnull : Holds .null)
    (hequal : Dict.equal left right = true)
    (hvalues : ∀ field ∈ left, ∀ value, value.keyed = true →
      Json.equal field.2 value = true →
        (FieldHolds Holds field ↔ FieldHolds Holds (field.1, value))) :
    Dict.SecretsHold Holds left ↔ Dict.SecretsHold Holds right := by
  rw [hleft.secretsHold_iff hnull, hright.secretsHold_iff hnull]
  refine forall_congr' fun key => ?_
  have hsame := (Dict.equal_iff hleft hright.distinct).mp hequal key
  rw [Dict.get_eq_find, Dict.get_eq_find]
  cases hfirst : Dict.find left key with
  | none =>
      cases hsecond : Dict.find right key with
      | none => exact Iff.rfl
      | some value => simp [hfirst, hsecond, sameValue] at hsame
  | some value =>
      cases hsecond : Dict.find right key with
      | none => simp [hfirst, hsecond, sameValue] at hsame
      | some other =>
          rw [hfirst, hsecond] at hsame
          have hcontains : Dict.contains left key = true := by
            rw [Dict.contains_eq_find, hfirst]
            rfl
          obtain ⟨field, hfield, rfl⟩ := Dict.exists_of_contains hcontains
          have hvalue : field.2 = value := by
            rw [← Dict.get_of_mem hleft.distinct hfield, Dict.get_eq_find, hfirst]
            rfl
          subst hvalue
          exact hvalues field hfield other (hright.find hsecond) hsame

mutual

/-- Equal values hold the same secrets. -/
theorem Json.secretsHold_equal
    (hnull : Holds .null)
    (hrespects : ∀ left right, Json.equal left right = true →
      (Holds left ↔ Holds right)) :
    ∀ (left right : Json), left.keyed = true → right.keyed = true →
      Json.equal left right = true →
        (Json.SecretsHold Holds left ↔ Json.SecretsHold Holds right)
  | .dict fields, right, hleft, hright, hequal => by
      cases right with
      | dict others =>
          rw [Json.secretsHold_dict, Json.secretsHold_dict]
          rw [Json.keyed_dict] at hleft hright
          refine Dict.secretsHold_equal hleft hright hnull ?_
            (Json.fieldHolds_equal hnull hrespects fields
              (Json.fieldsKeyed_iff.mpr hleft.values))
          simp [Dict.equal, hequal]
      | _ => simp [Json.equal] at hequal
  | .list items, right, hleft, hright, hequal => by
      cases right with
      | list others =>
          exact Json.itemSecretsHold_equal hnull hrespects items others hleft hright hequal
      | _ => simp [Json.equal] at hequal
  | .null, right, _, _, hequal | .bool _, right, _, _, hequal | .int _, right, _, _,
    hequal
  | .float _, right, _, _, hequal | .str _, right, _, _, hequal => by
      cases right with
      | dict others => simp [Json.equal, Json.number] at hequal
      | list others => simp [Json.equal, Json.number] at hequal
      | _ => exact Iff.rfl

theorem Json.itemSecretsHold_equal
    (hnull : Holds .null)
    (hrespects : ∀ left right, Json.equal left right = true →
      (Holds left ↔ Holds right)) :
    ∀ (items others : List Json), Json.itemsKeyed items = true →
      Json.itemsKeyed others = true → Json.equalItems items others = true →
        (Json.ItemSecretsHold Holds items ↔ Json.ItemSecretsHold Holds others)
  | [], [], _, _, _ => Iff.rfl
  | item :: rest, other :: others, hitems, hothers, hequal => by
      rw [Json.itemsKeyed, Bool.and_eq_true] at hitems hothers
      rw [Json.equalItems, Bool.and_eq_true] at hequal
      exact and_congr
        (Json.secretsHold_equal hnull hrespects item other hitems.1 hothers.1 hequal.1)
        (Json.itemSecretsHold_equal hnull hrespects rest others hitems.2 hothers.2
          hequal.2)
  | [], _ :: _, _, _, hequal | _ :: _, [], _, _, hequal => by
      simp [Json.equalItems] at hequal

theorem Json.fieldHolds_equal
    (hnull : Holds .null)
    (hrespects : ∀ left right, Json.equal left right = true →
      (Holds left ↔ Holds right)) :
    ∀ (fields : List (String × Json)), Json.fieldsKeyed fields = true →
      ∀ field ∈ fields, ∀ value, value.keyed = true → Json.equal field.2 value = true →
        (FieldHolds Holds field ↔ FieldHolds Holds (field.1, value))
  | [], _, field, hfield, _, _, _ => by cases hfield
  | (key, child) :: rest, hfields, field, hfield, value, hvalue, hequal => by
      rw [Json.fieldsKeyed, Bool.and_eq_true] at hfields
      rcases List.mem_cons.mp hfield with rfl | hfield
      · exact and_congr (imp_congr_right fun _ => hrespects child value hequal)
          (Json.secretsHold_equal hnull hrespects child value hfields.1 hvalue hequal)
      · exact Json.fieldHolds_equal hnull hrespects rest hfields.2 field hfield value
          hvalue hequal

end

/-- Equal dictionaries hold the same secrets. -/
theorem Dict.Keyed.secretsHold_of_equal
    (hleft : Dict.Keyed left) (hright : Dict.Keyed right) (hnull : Holds .null)
    (hrespects : ∀ left right, Json.equal left right = true → (Holds left ↔ Holds right))
    (hequal : Dict.equal left right = true) :
    Dict.SecretsHold Holds left ↔ Dict.SecretsHold Holds right :=
  Dict.secretsHold_equal hleft hright hnull hequal
    (Json.fieldHolds_equal hnull hrespects left (Json.fieldsKeyed_iff.mpr hleft.values))

end

end ManagedAgents
