import ManagedAgents.ListWalks
import ManagedAgents.Runtime.Context
import ManagedAgents.SealedSecrets

/-!
# Responses of credentials

The response of a credential is the redacted dictionary with an `auth` of its
own, which names the fields it shows.  What a normalised `auth` holds in these
fields contains no secret, so responses are a function of the purged row.
-/

namespace ManagedAgents

open Fallible LabelledRuns ReadCommitted

/-! ## The response of `auth` -/

def withoutNulls (fields : Dict) : Dict := fields.filter fun field => field.2 ≠ .null

def credentialNetworkingResponse : Json → Except HTTPException Dict
  | .dict value =>
      if Dict.get value "type" = .str "limited" then do
        let hosts ← listOf (Dict.get value "allowed_hosts")
        return [("type", .str "limited"), ("allowed_hosts", .list hosts)]
      else .ok [("type", .str "unrestricted")]
  | _ => .ok [("type", .str "unrestricted")]

/-- `auth.get("type")`, with `none` for another type than the three. -/
def tokenEndpointAuthType : Json → Except HTTPException String
  | .dict auth =>
      match Dict.get auth "type" with
      | .str text =>
          .ok (if text ∈ CREDENTIAL_TOKEN_ENDPOINT_AUTH_TYPES then text else "none")
      | .list _ | .dict _ => .error internalServerError
      | _ => .ok "none"
  | _ => .error internalServerError

def credentialRefreshResponse (py : Interpreter) : Json → Except HTTPException Json
  | .dict value => do
      let authType ← tokenEndpointAuthType
        ((Dict.get value "token_endpoint_auth").or (.dict []))
      return .dict (withoutNulls
        [("client_id", .str (py.str ((Dict.get value "client_id").or (.str "")))),
         ("token_endpoint",
           .str (py.str ((Dict.get value "token_endpoint").or (.str "")))),
         ("token_endpoint_auth", .dict [("type", .str authType)]),
         ("resource", Dict.get value "resource"),
         ("scope", Dict.get value "scope")])
  | _ => .ok .null

def credentialAuthResponse (py : Interpreter) (auth : Dict) :
    Except HTTPException Dict :=
  let authType := py.str ((Dict.get auth "type").or (.str "mcp_oauth"))
  let url := py.str
    ((Dict.get auth "mcp_server_url").or (.str "https://example.invalid/mcp"))
  if authType = "static_bearer" then
    .ok [("type", .str "static_bearer"), ("mcp_server_url", .str url)]
  else if authType = "environment_variable" then do
    let networking ← credentialNetworkingResponse (Dict.get auth "networking")
    return [("type", .str "environment_variable"),
      ("secret_name", .str (py.str ((Dict.get auth "secret_name").or (.str "SECRET")))),
      ("networking", .dict networking)]
  else do
    let refresh ← credentialRefreshResponse py (Dict.get auth "refresh")
    return withoutNulls
      [("type", .str "mcp_oauth"), ("mcp_server_url", .str url),
       ("expires_at", Dict.get auth "expires_at"), ("refresh", refresh)]

/-! ## The response of the row -/

def credentialResponse (py : Interpreter) (columns : ShownColumns) (resource : Resource) :
    Except HTTPException Dict := do
  let response := resourceToResponse py columns resource (some "vault_credential")
  let response := Dict.set response "vault_id" (optionalText resource.parentId)
  let response := Dict.set response "display_name"
    ((Dict.get response "display_name").or (Dict.get response "name"))
  let metadata ← toDict (Dict.get response "metadata")
  let response := Dict.set response "metadata" (.dict metadata)
  match credentialAuth resource with
  | .dict auth => do
      let shown ← credentialAuthResponse py auth
      return Dict.set response "auth" (.dict shown)
  | _ => throw internalServerError

/-- The end of `_list_child`, with the rows that the query returned. -/
def credentialListResponse (py : Interpreter) (columns : RowColumns)
    (credentials : List Resource) (limit : ℤ) (page : Option String) (now : Time) :
    Except HTTPException (ListResponse Dict) := do
  let credentials ← sortByCreatedAt credentials (some "desc")
  let items ← credentials.mapM fun credential =>
    credentialResponse py (columns credential) credential
  paginate py.toPython now items (some limit) page

/-! ## Rows that differ in secrets -/

mutual

/-- Non-empty texts under secret keys are covered. -/
def maskSecretValues : Json → Json
  | .list items => .list (maskSecretItems items)
  | .dict fields => .dict (maskSecretFields fields)
  | value => value

def maskSecretItems : List Json → List Json
  | [] => []
  | item :: rest => maskSecretValues item :: maskSecretItems rest

def maskSecretFields : List (String × Json) → List (String × Json)
  | [] => []
  | (key, child) :: rest =>
      (key,
        match secretText key child with
        | some text => .str (if text = "" then "" else "masked")
        | none => maskSecretValues child) :: maskSecretFields rest

end

/-- The rows are equal except for non-empty texts under secret keys. -/
structure AlikeExceptSecrets (row other : Resource) : Prop where
  data : maskSecretFields row.data = maskSecretFields other.data
  columns : other = { row with data := other.data }

/-- The credential is in a state which some requests have led to. -/
def ReachableCredential (py : Interpreter) (settings : EncryptionSettings)
    (row : Resource) : Prop :=
  IsCredential row ∧ ∃ (start : List Resource) (calls : List (CredentialCall × List ℕ))
    (last : CredentialWorld), (∀ other ∈ start, ¬IsCredential other) ∧
      run (credentialStep py settings) { current := start, past := [] } calls =
        some last ∧ ∃ state ∈ last.history, row ∈ state

/-! ## Secret keys are redacted -/

theorem isSecretKey_looksSecretKey
    {key : String} (hkey : isSecretKey key = true) : looksSecretKey key = true := by
  unfold looksSecretKey
  rw [List.any_eq_true]
  simp only [occursIn_iff]
  unfold isSecretKey at hkey
  simp only [Bool.or_eq_true, decide_eq_true_eq, List.isSuffixOf_iff_suffix] at hkey
  rcases hkey with (hkey | hkey) | hkey
  · have hnamed : ∀ chars ∈ SECRET_VALUE_KEYS.map String.toList,
        ∃ part ∈ SECRET_KEY_PARTS, occursIn part.toList chars = true := by decide
    simpa only [occursIn_iff] using hnamed _ hkey
  · refine ⟨"token", by decide, ?_⟩
    exact List.IsInfix.trans (by decide) hkey.isInfix
  · refine ⟨"api_key", by decide, ?_⟩
    exact List.IsInfix.trans (by decide) hkey.isInfix

/-! ## Purging covers more -/

mutual

theorem purge_mask :
    ∀ value, purgeSecretValues (maskSecretValues value) = purgeSecretValues value
  | .dict fields => by
      rw [maskSecretValues, purgeSecretValues, purgeSecretValues, purge_maskFields fields]
  | .list items => by
      rw [maskSecretValues, purgeSecretValues, purgeSecretValues, purge_maskItems items]
  | .null | .bool _ | .int _ | .float _ | .str _ => by
      rw [maskSecretValues]
      all_goals simp

theorem purge_maskItems :
    ∀ items, purgeSecretItems (maskSecretItems items) = purgeSecretItems items
  | [] => rfl
  | item :: rest => by
      rw [maskSecretItems, purgeSecretItems, purgeSecretItems, purge_mask item,
        purge_maskItems rest]

theorem purge_maskFields :
    ∀ fields, purgeSecretFields (maskSecretFields fields) = purgeSecretFields fields
  | [] => rfl
  | (key, child) :: rest => by
      rw [maskSecretFields, purgeSecretFields, purgeSecretFields, purge_maskFields rest]
      by_cases hkey : isSecretKey key = true
      · simp [hkey]
      · have hnone : secretText key child = none := by
          cases child <;> simp [secretText, hkey]
        simp [hkey, hnone, purge_mask child]

end

mutual

theorem redact_purge :
    ∀ value, redactSecretValues (purgeSecretValues value) = redactSecretValues value
  | .dict fields => by
      rw [purgeSecretValues, redactSecretValues, redactSecretValues,
        redact_purgeFields fields]
  | .list items => by
      rw [purgeSecretValues, redactSecretValues, redactSecretValues,
        redact_purgeItems items]
  | .null | .bool _ | .int _ | .float _ | .str _ => by
      rw [purgeSecretValues]
      all_goals simp

theorem redact_purgeItems :
    ∀ items, redactSecretItems (purgeSecretItems items) = redactSecretItems items
  | [] => rfl
  | item :: rest => by
      rw [purgeSecretItems, redactSecretItems, redactSecretItems, redact_purge item,
        redact_purgeItems rest]

theorem redact_purgeFields :
    ∀ fields, redactSecretFields (purgeSecretFields fields) = redactSecretFields fields
  | [] => rfl
  | (key, child) :: rest => by
      rw [purgeSecretFields, redactSecretFields, redactSecretFields,
        redact_purgeFields rest]
      by_cases hkey : isSecretKey key = true
      · simp [isSecretKey_looksSecretKey hkey]
      · simp [hkey, redact_purge child]

end

mutual

theorem purge_walk
    {transform : String → Encrypting String} :
    ∀ (value : Json) {draw : ℕ} {walked : Json} {next : ℕ},
      walk transform value draw = .ok (walked, next) →
      purgeSecretValues walked = purgeSecretValues value
  | .dict fields, draw, walked, next, hwalk => by
      rw [walk] at hwalk
      obtain ⟨others, _, hothers, hresult⟩ := encrypting_bind_eq_ok.mp hwalk
      cases encrypting_pure_eq_ok.mp hresult
      rw [purgeSecretValues, purgeSecretValues, purge_walkFields fields hothers]
  | .list items, draw, walked, next, hwalk => by
      rw [walk] at hwalk
      obtain ⟨others, _, hothers, hresult⟩ := encrypting_bind_eq_ok.mp hwalk
      cases encrypting_pure_eq_ok.mp hresult
      rw [purgeSecretValues, purgeSecretValues, purge_walkItems items hothers]
  | .null, _, _, _, hwalk | .bool _, _, _, _, hwalk | .int _, _, _, _, hwalk
  | .float _, _, _, _, hwalk | .str _, _, _, _, hwalk => by
      rw [walk] at hwalk
      · cases encrypting_pure_eq_ok.mp hwalk
        rfl
      all_goals simp

theorem purge_walkItems
    {transform : String → Encrypting String} :
    ∀ (items : List Json) {draw : ℕ} {walked : List Json} {next : ℕ},
      walkItems transform items draw = .ok (walked, next) →
      purgeSecretItems walked = purgeSecretItems items
  | [], draw, walked, next, hwalk => by
      rw [walkItems] at hwalk
      cases encrypting_pure_eq_ok.mp hwalk
      rfl
  | item :: rest, draw, walked, next, hwalk => by
      rw [walkItems] at hwalk
      obtain ⟨first, _, hfirst, hwalk⟩ := encrypting_bind_eq_ok.mp hwalk
      obtain ⟨others, _, hothers, hresult⟩ := encrypting_bind_eq_ok.mp hwalk
      cases encrypting_pure_eq_ok.mp hresult
      rw [purgeSecretItems, purgeSecretItems, purge_walk item hfirst,
        purge_walkItems rest hothers]

theorem purge_walkFields
    {transform : String → Encrypting String} :
    ∀ (fields : List (String × Json)) {draw : ℕ} {walked : List (String × Json)}
      {next : ℕ}, walkFields transform fields draw = .ok (walked, next) →
      purgeSecretFields walked = purgeSecretFields fields
  | [], draw, walked, next, hwalk => by
      rw [walkFields] at hwalk
      cases encrypting_pure_eq_ok.mp hwalk
      rfl
  | (key, child) :: rest, draw, walked, next, hwalk => by
      rw [walkFields] at hwalk
      cases htext : secretText key child with
      | some text =>
          obtain ⟨hkey, rfl⟩ := secretText_eq_some.mp htext
          simp only [htext] at hwalk
          obtain ⟨first, _, hfirst, hwalk⟩ := encrypting_bind_eq_ok.mp hwalk
          obtain ⟨others, _, hothers, hresult⟩ := encrypting_bind_eq_ok.mp hwalk
          cases encrypting_pure_eq_ok.mp hresult
          rw [purgeSecretFields, purgeSecretFields, purge_walkFields rest hothers, hkey]
          rfl
      | none =>
          simp only [htext] at hwalk
          obtain ⟨first, _, hfirst, hwalk⟩ := encrypting_bind_eq_ok.mp hwalk
          obtain ⟨others, _, hothers, hresult⟩ := encrypting_bind_eq_ok.mp hwalk
          cases encrypting_pure_eq_ok.mp hresult
          rw [purgeSecretFields, purgeSecretFields, purge_walk child hfirst,
            purge_walkFields rest hothers]

end

/-! ## Reading a purged dictionary -/

theorem get_purge
    {key : String} (hkey : isSecretKey key = false) (fields : Dict) :
    Dict.get (purgeSecretFields fields) key =
      purgeSecretValues (Dict.get fields key) := by
  induction fields with
  | nil =>
      rw [purgeSecretFields, Dict.get, purgeSecretValues]
      all_goals simp
  | cons field rest ih =>
      by_cases hsame : field.1 = key
      · simp [purgeSecretFields, Dict.get, hsame, hkey]
      · simp only [purgeSecretFields, Dict.get, hsame, if_false]
        exact ih

@[simp] theorem purge_eq_str
    {value : Json}
    {text : String} : purgeSecretValues value = .str text ↔ value = .str text := by
  cases value <;> simp [purgeSecretValues]

@[simp] theorem purge_eq_null
    {value : Json} : purgeSecretValues value = .null ↔ value = .null := by
  cases value <;> simp [purgeSecretValues]

@[simp] theorem purge_eq_dict
    {value : Json} {purged : Dict} :
    purgeSecretValues value = .dict purged ↔
      ∃ fields, value = .dict fields ∧ purgeSecretFields fields = purged := by
  cases value <;> simp [purgeSecretValues]

theorem purgeItems_texts
    {items texts : List Json} (htexts : ∀ text ∈ texts, ∃ host, text = .str host) :
    purgeSecretItems items = texts ↔ items = texts := by
  induction items generalizing texts with
  | nil => simp [purgeSecretItems]
  | cons item rest ih =>
      cases texts with
      | nil => simp [purgeSecretItems]
      | cons text others =>
          obtain ⟨⟨host, rfl⟩, hothers⟩ := List.forall_mem_cons.mp htexts
          simp [purgeSecretItems, ih hothers]

theorem purge_truthy
    (value : Json) :
    (purgeSecretValues value).truthy = value.truthy := by
  cases value with
  | dict fields => cases fields <;>
    simp [purgeSecretValues, purgeSecretFields, Json.truthy]
  | list items => cases items <;> simp [purgeSecretValues, purgeSecretItems, Json.truthy]
  | null | bool | int | float | str => simp [purgeSecretValues]

/-! ## The shape of a normalised `auth` -/

def IsText (value : Json) : Prop := ∃ text, value = .str text

def TextOrNull (value : Json) : Prop := value = .null ∨ IsText value

def NetworkingShape (value : Json) : Prop :=
  ∃ fields, value = .dict fields ∧ IsText (Dict.get fields "type") ∧
    (Dict.get fields "type" = .str "limited" →
      ∃ hosts, Dict.get fields "allowed_hosts" = .list hosts ∧
        ∀ host ∈ hosts, IsText host)

structure RefreshFields (refresh : Dict) : Prop where
  clientId : IsText (Dict.get refresh "client_id")
  tokenEndpoint : IsText (Dict.get refresh "token_endpoint")
  endpointAuth : ∃ auth, Dict.get refresh "token_endpoint_auth" = .dict auth ∧
    IsText (Dict.get auth "type")
  resource : TextOrNull (Dict.get refresh "resource")
  scope : TextOrNull (Dict.get refresh "scope")

def RefreshShape (value : Json) : Prop :=
  value = .null ∨ ∃ refresh, value = .dict refresh ∧ RefreshFields refresh

/-- The fields which the response shows, for each type. -/
inductive AuthShape (auth : Dict) : Prop
  | staticBearer (htype : Dict.get auth "type" = .str "static_bearer")
      (hurl : IsText (Dict.get auth "mcp_server_url"))
  | environmentVariable (htype : Dict.get auth "type" = .str "environment_variable")
      (hname : IsText (Dict.get auth "secret_name"))
      (hnetworking : NetworkingShape (Dict.get auth "networking"))
  | mcpOauth (htype : Dict.get auth "type" = .str "mcp_oauth")
      (hurl : IsText (Dict.get auth "mcp_server_url"))
      (hexpires : TextOrNull (Dict.get auth "expires_at"))
      (hrefresh : RefreshShape (Dict.get auth "refresh"))

theorem plain_keys :
    ∀ key ∈ ["type", "mcp_server_url", "secret_name", "networking", "expires_at",
      "refresh", "allowed_hosts", "client_id", "token_endpoint", "token_endpoint_auth",
      "resource", "scope", "auth", "metadata"], isSecretKey key = false := by
  decide

@[simp] theorem isText_purge (value : Json) :
    IsText (purgeSecretValues value) ↔ IsText value := by
  simp [IsText]

@[simp] theorem textOrNull_purge (value : Json) :
    TextOrNull (purgeSecretValues value) ↔ TextOrNull value := by
  simp [TextOrNull]

theorem purge_eq_texts
    {value : Json} {texts : List Json} (htexts : ∀ text ∈ texts, IsText text) :
    purgeSecretValues value = .list texts ↔ value = .list texts := by
  cases value with
  | list items => simp [purgeSecretValues, purgeItems_texts htexts]
  | null | bool | int | float | str | dict => simp [purgeSecretValues]

@[simp] theorem networkingShape_purge (value : Json) :
    NetworkingShape (purgeSecretValues value) ↔ NetworkingShape value := by
  have htype := @get_purge "type" (plain_keys _ (by decide))
  have hhosts := @get_purge "allowed_hosts" (plain_keys _ (by decide))
  unfold NetworkingShape
  simp only [purge_eq_dict]
  constructor
  · rintro ⟨_, ⟨fields, rfl, rfl⟩, hshape⟩
    simp only [htype, hhosts, isText_purge, purge_eq_str] at hshape
    refine ⟨fields, rfl, hshape.1, fun hlimited => ?_⟩
    obtain ⟨hosts, hlist, htexts⟩ := hshape.2 hlimited
    exact ⟨hosts, (purge_eq_texts htexts).mp hlist, htexts⟩
  · rintro ⟨fields, rfl, hshape⟩
    refine ⟨_, ⟨fields, rfl, rfl⟩, ?_⟩
    simp only [htype, hhosts, isText_purge, purge_eq_str]
    refine ⟨hshape.1, fun hlimited => ?_⟩
    obtain ⟨hosts, hlist, htexts⟩ := hshape.2 hlimited
    exact ⟨hosts, (purge_eq_texts htexts).mpr hlist, htexts⟩

theorem refreshFields_purge
    (refresh : Dict) : RefreshFields (purgeSecretFields refresh) ↔
      RefreshFields refresh := by
  have htype := @get_purge "type" (plain_keys _ (by decide))
  have hclient := @get_purge "client_id" (plain_keys _ (by decide))
  have hendpoint := @get_purge "token_endpoint" (plain_keys _ (by decide))
  have hauth := @get_purge "token_endpoint_auth" (plain_keys _ (by decide))
  have hresource := @get_purge "resource" (plain_keys _ (by decide))
  have hscope := @get_purge "scope" (plain_keys _ (by decide))
  constructor
  · rintro ⟨hid, hurl, ⟨_, hgiven, htext⟩, hnamed, hscoped⟩
    rw [hclient, isText_purge] at hid
    rw [hendpoint, isText_purge] at hurl
    rw [hauth, purge_eq_dict] at hgiven
    rw [hresource, textOrNull_purge] at hnamed
    rw [hscope, textOrNull_purge] at hscoped
    obtain ⟨auth, hauth, rfl⟩ := hgiven
    rw [htype, isText_purge] at htext
    exact ⟨hid, hurl, ⟨auth, hauth, htext⟩, hnamed, hscoped⟩
  · rintro ⟨hid, hurl, ⟨auth, hgiven, htext⟩, hnamed, hscoped⟩
    constructor
    · rwa [hclient, isText_purge]
    · rwa [hendpoint, isText_purge]
    · refine ⟨purgeSecretFields auth, ?_, ?_⟩
      · rw [hauth, purge_eq_dict]
        exact ⟨auth, hgiven, rfl⟩
      · rwa [htype, isText_purge]
    · rwa [hresource, textOrNull_purge]
    · rwa [hscope, textOrNull_purge]

@[simp] theorem refreshShape_purge (value : Json) :
    RefreshShape (purgeSecretValues value) ↔ RefreshShape value := by
  unfold RefreshShape
  simp only [purge_eq_null, purge_eq_dict]
  apply or_congr_right
  constructor
  · rintro ⟨_, ⟨refresh, rfl, rfl⟩, hfields⟩
    exact ⟨refresh, rfl, (refreshFields_purge refresh).mp hfields⟩
  · rintro ⟨refresh, rfl, hfields⟩
    exact ⟨_, ⟨refresh, rfl, rfl⟩, (refreshFields_purge refresh).mpr hfields⟩

theorem authShape_purge
    (auth : Dict) : AuthShape (purgeSecretFields auth) ↔ AuthShape auth := by
  have htype := @get_purge "type" (plain_keys _ (by decide))
  have hurl := @get_purge "mcp_server_url" (plain_keys _ (by decide))
  have hname := @get_purge "secret_name" (plain_keys _ (by decide))
  have hnetworking := @get_purge "networking" (plain_keys _ (by decide))
  have hexpires := @get_purge "expires_at" (plain_keys _ (by decide))
  have hrefresh := @get_purge "refresh" (plain_keys _ (by decide))
  constructor
  · rintro (⟨hgiven, hserver⟩ | ⟨hgiven, hsecret, hshape⟩ |
      ⟨hgiven, hserver, htime, hshape⟩)
    · rw [htype, purge_eq_str] at hgiven
      rw [hurl, isText_purge] at hserver
      exact .staticBearer hgiven hserver
    · rw [htype, purge_eq_str] at hgiven
      rw [hname, isText_purge] at hsecret
      rw [hnetworking, networkingShape_purge] at hshape
      exact .environmentVariable hgiven hsecret hshape
    · rw [htype, purge_eq_str] at hgiven
      rw [hurl, isText_purge] at hserver
      rw [hexpires, textOrNull_purge] at htime
      rw [hrefresh, refreshShape_purge] at hshape
      exact .mcpOauth hgiven hserver htime hshape
  · rintro (⟨hgiven, hserver⟩ | ⟨hgiven, hsecret, hshape⟩ |
      ⟨hgiven, hserver, htime, hshape⟩)
    · refine .staticBearer ?_ ?_
      · rwa [htype, purge_eq_str]
      · rwa [hurl, isText_purge]
    · refine .environmentVariable ?_ ?_ ?_
      · rwa [htype, purge_eq_str]
      · rwa [hname, isText_purge]
      · rwa [hnetworking, networkingShape_purge]
    · refine .mcpOauth ?_ ?_ ?_ ?_
      · rwa [htype, purge_eq_str]
      · rwa [hurl, isText_purge]
      · rwa [hexpires, textOrNull_purge]
      · rwa [hrefresh, refreshShape_purge]

/-! ## Normalising gives the shape -/

section

theorem requireCredentialString_eq_ok
    {data result : Dict} {field authType : String}
    (hresult : requireCredentialString data field authType = .ok result) :
    IsText (Dict.get data field) ∧ ∀ key, Dict.get result key = Dict.get data key := by
  unfold requireCredentialString at hresult
  split at hresult
  · cases hresult
  · simp only [bind_eq_ok, pure_eq_ok] at hresult
    obtain ⟨value, hvalue, rfl⟩ := hresult
    unfold stringCredentialValue at hvalue
    split at hvalue
    next _ _ htext =>
      cases hvalue
      refine ⟨⟨_, htext⟩, fun key => ?_⟩
      by_cases hkey : field = key
      · subst hkey
        rw [Dict.get_set_same, htext]
      · rw [Dict.get_set_other _ hkey]
    next => cases hvalue

theorem optionalCredentialString_eq_ok
    {data result : Dict} {field authType : String}
    (hresult : optionalCredentialString data field authType = .ok result) :
    TextOrNull (Dict.get data field) ∧
      ∀ key, Dict.get result key = Dict.get data key := by
  unfold optionalCredentialString at hresult
  split at hresult
  next hnull =>
    cases hresult
    exact ⟨.inl hnull, fun _ => rfl⟩
  next hpresent =>
    have hrequired : requireCredentialString data field authType = .ok result := by
      rwa [requireCredentialString, if_neg hpresent]
    obtain ⟨htext, hsame⟩ := requireCredentialString_eq_ok hrequired
    exact ⟨.inr htext, hsame⟩

theorem normalizeCredentialNetworking_shape
    {value : Json} {result : Dict}
    (hresult : normalizeCredentialNetworking value = .ok result) :
    NetworkingShape (.dict result) := by
  refine ⟨result, rfl, ?_⟩
  unfold normalizeCredentialNetworking at hresult
  split at hresult
  next fields =>
    split at hresult
    · cases hresult
      refine ⟨⟨"unrestricted", rfl⟩, fun hlimited => ?_⟩
      simp [Dict.get] at hlimited
    · split at hresult
      · cases hresult
      · split at hresult
        next _ hosts hlist =>
          split at hresult
          · cases hresult
          · split at hresult
            next hbare =>
              cases hresult
              refine ⟨⟨"limited", rfl⟩, fun _ => ⟨hosts, by simp [Dict.get], ?_⟩⟩
              intro host hhost
              have hname := List.all_eq_true.mp hbare host hhost
              cases host with
              | str text => exact ⟨text, rfl⟩
              | null | bool | int | float | list | dict => cases hname
            next => cases hresult
        next => cases hresult
  next => cases hresult

theorem normalizeTokenEndpointAuth_type
    {value : Json} {result : Dict}
    (hresult : normalizeTokenEndpointAuth value = .ok result) :
    IsText (Dict.get result "type") := by
  unfold normalizeTokenEndpointAuth at hresult
  split at hresult
  next auth =>
    obtain ⟨authType, -, hresult⟩ := bind_eq_ok.mp hresult
    split at hresult
    · simp only [bind_eq_ok, pure_eq_ok] at hresult
      obtain ⟨secret, -, rfl⟩ := hresult
      exact ⟨authType, rfl⟩
    · rw [pure_eq_ok] at hresult
      subst hresult
      exact ⟨authType, rfl⟩
  next => cases hresult

theorem normalizeOauthRefresh_shape
    {value : Json} {result : Dict} (hresult : normalizeOauthRefresh value = .ok result) :
    RefreshFields result := by
  unfold normalizeOauthRefresh at hresult
  split at hresult
  next refresh =>
    simp only [bind_eq_ok] at hresult
    obtain ⟨first, hfirst, second, hsecond, third, hthird, auth, hauth, fourth, hfourth,
      hfifth⟩ := hresult
    obtain ⟨hclient, hsame⟩ := requireCredentialString_eq_ok hfirst
    obtain ⟨-, hsame₂⟩ := requireCredentialString_eq_ok hsecond
    obtain ⟨hendpoint, hsame₃⟩ := requireCredentialString_eq_ok hthird
    obtain ⟨hresource, hsame₄⟩ := optionalCredentialString_eq_ok hfourth
    obtain ⟨hscope, hsame₅⟩ := optionalCredentialString_eq_ok hfifth
    have hget : ∀ key, "token_endpoint_auth" ≠ key →
        Dict.get result key = Dict.get third key := by
      intro key hkey
      rw [hsame₅, hsame₄, Dict.get_set_other _ hkey]
    constructor
    · rw [hget _ (by decide), hsame₃, hsame₂, hsame]
      exact hclient
    · rw [hget _ (by decide), hsame₃]
      exact hendpoint
    · refine ⟨auth, ?_, normalizeTokenEndpointAuth_type hauth⟩
      rw [hsame₅, hsame₄, Dict.get_set_same]
    · rw [hsame₅, hsame₄]
      exact hresource
    · rw [hsame₅]
      exact hscope
  next => cases hresult

theorem normalizeEnvironmentVariable_shape
    {auth result : Dict} (htype : Dict.get auth "type" = .str "environment_variable")
    (hresult : normalizeEnvironmentVariable auth = .ok result) : AuthShape result := by
  unfold normalizeEnvironmentVariable at hresult
  simp only [bind_eq_ok, pure_eq_ok] at hresult
  obtain ⟨first, hfirst, second, hsecond, networking, hnetworking, rfl⟩ := hresult
  obtain ⟨hname, hsame⟩ := requireCredentialString_eq_ok hfirst
  obtain ⟨-, hsame₂⟩ := optionalCredentialString_eq_ok hsecond
  have hget : ∀ key, "networking" ≠ key →
      Dict.get (Dict.set second "networking" (.dict networking)) key =
        Dict.get auth key := by
    intro key hkey
    rw [Dict.get_set_other _ hkey, hsame₂, hsame]
  refine .environmentVariable ?_ ?_ ?_
  · rw [hget _ (by decide), htype]
  · rw [hget _ (by decide)]
    exact hname
  · rw [Dict.get_set_same]
    exact normalizeCredentialNetworking_shape hnetworking

theorem normalizeStaticBearer_shape
    {auth result : Dict} (htype : Dict.get auth "type" = .str "static_bearer")
    (hresult : normalizeStaticBearer auth = .ok result) : AuthShape result := by
  unfold normalizeStaticBearer at hresult
  obtain ⟨first, hfirst, hsecond⟩ := bind_eq_ok.mp hresult
  obtain ⟨hurl, hsame⟩ := requireCredentialString_eq_ok hfirst
  obtain ⟨-, hsame₂⟩ := optionalCredentialString_eq_ok hsecond
  refine .staticBearer ?_ ?_
  · rw [hsame₂, hsame, htype]
  · rw [hsame₂, hsame]
    exact hurl

/-- The time of expiry becomes a text. -/
theorem expires_at_text
    (py : Interpreter) (auth : Dict) :
    TextOrNull (Dict.get
      (if Dict.get auth "expires_at" = .null then auth
        else Dict.set auth "expires_at" (.str (py.str (Dict.get auth "expires_at"))))
      "expires_at") := by
  split
  next hnull => exact .inl hnull
  next =>
    rw [Dict.get_set_same]
    exact .inr ⟨_, rfl⟩

theorem normalizeMcpOauth_shape
    {py : Interpreter} {auth result : Dict}
    (htype : Dict.get auth "type" = .str "mcp_oauth")
    (hresult : normalizeMcpOauth py auth = .ok result) : AuthShape result := by
  unfold normalizeMcpOauth at hresult
  obtain ⟨first, hfirst, hresult⟩ := bind_eq_ok.mp hresult
  obtain ⟨second, hsecond, hresult⟩ := bind_eq_ok.mp hresult
  obtain ⟨hurl, hsame⟩ := requireCredentialString_eq_ok hfirst
  obtain ⟨-, hsame₂⟩ := optionalCredentialString_eq_ok hsecond
  have hexpires := expires_at_text py second
  have hget : ∀ key, "expires_at" ≠ key → Dict.get
      (if Dict.get second "expires_at" = .null then second
        else Dict.set second "expires_at" (.str (py.str (Dict.get second "expires_at"))))
      key = Dict.get auth key := by
    intro key hkey
    split
    · rw [hsame₂, hsame]
    · rw [Dict.get_set_other _ hkey, hsame₂, hsame]
  dsimp only at hresult
  generalize (if Dict.get second "expires_at" = .null then second
    else Dict.set second "expires_at" (.str (py.str (Dict.get second "expires_at")))) =
      dated at *
  rw [← hget _ (by decide)] at htype hurl
  split at hresult
  next hnull =>
    rw [pure_eq_ok] at hresult
    subst hresult
    exact .mcpOauth htype hurl hexpires (.inl hnull)
  next =>
    simp only [bind_eq_ok, pure_eq_ok] at hresult
    obtain ⟨refresh, hrefresh, rfl⟩ := hresult
    refine .mcpOauth ?_ ?_ ?_ ?_
    · rwa [Dict.get_set_other _ (by decide)]
    · rwa [Dict.get_set_other _ (by decide)]
    · rwa [Dict.get_set_other _ (by decide)]
    · rw [Dict.get_set_same]
      exact .inr ⟨refresh, rfl, normalizeOauthRefresh_shape hrefresh⟩

theorem credentialAuthType_mem
    {auth : Dict} {authType : String} (htype : credentialAuthType auth = .ok authType) :
    authType ∈ CREDENTIAL_AUTH_TYPES := by
  unfold credentialAuthType memberText at htype
  split at htype
  · split at htype
    · cases htype
      assumption
    · cases htype
  all_goals cases htype

theorem normalizeCredentialAuth_shape
    {py : Interpreter} {value : Json} {result : Dict}
    (hresult : normalizeCredentialAuth py value = .ok result) : AuthShape result := by
  unfold normalizeCredentialAuth at hresult
  split at hresult
  next auth =>
    obtain ⟨authType, htype, hresult⟩ := bind_eq_ok.mp hresult
    have hset := Dict.get_set_same auth "type" (.str authType)
    dsimp only at hresult
    split at hresult
    next henvironment =>
      rw [henvironment] at hset hresult
      exact normalizeEnvironmentVariable_shape hset hresult
    next henvironment =>
      split at hresult
      next hbearer =>
        rw [hbearer] at hset hresult
        exact normalizeStaticBearer_shape hset hresult
      next hbearer =>
        have hoauth : authType = "mcp_oauth" := by
          have hmem := credentialAuthType_mem htype
          simpa [CREDENTIAL_AUTH_TYPES, henvironment, hbearer] using hmem
        rw [hoauth] at hset hresult
        exact normalizeMcpOauth_shape hset hresult
  next => cases hresult

end

/-! ## Responses of purged rows -/

section

variable {py : Interpreter}

theorem TextOrNull.purge_eq
    {value : Json} (htext : TextOrNull value) : purgeSecretValues value = value := by
  rcases htext with rfl | ⟨text, rfl⟩
  · exact purge_eq_null.mpr rfl
  · exact purge_eq_str.mpr rfl

theorem IsText.purge_eq
    {value : Json} (htext : IsText value) : purgeSecretValues value = value :=
  TextOrNull.purge_eq (.inr htext)

theorem credentialNetworkingResponse_purge
    {value : Json} (hshape : NetworkingShape value) :
    credentialNetworkingResponse (purgeSecretValues value) =
      credentialNetworkingResponse value := by
  obtain ⟨fields, rfl, htype, hhosts⟩ := hshape
  rw [purgeSecretValues, credentialNetworkingResponse, credentialNetworkingResponse,
    get_purge (plain_keys "type" (by decide)), htype.purge_eq]
  split
  next hlimited =>
    obtain ⟨hosts, hlist, htexts⟩ := hhosts hlimited
    rw [get_purge (plain_keys "allowed_hosts" (by decide)), hlist,
      (purge_eq_texts htexts).mpr rfl]
  next => rfl

theorem dict_or_empty
    (fields : Dict) :
    (Json.dict fields).or (.dict []) = .dict fields := by
  cases fields <;> rfl

theorem credentialRefreshResponse_purge
    {value : Json} (hshape : RefreshShape value) :
    credentialRefreshResponse py (purgeSecretValues value) =
      credentialRefreshResponse py value := by
  rcases hshape with rfl | ⟨refresh, rfl, hfields⟩
  · rw [purge_eq_null.mpr rfl]
  · obtain ⟨hclient, hendpoint, ⟨auth, hauth, htype⟩, hresource, hscope⟩ := hfields
    rw [purgeSecretValues, credentialRefreshResponse, credentialRefreshResponse,
      get_purge (plain_keys "client_id" (by decide)), hclient.purge_eq,
      get_purge (plain_keys "token_endpoint" (by decide)), hendpoint.purge_eq,
      get_purge (plain_keys "resource" (by decide)), hresource.purge_eq,
      get_purge (plain_keys "scope" (by decide)), hscope.purge_eq,
      get_purge (plain_keys "token_endpoint_auth" (by decide)), hauth, purgeSecretValues,
      dict_or_empty, dict_or_empty, tokenEndpointAuthType, tokenEndpointAuthType,
      get_purge (plain_keys "type" (by decide)), htype.purge_eq]

theorem str_text_or
    {value : Json} {text other : String} (hvalue : value = .str text) (hne : text ≠ "") :
    py.str (value.or (.str other)) = text := by
  subst hvalue
  simp [Json.or, Json.truthy, hne, Python.str]

theorem credentialAuthResponse_purge
    {auth : Dict} (hshape : AuthShape auth) :
    credentialAuthResponse py (purgeSecretFields auth) =
      credentialAuthResponse py auth := by
  unfold credentialAuthResponse
  dsimp only
  rw [get_purge (plain_keys "type" (by decide)),
    get_purge (plain_keys "mcp_server_url" (by decide)),
    get_purge (plain_keys "secret_name" (by decide)),
    get_purge (plain_keys "networking" (by decide)),
    get_purge (plain_keys "expires_at" (by decide)),
    get_purge (plain_keys "refresh" (by decide))]
  cases hshape with
  | staticBearer htype hurl =>
      rw [htype, purge_eq_str.mpr rfl, hurl.purge_eq, str_text_or rfl (by decide),
        if_pos rfl, if_pos rfl]
  | environmentVariable htype hname hnetworking =>
      have hbearer : ¬"environment_variable" = "static_bearer" := by decide
      rw [htype, purge_eq_str.mpr rfl, hname.purge_eq,
        credentialNetworkingResponse_purge hnetworking, str_text_or rfl (by decide),
        if_neg hbearer, if_neg hbearer, if_pos rfl, if_pos rfl]
  | mcpOauth htype hurl hexpires hrefresh =>
      have hbearer : ¬"mcp_oauth" = "static_bearer" := by decide
      have henvironment : ¬"mcp_oauth" = "environment_variable" := by decide
      rw [htype, purge_eq_str.mpr rfl, hurl.purge_eq, hexpires.purge_eq,
        credentialRefreshResponse_purge hrefresh, str_text_or rfl (by decide),
        if_neg hbearer, if_neg hbearer, if_neg henvironment, if_neg henvironment]

theorem credentialAuth_of_get
    {row : Resource} {auth : Dict} (hauth : Dict.get row.data "auth" = .dict auth) :
    credentialAuth row = .dict auth := by
  rw [credentialAuth, hauth, dict_or_empty]

/-- The credential's `auth` is a normalised one. -/
def ShapedCredential (row : Resource) : Prop :=
  ∃ auth, Dict.get row.data "auth" = .dict auth ∧ AuthShape auth

def purgedRow (row : Resource) : Resource :=
  { row with data := purgeSecretFields row.data }

theorem get_purged_auth
    {row : Resource} {auth : Dict} (hauth : Dict.get row.data "auth" = .dict auth) :
    Dict.get (purgedRow row).data "auth" = .dict (purgeSecretFields auth) := by
  rw [purgedRow, get_purge (plain_keys "auth" (by decide)), hauth, purgeSecretValues]

theorem resourceToResponse_purgedRow
    {columns : ShownColumns} {row : Resource} {publicType : Option String}
    (htype : IsCredential row) :
    resourceToResponse py columns (purgedRow row) publicType =
      resourceToResponse py columns row publicType := by
  have hcredential : row.resourceType = .credential := htype
  have hdata : redactedResourceData (purgedRow row) = redactedResourceData row := by
    simp [redactedResourceData, purgedRow, hcredential, redact_purgeFields]
  unfold resourceToResponse
  rw [hdata]
  rfl

theorem credentialResponse_purgedRow
    {columns : ShownColumns} {row : Resource} (htype : IsCredential row)
    (hshape : ShapedCredential row) :
    credentialResponse py columns (purgedRow row) =
      credentialResponse py columns row := by
  obtain ⟨auth, hauth, hfields⟩ := hshape
  unfold credentialResponse
  rw [resourceToResponse_purgedRow htype, credentialAuth_of_get hauth,
    credentialAuth_of_get (get_purged_auth hauth)]
  simp only [credentialAuthResponse_purge hfields]
  rfl

theorem credentialValidationPayload_purgedRow
    {now : Time} {row : Resource} {vaultId : String} (hshape : ShapedCredential row) :
    credentialValidationPayload py now (purgedRow row) vaultId =
      credentialValidationPayload py now row vaultId := by
  obtain ⟨auth, hauth, -⟩ := hshape
  have hrefresh : (Dict.get (purgeSecretFields auth) "refresh").truthy =
      (Dict.get auth "refresh").truthy := by
    rw [get_purge (plain_keys "refresh" (by decide)), purge_truthy]
  unfold credentialValidationPayload
  rw [get_purged_auth hauth, hauth, dict_or_empty, dict_or_empty]
  simp only [Json.get, hrefresh]
  rfl

end

/-! ## Reachable rows are shaped -/

section

variable {py : Interpreter} {settings : EncryptionSettings}

theorem normalizeCredentialData_authShape
    {cipher : SecretCipher} {data stored : Dict}
    (hstored : normalizeCredentialData py cipher data = .ok stored) :
    ∃ auth, Dict.get stored "auth" = .dict auth ∧ AuthShape auth := by
  unfold normalizeCredentialData at hstored
  simp only [bind_eq_ok, pure_eq_ok] at hstored
  obtain ⟨name, -, auth, hauth, ⟨encrypted, draw⟩, hencrypted, metadata, -, rfl⟩ :=
    hstored
  refine ⟨encrypted, ?_, ?_⟩
  · rw [Dict.get_set_other _ (by decide), Dict.get_set_same]
  · rw [← authShape_purge, purge_walkFields auth hencrypted, authShape_purge]
    exact normalizeCredentialAuth_shape hauth

theorem newData_authShape
    {call : CredentialCall} {held : Resource} {data : Dict}
    (hheld : ShapedCredential held)
    (hdata : NewData py settings call held data) :
    ∃ auth, Dict.get data "auth" = .dict auth ∧ AuthShape auth := by
  obtain ⟨auth, hauth, hshape⟩ := hheld
  unfold NewData at hdata
  cases hrequest : call.request <;> simp only [hrequest] at hdata
  case update vaultId credentialId body =>
    obtain ⟨merged, -, hnormal⟩ := hdata
    exact normalizeCredentialData_authShape hnormal
  case archive | delete =>
    subst hdata
    refine ⟨purgeSecretFields auth, ?_, (authShape_purge auth).mpr hshape⟩
    rw [purgeCredentialSecretData, Dict.get_set_other _ (by decide)]
    exact get_purged_auth hauth
  case validate =>
    unfold validatedCredentialData at hdata
    simp only [bind_eq_ok, pure_eq_ok] at hdata
    obtain ⟨metadata, -, rfl⟩ := hdata
    exact ⟨auth, by rw [Dict.get_set_other _ (by decide), hauth], hshape⟩

theorem ReachableCredential.shaped
    {row : Resource}
    (hrow : ReachableCredential py settings row) : ShapedCredential row := by
  obtain ⟨htype, start, calls, last, hstart, hrun, state, hstate, hmem⟩ := hrow
  have hordered : last.Ordered (fun rows => ∀ row ∈ rows, IsCredential row →
      ShapedCredential row) (fun _ _ => True) := by
    refine run_ordered (fun _ => trivial) (fun _ _ _ _ _ => trivial) ?_ ?_
      (allSteps_true _ _) hrun
    · intro world call ages next _ hviews _ _ hcurrent hbody
      refine ⟨fun row hrow htype => ?_, trivial⟩
      cases CredentialCall.rowChange hbody hrow htype with
      | kept hrow => exact hcurrent row hrow htype
      | created vaultId body hrequest hdata hlive =>
          exact normalizeCredentialData_authShape hdata
      | rewritten held old data hheld haddressed hcredential hold hid holdType hdata
          hwritten hmarks =>
          unfold ShapedCredential
          rcases hwritten with hwritten | ⟨-, hwritten⟩
          · rw [hwritten]
            exact newData_authShape (hviews 0 held hheld hcredential) hdata
          · rw [hwritten]
            exact hcurrent old hold holdType
    · constructor
      · intro state hstate row hrow htype
        obtain rfl : state = start := by simpa [Timeline.history] using hstate
        exact absurd htype (hstart row hrow)
      · simp [Timeline.history]
  exact hordered.states state hstate row hmem htype

end

/-! ## Lists of rows -/

section

variable {Item Key : Type}

theorem forall₂_orderedInsert
    {before : Item → Item → Prop} [DecidableRel before] {Same : Item → Item → Prop}
    (hsame : ∀ first second other another, Same first second → Same other another →
      (before first other ↔ before second another))
    {item twin : Item} (hitem : Same item twin) {items twins : List Item}
    (hitems : List.Forall₂ Same items twins) :
    List.Forall₂ Same (items.orderedInsert before item)
      (twins.orderedInsert before twin) := by
  induction hitems with
  | nil => exact .cons hitem .nil
  | @cons first second rest others hfirst hrest ih =>
      simp only [List.orderedInsert_cons, hsame item twin first second hitem hfirst]
      split
      · exact .cons hitem (.cons hfirst hrest)
      · exact .cons hfirst ih

theorem forall₂_insertionSort
    {before : Item → Item → Prop} [DecidableRel before] {Same : Item → Item → Prop}
    (hsame : ∀ first second other another, Same first second → Same other another →
      (before first other ↔ before second another))
    {items twins : List Item} (hitems : List.Forall₂ Same items twins) :
    List.Forall₂ Same (items.insertionSort before) (twins.insertionSort before) := by
  induction hitems with
  | nil => exact .nil
  | cons hfirst hrest ih => exact forall₂_orderedInsert hsame hfirst ih

theorem forall₂_sorted
    [LinearOrder Key] {key : Item → Key} {reverse : Bool} {Same : Item → Item → Prop}
    (hkey : ∀ first second, Same first second → key first = key second)
    {items twins : List Item} (hitems : List.Forall₂ Same items twins) :
    List.Forall₂ Same (sorted key reverse items) (sorted key reverse twins) := by
  unfold sorted
  split
  · refine forall₂_insertionSort ?_ hitems
    intro first second other another hfirst hother
    rw [hkey _ _ hfirst, hkey _ _ hother]
  · refine forall₂_insertionSort ?_ hitems
    intro first second other another hfirst hother
    rw [hkey _ _ hfirst, hkey _ _ hother]

theorem mapM_eq_of_forall₂
    {Result : Type} {respond : Item → Except HTTPException Result}
    {items twins : List Item}
    (hitems : List.Forall₂ (fun item twin => respond item = respond twin) items twins) :
    items.mapM respond = twins.mapM respond := by
  induction hitems with
  | nil => rfl
  | cons hfirst hrest ih => rw [List.mapM_cons, List.mapM_cons, hfirst, ih]

end

section

variable {py : Interpreter} {settings otherSettings : EncryptionSettings}

theorem credentialListResponse_eq
    {columns : RowColumns} {row other : Resource} (hage : row.age = other.age)
    (hresponse : credentialResponse py (columns row) row =
      credentialResponse py (columns other) other) (before after : List Resource)
    (limit : ℤ) (page : Option String) (now : Time) :
    credentialListResponse py columns (before ++ row :: after) limit page now =
      credentialListResponse py columns (before ++ other :: after) limit page now := by
  have hsame : List.Forall₂ (fun item twin : Resource => item.age = twin.age ∧
      credentialResponse py (columns item) item =
        credentialResponse py (columns twin) twin)
      (before ++ row :: after) (before ++ other :: after) := by
    refine List.rel_append (List.forall₂_same.mpr fun _ _ => ⟨rfl, rfl⟩) ?_
    exact .cons ⟨hage, hresponse⟩ (List.forall₂_same.mpr fun _ _ => ⟨rfl, rfl⟩)
  unfold credentialListResponse
  rw [sortByCreatedAt_eq_ok (.inr rfl), sortByCreatedAt_eq_ok (.inr rfl)]
  have hitems := fun reverse => mapM_eq_of_forall₂
    ((@forall₂_sorted _ _ _ ManagedResource.age reverse _ (fun _ _ hitems => hitems.1) _ _
      hsame).imp fun _ _ hitems => hitems.2)
  exact congrArg (fun items : Except HTTPException (List Dict) =>
    items >>= fun items => paginate py.toPython now items (some limit) page) (hitems _)

theorem AlikeExceptSecrets.purgedRow_eq
    {row other : Resource} (halike : AlikeExceptSecrets row other) :
    purgedRow row = purgedRow other := by
  have hdata : purgeSecretFields row.data = purgeSecretFields other.data := by
    rw [← purge_maskFields row.data, halike.data, purge_maskFields]
  unfold purgedRow
  rw [hdata, halike.columns]

/-- Two stored credentials that differ in secret texts only look alike in every
response. -/
theorem credential_responses_hide_secrets
    {row other : Resource} (hrow : ReachableCredential py settings row)
    (hother : ReachableCredential py otherSettings other)
    (halike : AlikeExceptSecrets row other) {columns : RowColumns}
    (hcolumns : columns row = columns other) :
    credentialResponse py (columns row) row =
        credentialResponse py (columns other) other ∧
      (∀ before after limit page now,
        credentialListResponse py columns (before ++ row :: after) limit page now =
          credentialListResponse py columns (before ++ other :: after) limit page now) ∧
      (∀ now vaultId, credentialValidationPayload py now row vaultId =
        credentialValidationPayload py now other vaultId) ∧
      ∀ key, isSecretKey key = true → looksSecretKey key = true := by
  have hresponse : credentialResponse py (columns row) row =
      credentialResponse py (columns other) other := by
    rw [← credentialResponse_purgedRow hrow.1 hrow.shaped, halike.purgedRow_eq, hcolumns,
      credentialResponse_purgedRow hother.1 hother.shaped]
  have hage : row.age = other.age := by
    rw [halike.columns]
    rfl
  refine ⟨hresponse, credentialListResponse_eq hage hresponse, ?_,
    fun key => isSecretKey_looksSecretKey⟩
  intro now vaultId
  rw [← credentialValidationPayload_purgedRow hrow.shaped, halike.purgedRow_eq,
    credentialValidationPayload_purgedRow hother.shaped]

/-- Without a key the texts are stored as they are. -/
def sampleOpenSettings : EncryptionSettings where
  encryptionKey := .ok none
  aesgcmEncrypt := fun _ _ _ => []

def sampleTokenBody (token : String) : CredentialBody where
  fields := [("display_name", .str "git"), ("auth", .dict
    [("type", .str "static_bearer"), ("mcp_server_url", .str "https://mcp.test"),
     ("token", .str token)])]
  keyed := Json.keyed_dict.mp (by simp [Json.keyed, Json.fieldsKeyed])

def sampleTokenWorld (token : String) : Option CredentialWorld :=
  run (credentialStep sampleInterpreter sampleOpenSettings) sampleVaultWorld
    [sampleCredentialCall "c" (.create "vault_v0" (sampleTokenBody token))]

/-- The row which the request stores. -/
def sampleTokenRow (token : String) : Resource :=
  createResource (sampleSupply "c") 0 0 "wrkspc_default" .credential
    (some "vault_v0") none
    (some "git")
    [("display_name", .str "git"), ("auth", .dict
      [("type", .str "static_bearer"), ("mcp_server_url", .str "https://mcp.test"),
       ("token", .str token)]), ("name", .str "git"), ("metadata", .dict [])]

theorem sampleTokenRow_reachable
    {token : String} {last : CredentialWorld} (hrun : sampleTokenWorld token = some last)
    (hrow : sampleTokenRow token ∈ last.current) :
    ReachableCredential sampleInterpreter sampleOpenSettings (sampleTokenRow token) :=
  ⟨rfl, [sampleVault], _, last, sampleVault_not_credential, hrun, last.current,
    List.mem_cons_self, hrow⟩

theorem sample_credential_responses_hide_secrets :
    credentialResponse sampleInterpreter { updatedAt := 0 } (sampleTokenRow "abc") =
        credentialResponse sampleInterpreter { updatedAt := 0 } (sampleTokenRow "xyz") ∧
      (∀ before after limit page now,
        credentialListResponse sampleInterpreter (fun _ => { updatedAt := 0 })
            (before ++ sampleTokenRow "abc" :: after) limit page now =
          credentialListResponse sampleInterpreter (fun _ => { updatedAt := 0 })
            (before ++ sampleTokenRow "xyz" :: after) limit page now) ∧
      (∀ now vaultId,
        credentialValidationPayload sampleInterpreter now (sampleTokenRow "abc") vaultId =
          credentialValidationPayload sampleInterpreter now (sampleTokenRow "xyz")
            vaultId) ∧
      ∀ key, isSecretKey key = true → looksSecretKey key = true :=
  @credential_responses_hide_secrets sampleInterpreter sampleOpenSettings
    sampleOpenSettings (sampleTokenRow "abc") (sampleTokenRow "xyz")
    (@sampleTokenRow_reachable "abc" ((sampleTokenWorld "abc").get (by decide))
      (Option.some_get _).symm (by decide))
    (@sampleTokenRow_reachable "xyz" ((sampleTokenWorld "xyz").get (by decide))
      (Option.some_get _).symm (by decide))
    ⟨by decide, rfl⟩ (fun _ => { updatedAt := 0 }) rfl

end

end ManagedAgents
