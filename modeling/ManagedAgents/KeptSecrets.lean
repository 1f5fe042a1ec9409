import ManagedAgents.AuthChecks

/-!
# Secrets that a request leaves

The checks drop parts of `auth`, and the type of the flat form is not stored.  A property
of the values under secret keys holds of the stored data exactly if it holds of the rest
of the body, and after an update exactly if it holds of the patch.
-/

namespace ManagedAgents

open Fallible

/-! ## What the checks keep -/

/-- The token endpoint auth keeps its secret, unless its type is `none`. -/
def KeptEndpointHolds (Holds : Json → Prop) (endpointAuth : Json) : Prop :=
  endpointAuth.get "type" ≠ .str "none" →
    FieldHolds Holds ("client_secret", endpointAuth.get "client_secret")

def KeptRefreshHolds (Holds : Json → Prop) (field : String × Json) : Prop :=
  if field.1 = "token_endpoint_auth" then KeptEndpointHolds Holds field.2
  else FieldHolds Holds field

/-- The networking is built again and the expiry becomes a text. -/
def KeptAuthHolds (Holds : Json → Prop) (authType : Json)
    (field : String × Json) : Prop :=
  if authType = .str "environment_variable" ∧ field.1 = "networking" ∨
      authType = .str "mcp_oauth" ∧ field.1 = "expires_at" then True
  else if authType = .str "mcp_oauth" ∧ field.1 = "refresh" then
    ∀ refresh, field.2 = .dict refresh → ∀ child ∈ refresh, KeptRefreshHolds Holds child
  else FieldHolds Holds field

section

variable {Holds : Json → Prop} {authType : Json} {field : String × Json}

theorem Json.SecretsHold.get
    {value : Json} (hvalue : Json.SecretsHold Holds value) (hnull : Holds .null)
    (key : String) : FieldHolds Holds (key, value.get key) := by
  cases value with
  | dict fields => exact (Json.secretsHold_dict.mp hvalue).get hnull key
  | null | bool | int | float | str | list => exact fieldHolds_null hnull key

theorem FieldHolds.keptRefresh
    (hfield : FieldHolds Holds field) (hnull : Holds .null) :
    KeptRefreshHolds Holds field := by
  unfold KeptRefreshHolds
  split
  · exact fun _ => hfield.2.get hnull "client_secret"
  · exact hfield

theorem FieldHolds.keptAuth
    (hfield : FieldHolds Holds field) (hnull : Holds .null) (authType : Json) :
    KeptAuthHolds Holds authType field := by
  unfold KeptAuthHolds
  split
  · trivial
  · split
    · intro refresh hrefresh child hchild
      have hfields := hfield.2
      rw [hrefresh, Json.secretsHold_dict] at hfields
      exact (hfields child hchild).keptRefresh hnull
    · exact hfield

theorem keptRefreshHolds_null (hnull : Holds .null) (key : String) :
    KeptRefreshHolds Holds (key, .null) :=
  (fieldHolds_null hnull key).keptRefresh hnull

theorem keptAuthHolds_null (hnull : Holds .null) (authType : Json) (key : String) :
    KeptAuthHolds Holds authType (key, .null) :=
  (fieldHolds_null hnull key).keptAuth hnull authType

/-- The refresh object of OAuth. -/
theorem keptAuthHolds_refresh
    {refresh : Dict} :
    KeptAuthHolds Holds (.str "mcp_oauth") ("refresh", .dict refresh) ↔
      ∀ child ∈ refresh, KeptRefreshHolds Holds child := by
  simp [KeptAuthHolds]

end

/-! ## Checked objects -/

section

variable {Holds : Json → Prop} {before after auth normal : Dict}

theorem CheckedEndpoint.secretsHold_iff
    (hchecked : CheckedEndpoint before after) (hafter : Dict.Keyed after)
    (hnull : Holds .null) :
    Dict.SecretsHold Holds after ↔ KeptEndpointHolds Holds (.dict before) := by
  have htypeKey : isSecretKey "type" = false := isSecretKey_plain _ (by simp)
  unfold KeptEndpointHolds
  rw [hafter.secretsHold_iff hnull, Json.get_dict, Json.get_dict]
  constructor
  · intro hfields htype
    have hsecret := hfields "client_secret"
    rwa [hchecked.secret, if_neg htype] at hsecret
  · intro hkept key
    by_cases hkey : key = "type"
    · obtain ⟨text, htext⟩ := hchecked.isText
      rw [hkey, hchecked.type, htext]
      exact (fieldHolds_plain htypeKey).mpr trivial
    · by_cases hsecret : key = "client_secret"
      · rw [hsecret, hchecked.secret]
        split
        · exact fieldHolds_null hnull _
        next htype => exact hkept htype
      · rw [hchecked.others key hkey hsecret]
        exact fieldHolds_null hnull key

theorem CheckedRefresh.secretsHold_iff
    (hchecked : CheckedRefresh before after) (hbefore : Dict.Keyed before)
    (hafter : Dict.Keyed after) (hnull : Holds .null) :
    Dict.SecretsHold Holds after ↔ ∀ child ∈ before, KeptRefreshHolds Holds child := by
  have hendpointKey : isSecretKey "token_endpoint_auth" = false :=
    isSecretKey_plain _ (by simp)
  rw [hafter.secretsHold_iff hnull,
    Dict.forall_field_iff hbefore.distinct (keptRefreshHolds_null hnull)]
  refine forall_congr' fun key => ?_
  unfold KeptRefreshHolds
  by_cases hkey : key = "token_endpoint_auth"
  · obtain ⟨given, checked, hgiven, hresult, hendpoint⟩ := hchecked.endpointAuth
    rw [if_pos hkey, hkey, hgiven, hresult, fieldHolds_plain hendpointKey,
      Json.secretsHold_dict]
    exact hendpoint.secretsHold_iff (keyed_field hafter hresult) hnull
  · rw [if_neg hkey, hchecked.others key hkey]

/-- The check of an auth object leaves no other secrets than the kept ones. -/
theorem CheckedAuth.secretsHold_iff
    {py : Interpreter} (hchecked : CheckedAuth py auth normal) (hauth : Dict.Keyed auth)
    (hnormal : Dict.Keyed normal) (hnull : Holds .null) :
    Dict.SecretsHold Holds normal ↔
      ∀ field ∈ auth, KeptAuthHolds Holds (Dict.get auth "type") field := by
  have hnetworkingKey : isSecretKey "networking" = false := isSecretKey_plain _ (by simp)
  have hexpiresKey : isSecretKey "expires_at" = false := isSecretKey_plain _ (by simp)
  have hrefreshKey : isSecretKey "refresh" = false := isSecretKey_plain _ (by simp)
  rw [hnormal.secretsHold_iff hnull,
    Dict.forall_field_iff hauth.distinct (keptAuthHolds_null hnull _)]
  refine forall_congr' fun key => ?_
  cases hchecked with
  | staticBearer htype hothers => simp [KeptAuthHolds, htype, hothers]
  | environmentVariable networking htype hothers hgiven hnetworking =>
      by_cases hkey : key = "networking"
      · rw [hkey, hnetworking, fieldHolds_plain hnetworkingKey, Json.secretsHold_dict]
        refine iff_of_true (normalizeCredentialNetworking_secretsHold hgiven) ?_
        simp [KeptAuthHolds, htype]
      · simp [KeptAuthHolds, htype, hkey, hothers key hkey]
  | mcpOauth htype hothers hexpires hrefresh =>
      rw [htype]
      by_cases hexpiry : key = "expires_at"
      · refine iff_of_true ?_ (by simp [KeptAuthHolds, hexpiry])
        rw [hexpiry, hexpires]
        split
        · exact fieldHolds_null hnull _
        · exact (fieldHolds_plain hexpiresKey).mpr trivial
      · by_cases hobject : key = "refresh"
        · rw [hobject]
          rcases hrefresh with ⟨hbefore, hafter⟩ |
            ⟨given, checked, hbefore, hafter, hkept⟩
          · rw [hbefore, hafter]
            exact iff_of_true (fieldHolds_null hnull _) (keptAuthHolds_null hnull _ _)
          · rw [hbefore, hafter, fieldHolds_plain hrefreshKey, Json.secretsHold_dict,
              keptAuthHolds_refresh]
            exact hkept.secretsHold_iff (keyed_field hauth hbefore)
              (keyed_field hnormal hafter) hnull
        · simp [KeptAuthHolds, hexpiry, hobject, hothers key hexpiry hobject]

end

/-! ## Merged objects -/

section

variable {Kept : String × Json → Prop} {held given auth patch : Dict}

/-- A property of fields that a refresh object has is decided by the patch. -/
theorem mergeOauthRefresh_iff
    (hheldKeyed : Dict.Keyed held) (hgiven : Dict.Keyed given)
    (hnull : ∀ key, Kept (key, .null))
    (hendpoint : ∀ before inner, Dict.Keyed before → Dict.Keyed inner →
      Json.equal (Dict.get before "type") (Dict.get inner "type") = true →
      Kept ("token_endpoint_auth", .dict before) →
      (Kept ("token_endpoint_auth",
          .dict (Dict.update before (inner.filter fun child => child.2 ≠ .null))) ↔
        Kept ("token_endpoint_auth", .dict inner)))
    (hheld : ∀ key, Kept (key, Dict.get held key)) (key : String) :
    Kept (key, Dict.get (mergeOauthRefresh held given) key) ↔
      Kept (key, Dict.get given key) := by
  by_cases hvalue : Dict.get given key = .null
  · rw [mergeRefresh_null hgiven.distinct hvalue, hvalue]
    exact iff_of_true (hheld key) (hnull key)
  by_cases hobject : key = "token_endpoint_auth" → ∀ inner, Dict.get given key ≠ .dict inner
  · rw [mergeRefresh_value hgiven.distinct hvalue hobject]
  · push Not at hobject
    obtain ⟨rfl, inner, hinner⟩ := hobject
    have hbefore := hheld "token_endpoint_auth"
    rw [mergeRefresh_endpointAuth hgiven.distinct hinner, hinner]
    cases hcase : Dict.get held "token_endpoint_auth" with
    | dict before =>
        rw [hcase] at hbefore
        dsimp only
        split
        next htypes =>
          exact hendpoint before inner (keyed_field hheldKeyed hcase)
            (keyed_field hgiven hinner) htypes hbefore
        next => exact Iff.rfl
    | null | bool | int | float | str | list => exact Iff.rfl

/-- Likewise for an auth object. -/
theorem mergeAuth_iff
    (hauthKeyed : Dict.Keyed auth) (hpatch : Dict.Keyed patch)
    (hnull : ∀ key, Kept (key, .null))
    (hrefresh : ∀ held given, Dict.Keyed held → Dict.Keyed given →
      Kept ("refresh", .dict held) →
      (Kept ("refresh", .dict (mergeOauthRefresh held given)) ↔
        Kept ("refresh", .dict given)))
    (hauth : ∀ key, Kept (key, Dict.get auth key)) (key : String) :
    Kept (key, Dict.get (patch.foldl mergeAuthField auth) key) ↔
      Kept (key, Dict.get patch key) := by
  by_cases hvalue : Dict.get patch key = .null
  · rw [hvalue]
    refine iff_of_true ?_ (hnull key)
    cases hcontains : Dict.contains patch key with
    | false =>
        rw [mergeAuth_absent hcontains]
        exact hauth key
    | true =>
        rw [foldl_get_of_contains mergeAuthField_other mergeAuthField_local
          hpatch.distinct hcontains, hvalue]
        unfold mergeAuthField
        dsimp only
        split
        · rw [Dict.get_set_same]
          exact hnull key
        · exact hauth key
  by_cases hobject : key = "refresh" → ∀ given, Dict.get patch key ≠ .dict given
  · rw [mergeAuth_value hpatch.distinct hvalue hobject]
  · push Not at hobject
    obtain ⟨rfl, given, hgiven⟩ := hobject
    have hbefore := hauth "refresh"
    rw [mergeAuth_refresh hpatch.distinct hgiven, hgiven]
    cases hcase : Dict.get auth "refresh" with
    | dict held =>
        rw [hcase] at hbefore
        exact hrefresh held given (keyed_field hauthKeyed hcase)
          (keyed_field hpatch hgiven) hbefore
    | null | bool | int | float | str | list => exact Iff.rfl

end

section

variable {Holds : Json → Prop} {held given auth patch merged : Dict}

theorem secretsHold_update_iff
    (hheld : Dict.Keyed held) (hgiven : Dict.Keyed given) (hnull : Holds .null)
    (hsecrets : Dict.SecretsHold Holds held) :
    Dict.SecretsHold Holds
        (Dict.update held (given.filter fun child => child.2 ≠ .null)) ↔
      Dict.SecretsHold Holds given := by
  have hmerged :
      Dict.Keyed (Dict.update held (given.filter fun child => child.2 ≠ .null)) :=
    hheld.update (hgiven.filter _).values
  rw [hmerged.secretsHold_iff hnull, hgiven.secretsHold_iff hnull]
  refine forall_congr' fun key => ?_
  rw [update_present_get hgiven.distinct]
  split
  next hvalue =>
    rw [hvalue]
    exact iff_of_true (hsecrets.get hnull key) (fieldHolds_null hnull key)
  next => exact Iff.rfl

theorem keptEndpointHolds_update_iff
    (hgiven : Dict.Keyed given) (hnull : Holds .null)
    (htypes : Json.equal (Dict.get held "type") (Dict.get given "type") = true)
    (hsecrets : KeptEndpointHolds Holds (.dict held)) :
    KeptEndpointHolds Holds
        (.dict (Dict.update held (given.filter fun child => child.2 ≠ .null))) ↔
      KeptEndpointHolds Holds (.dict given) := by
  unfold KeptEndpointHolds at hsecrets ⊢
  simp only [Json.get_dict] at hsecrets ⊢
  rw [update_present_get hgiven.distinct, update_present_get hgiven.distinct]
  have htype : Dict.get given "type" = .null → Dict.get held "type" = .null := by
    intro hvalue
    rw [hvalue] at htypes
    cases hbefore : Dict.get held "type" <;>
      simp [hbefore, Json.equal, Json.number] at htypes ⊢
  have hsame : (if Dict.get given "type" = .null then Dict.get held "type"
      else Dict.get given "type") = Dict.get given "type" := by
    split
    next hvalue => rw [htype hvalue, hvalue]
    next => rfl
  rw [hsame]
  refine imp_congr_right fun hkept => ?_
  split
  next hvalue =>
    rw [hvalue]
    refine iff_of_true (hsecrets fun hnone => ?_) (fieldHolds_null hnull _)
    rw [hnone] at htypes
    cases hafter : Dict.get given "type" <;> simp_all [Json.equal]
  next => exact Iff.rfl

theorem secretsHold_refresh_iff
    (hheld : Dict.Keyed held) (hgiven : Dict.Keyed given) (hnull : Holds .null)
    (hsecrets : Dict.SecretsHold Holds held) :
    Dict.SecretsHold Holds (mergeOauthRefresh held given) ↔
      Dict.SecretsHold Holds given := by
  have hendpointKey : isSecretKey "token_endpoint_auth" = false :=
    isSecretKey_plain _ (by simp)
  rw [(mergeOauthRefresh_keyed hheld hgiven).secretsHold_iff hnull,
    hgiven.secretsHold_iff hnull]
  refine forall_congr' (mergeOauthRefresh_iff hheld hgiven (fieldHolds_null hnull) ?_
    (hsecrets.get hnull))
  intro before inner hbefore hinner _ hholds
  simp only [fieldHolds_plain hendpointKey, Json.secretsHold_dict] at hholds ⊢
  exact secretsHold_update_iff hbefore hinner hnull hholds

theorem keptRefreshHolds_refresh_iff
    (hheld : Dict.Keyed held) (hgiven : Dict.Keyed given) (hnull : Holds .null)
    (hsecrets : ∀ child ∈ held, KeptRefreshHolds Holds child) :
    (∀ child ∈ mergeOauthRefresh held given, KeptRefreshHolds Holds child) ↔
      ∀ child ∈ given, KeptRefreshHolds Holds child := by
  have hkeptNull := @keptRefreshHolds_null Holds hnull
  rw [Dict.forall_field_iff (mergeOauthRefresh_keyed hheld hgiven).distinct hkeptNull,
    Dict.forall_field_iff hgiven.distinct hkeptNull]
  refine forall_congr' (mergeOauthRefresh_iff hheld hgiven hkeptNull ?_
    ((Dict.forall_field_iff hheld.distinct hkeptNull).mp hsecrets))
  intro before inner hbefore hinner htypes hholds
  unfold KeptRefreshHolds at hholds ⊢
  rw [if_pos rfl] at hholds
  rw [if_pos rfl, if_pos rfl]
  exact keptEndpointHolds_update_iff hinner hnull htypes hholds

/-- A merge keeps the secrets that are there and takes those of the patch. -/
theorem mergeCredentialAuth_kept_iff
    (hauth : Dict.Keyed auth) (hpatch : Dict.Keyed patch) (hnull : Holds .null)
    (hsecrets : Dict.SecretsHold Holds auth)
    (hmerged : mergeCredentialAuth (.dict auth) patch = .ok merged) :
    (∀ field ∈ merged, KeptAuthHolds Holds (Dict.get merged "type") field) ↔
      ∀ field ∈ patch, KeptAuthHolds Holds (Dict.get patch "type") field := by
  have hrefreshKey : isSecretKey "refresh" = false := isSecretKey_plain _ (by simp)
  unfold mergeCredentialAuth at hmerged
  simp only [toDict_dict, bind_eq_ok, pure_eq_ok, Except.ok.injEq] at hmerged
  obtain ⟨authType, hauthType, _, rfl, -, -, rfl⟩ := hmerged
  have hgiven := (memberText_eq_ok hauthType).1
  have hkeyed : Dict.Keyed (patch.foldl mergeAuthField auth) :=
    foldl_keyed (fun _ _ => mergeAuthField_keyed) hauth hpatch
  have hkeptNull := @keptAuthHolds_null Holds hnull (.str authType)
  rw [mergeAuth_text hpatch.distinct hgiven, hgiven,
    Dict.forall_field_iff hkeyed.distinct hkeptNull,
    Dict.forall_field_iff hpatch.distinct hkeptNull]
  refine forall_congr' (mergeAuth_iff hauth hpatch hkeptNull ?_
    fun key => (hsecrets.get hnull key).keptAuth hnull _)
  intro held given hheld hgivenKeyed hholds
  by_cases hmcp : authType = "mcp_oauth"
  · subst hmcp
    rw [keptAuthHolds_refresh] at hholds
    rw [keptAuthHolds_refresh, keptAuthHolds_refresh]
    exact keptRefreshHolds_refresh_iff hheld hgivenKeyed hnull hholds
  · simp only [KeptAuthHolds, Json.str.injEq, hmcp, false_and, or_false, String.reduceEq,
      and_false, if_false, fieldHolds_plain hrefreshKey, Json.secretsHold_dict]
      at hholds ⊢
    exact secretsHold_refresh_iff hheld hgivenKeyed hnull hholds

end

end ManagedAgents
