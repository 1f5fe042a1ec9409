import ManagedAgents.CredentialKeys

/-!
# Merging and checking auth objects

The fields of an auth object, of its refresh object and of the token endpoint auth in
that, and what merging a patch and checking do to each of them.
-/

namespace ManagedAgents

open Fallible

/-! ## Paths -/

inductive AuthPath
  | top (key : String)
  | refresh (key : String)
  | endpointAuth (key : String)
deriving DecidableEq

def AuthPath.key : AuthPath → String
  | .top key | .refresh key | .endpointAuth key => key

@[simp] theorem Json.get_dict
    (fields : Dict) (key : String) : (Json.dict fields).get key = Dict.get fields key :=
  rfl

def AuthPath.read (auth : Dict) : AuthPath → Json
  | .top key => Dict.get auth key
  | .refresh key => (Dict.get auth "refresh").get key
  | .endpointAuth key =>
      ((Dict.get auth "refresh").get "token_endpoint_auth").get key

/-- The patch says nothing of the field: it is not there, or it is null where a null is
passed over.  A token endpoint auth of another type replaces the whole one before. -/
def Leaves (auth patch : Dict) : AuthPath → Prop
  | .top key =>
      Dict.get patch key = .null ∧
        (key ∈ ["expires_at", "refresh"] → Dict.contains patch key = false)
  | .refresh key =>
      Dict.contains patch "refresh" = false ∨
        ∃ given, Dict.get patch "refresh" = .dict given ∧ Dict.get given key = .null
  | .endpointAuth key =>
      Dict.contains patch "refresh" = false ∨
        ∃ given, Dict.get patch "refresh" = .dict given ∧
          (Dict.get given "token_endpoint_auth" = .null ∨
            ∃ inner, Dict.get given "token_endpoint_auth" = .dict inner ∧
              Dict.get inner key = .null ∧
              Json.equal (AuthPath.read auth (.endpointAuth "type"))
                (Dict.get inner "type") = true)

/-! ## Loops over a patch -/

section

variable {merge : Dict → String × Json → Dict} {patch existing : Dict} {key : String}

theorem foldl_get_of_not_contains
    (hother : ∀ merged field key, field.1 ≠ key →
      Dict.get (merge merged field) key = Dict.get merged key)
    (hkey : Dict.contains patch key = false) :
    Dict.get (patch.foldl merge existing) key = Dict.get existing key := by
  induction patch generalizing existing with
  | nil => rfl
  | cons field rest ih =>
      simp only [Dict.contains, List.any_cons, Bool.or_eq_false_iff,
        decide_eq_false_iff_not] at hkey
      rw [List.foldl_cons, ih hkey.2, hother existing field key hkey.1]

/-- Only one round of the loop decides about a key. -/
theorem foldl_get_of_contains
    (hother : ∀ merged field key, field.1 ≠ key →
      Dict.get (merge merged field) key = Dict.get merged key)
    (hlocal : ∀ first second field, Dict.get first field.1 = Dict.get second field.1 →
      Dict.get (merge first field) field.1 = Dict.get (merge second field) field.1)
    (hdistinct : (patch.map Prod.fst).Nodup) (hkey : Dict.contains patch key = true) :
    Dict.get (patch.foldl merge existing) key =
      Dict.get (merge existing (key, Dict.get patch key)) key := by
  induction patch generalizing existing with
  | nil => cases hkey
  | cons field rest ih =>
      rw [List.map_cons, List.nodup_cons] at hdistinct
      by_cases hfield : field.1 = key
      · subst hfield
        have hrest : Dict.contains rest field.1 = false := by
          rw [← Bool.not_eq_true, Dict.contains_iff]
          exact hdistinct.1
        rw [List.foldl_cons, foldl_get_of_not_contains hother hrest]
        simp [Dict.get]
      · have hrest : Dict.contains rest key = true := by
          simpa [Dict.contains, hfield] using hkey
        rw [List.foldl_cons, ih hdistinct.2 hrest]
        have hget : Dict.get (field :: rest) key = Dict.get rest key := by
          simp [Dict.get, hfield]
        rw [hget]
        exact hlocal _ _ (key, Dict.get rest key) (hother existing field key hfield)

end

/-! ## Merging -/

section

variable {existing patch held given : Dict} {key : String} {value : Json}

theorem mergeAuthField_other
    (merged : Dict) (field : String × Json) (key : String) (hne : field.1 ≠ key) :
    Dict.get (mergeAuthField merged field) key = Dict.get merged key := by
  unfold mergeAuthField
  split
  · split
    next hrefresh =>
      rw [hrefresh] at hne
      exact Dict.get_set_other _ hne
    next => exact Dict.get_set_other _ hne
  · split
    · exact Dict.get_set_other _ hne
    · rfl
  · exact Dict.get_set_other _ hne

theorem mergeRefreshField_other
    (merged : Dict) (field : String × Json) (key : String) (hne : field.1 ≠ key) :
    Dict.get (mergeRefreshField merged field) key = Dict.get merged key := by
  unfold mergeRefreshField
  split
  · split
    next hendpoint =>
      rw [hendpoint.1] at hne
      exact Dict.get_set_other _ hne
    next => exact Dict.get_set_other _ hne
  · rfl
  · exact Dict.get_set_other _ hne

theorem mergeAuthField_local
    (first second : Dict) (field : String × Json)
    (hsame : Dict.get first field.1 = Dict.get second field.1) :
    Dict.get (mergeAuthField first field) field.1 =
      Dict.get (mergeAuthField second field) field.1 := by
  obtain ⟨key, value⟩ := field
  dsimp only at hsame ⊢
  by_cases hrefresh : key = "refresh"
  · subst hrefresh
    unfold mergeAuthField
    dsimp only
    rw [hsame]
    cases value <;> cases Dict.get second "refresh" <;> simp
  · unfold mergeAuthField
    cases value with
    | null =>
        dsimp only
        split <;> simp [hsame]
    | dict given =>
        cases Dict.get first "refresh" <;> cases Dict.get second "refresh" <;>
          simp [hrefresh]
    | bool | int | float | str | list => simp

theorem mergeRefreshField_local
    (first second : Dict) (field : String × Json)
    (hsame : Dict.get first field.1 = Dict.get second field.1) :
    Dict.get (mergeRefreshField first field) field.1 =
      Dict.get (mergeRefreshField second field) field.1 := by
  obtain ⟨key, value⟩ := field
  dsimp only at hsame ⊢
  by_cases hendpoint : key = "token_endpoint_auth"
  · subst hendpoint
    unfold mergeRefreshField
    dsimp only
    rw [hsame]
    cases value with
    | dict given =>
        cases Dict.get second "token_endpoint_auth" with
        | dict held =>
            dsimp only
            split <;> simp
        | null | bool | int | float | str | list => simp
    | null => simpa using hsame
    | bool | int | float | str | list => simp
  · unfold mergeRefreshField
    cases value with
    | null => simpa using hsame
    | dict given =>
        cases Dict.get first "token_endpoint_auth" <;>
          cases Dict.get second "token_endpoint_auth" <;> simp [hendpoint]
    | bool | int | float | str | list => simp

theorem mergeAuth_absent
    (habsent : Dict.contains patch key = false) :
    Dict.get (patch.foldl mergeAuthField existing) key = Dict.get existing key :=
  foldl_get_of_not_contains mergeAuthField_other habsent

theorem mergeAuth_null
    (hdistinct : (patch.map Prod.fst).Nodup) (hnull : Dict.get patch key = .null)
    (hkey : key ∈ ["expires_at", "refresh"] → Dict.contains patch key = false) :
    Dict.get (patch.foldl mergeAuthField existing) key = Dict.get existing key := by
  cases hcontains : Dict.contains patch key with
  | false => exact mergeAuth_absent hcontains
  | true =>
      have hplain : key ∉ ["expires_at", "refresh"] := by
        intro hmem
        rw [hkey hmem] at hcontains
        cases hcontains
      rw [foldl_get_of_contains mergeAuthField_other mergeAuthField_local hdistinct
        hcontains, hnull]
      simp [mergeAuthField, hplain]

theorem mergeAuth_value
    (hdistinct : (patch.map Prod.fst).Nodup) (hvalue : Dict.get patch key ≠ .null)
    (hplain : key = "refresh" → ∀ given, Dict.get patch key ≠ .dict given) :
    Dict.get (patch.foldl mergeAuthField existing) key = Dict.get patch key := by
  rw [foldl_get_of_contains mergeAuthField_other mergeAuthField_local hdistinct
    (Dict.contains_of_get hvalue)]
  unfold mergeAuthField
  cases hgiven : Dict.get patch key with
  | null => exact absurd hgiven hvalue
  | dict given =>
      have hkey : key ≠ "refresh" := fun hsame => hplain hsame given hgiven
      cases Dict.get existing "refresh" <;> simp [hkey]
  | bool | int | float | str | list => simp

theorem mergeAuth_text
    {text : String} (hdistinct : (patch.map Prod.fst).Nodup)
    (htext : Dict.get patch key = .str text) :
    Dict.get (patch.foldl mergeAuthField existing) key = .str text := by
  rw [mergeAuth_value hdistinct (by simp [htext]) (by simp [htext]), htext]

/-- A refresh object is merged into one that is there. -/
theorem mergeAuth_refresh
    (hdistinct : (patch.map Prod.fst).Nodup)
    (hgiven : Dict.get patch "refresh" = .dict given) :
    Dict.get (patch.foldl mergeAuthField existing) "refresh" =
      match Dict.get existing "refresh" with
      | .dict held => .dict (mergeOauthRefresh held given)
      | _ => .dict given := by
  have hcontains := Dict.contains_of_get
    (by simp [hgiven] : Dict.get patch "refresh" ≠ .null)
  rw [foldl_get_of_contains mergeAuthField_other mergeAuthField_local hdistinct hcontains,
    hgiven]
  unfold mergeAuthField
  cases Dict.get existing "refresh" <;> simp

theorem mergeRefresh_null
    (hdistinct : (given.map Prod.fst).Nodup) (hnull : Dict.get given key = .null) :
    Dict.get (mergeOauthRefresh held given) key = Dict.get held key := by
  unfold mergeOauthRefresh
  cases hcontains : Dict.contains given key with
  | false => exact foldl_get_of_not_contains mergeRefreshField_other hcontains
  | true =>
      rw [foldl_get_of_contains mergeRefreshField_other mergeRefreshField_local hdistinct
        hcontains, hnull]
      rfl

theorem mergeRefresh_value
    (hdistinct : (given.map Prod.fst).Nodup) (hvalue : Dict.get given key ≠ .null)
    (hplain : key = "token_endpoint_auth" → ∀ inner, Dict.get given key ≠ .dict inner) :
    Dict.get (mergeOauthRefresh held given) key = Dict.get given key := by
  unfold mergeOauthRefresh
  rw [foldl_get_of_contains mergeRefreshField_other mergeRefreshField_local hdistinct
    (Dict.contains_of_get hvalue)]
  unfold mergeRefreshField
  cases hinner : Dict.get given key with
  | null => exact absurd hinner hvalue
  | dict inner =>
      have hkey : key ≠ "token_endpoint_auth" := fun hsame => hplain hsame inner hinner
      cases Dict.get held "token_endpoint_auth" <;> simp [hkey]
  | bool | int | float | str | list => simp

theorem mergeRefresh_text
    {text : String} (hdistinct : (given.map Prod.fst).Nodup)
    (htext : Dict.get given key = .str text) :
    Dict.get (mergeOauthRefresh held given) key = .str text := by
  rw [mergeRefresh_value hdistinct (by simp [htext]) (by simp [htext]), htext]

/-- A token endpoint auth is merged into one of the same type. -/
theorem mergeRefresh_endpointAuth
    {inner : Dict} (hdistinct : (given.map Prod.fst).Nodup)
    (hinner : Dict.get given "token_endpoint_auth" = .dict inner) :
    Dict.get (mergeOauthRefresh held given) "token_endpoint_auth" =
      match Dict.get held "token_endpoint_auth" with
      | .dict before =>
          if Json.equal (Dict.get before "type") (Dict.get inner "type") then
            .dict (Dict.update before (inner.filter fun child => child.2 ≠ .null))
          else .dict inner
      | _ => .dict inner := by
  have hcontains := Dict.contains_of_get
    (by simp [hinner] : Dict.get given "token_endpoint_auth" ≠ .null)
  unfold mergeOauthRefresh
  rw [foldl_get_of_contains mergeRefreshField_other mergeRefreshField_local hdistinct
    hcontains, hinner]
  unfold mergeRefreshField
  cases Dict.get held "token_endpoint_auth" with
  | dict before =>
      dsimp only
      by_cases hequal : Json.equal (Dict.get before "type") (Dict.get inner "type") = true
      · simp [hequal]
      · simp [hequal]
  | null | bool | int | float | str | list => simp

/-- The fields that are not null replace those before. -/
theorem update_present_get
    (hdistinct : (given.map Prod.fst).Nodup) (key : String) :
    Dict.get (Dict.update held (given.filter fun child => child.2 ≠ .null)) key =
      if Dict.get given key = .null then Dict.get held key else Dict.get given key := by
  let place : Dict → String × Json → Dict := fun merged field =>
    if field.2 ≠ .null then Dict.set merged field.1 field.2 else merged
  have hplace : Dict.update held (given.filter fun child => child.2 ≠ .null) =
      given.foldl place held := by
    unfold Dict.update
    rw [List.foldl_filter]
    simp [place]
  have hother : ∀ (merged : Dict) (field : String × Json) (key : String),
      field.1 ≠ key → Dict.get (place merged field) key = Dict.get merged key := by
    intro merged field key hne
    dsimp only [place]
    split
    · exact Dict.get_set_other _ hne
    · rfl
  have hlocal : ∀ (first second : Dict) (field : String × Json),
      Dict.get first field.1 = Dict.get second field.1 →
        Dict.get (place first field) field.1 = Dict.get (place second field) field.1 := by
    intro first second field hsame
    dsimp only [place]
    split <;> simp [hsame]
  rw [hplace]
  cases hcontains : Dict.contains given key with
  | false =>
      rw [foldl_get_of_not_contains hother hcontains,
        if_pos (Dict.get_of_not_contains hcontains)]
  | true =>
      rw [foldl_get_of_contains hother hlocal hdistinct hcontains]
      by_cases hnull : Dict.get given key = .null <;> simp [place, hnull]

end

/-! ## Fields of merged objects -/

section

variable {auth patch merged : Dict}

theorem keyed_field
    (hpatch : Dict.Keyed patch) {key : String} {inner : Dict}
    (hinner : Dict.get patch key = .dict inner) : Dict.Keyed inner := by
  have hkeyed := hpatch.get key
  rw [hinner] at hkeyed
  exact Json.keyed_dict.mp hkeyed

/-- A merge keeps the fields which the patch leaves. -/
theorem merged_of_leaves
    (hpatch : Dict.Keyed patch) {path : AuthPath} (hleaves : Leaves auth patch path) :
    path.read (patch.foldl mergeAuthField auth) = path.read auth := by
  cases path with
  | top key => exact mergeAuth_null hpatch.distinct hleaves.1 hleaves.2
  | refresh key =>
      simp only [AuthPath.read]
      rcases hleaves with habsent | ⟨given, hgiven, hnull⟩
      · rw [mergeAuth_absent habsent]
      · rw [mergeAuth_refresh hpatch.distinct hgiven]
        cases Dict.get auth "refresh" with
        | dict held =>
            exact mergeRefresh_null (keyed_field hpatch hgiven).distinct hnull
        | null | bool | int | float | str | list => exact hnull
  | endpointAuth key =>
      simp only [AuthPath.read]
      rcases hleaves with habsent | ⟨given, hgiven, hleft⟩
      · rw [mergeAuth_absent habsent]
      · have hgivenKeyed := keyed_field hpatch hgiven
        rw [mergeAuth_refresh hpatch.distinct hgiven]
        rcases hleft with hnull | ⟨inner, hinner, hnull, htypes⟩
        · cases Dict.get auth "refresh" with
          | dict held =>
              simp only [Json.get_dict]
              rw [mergeRefresh_null hgivenKeyed.distinct hnull]
          | null | bool | int | float | str | list => simp [Json.get, hnull]
        · have hinnerKeyed := keyed_field hgivenKeyed hinner
          simp only [AuthPath.read] at htypes
          cases hrefresh : Dict.get auth "refresh" with
          | dict held =>
              rw [hrefresh] at htypes
              simp only [Json.get_dict] at htypes ⊢
              rw [mergeRefresh_endpointAuth hgivenKeyed.distinct hinner]
              cases hbefore : Dict.get held "token_endpoint_auth" with
              | dict before =>
                  rw [hbefore] at htypes
                  simp only [Json.get_dict] at htypes ⊢
                  rw [if_pos htypes, Json.get_dict,
                    update_present_get hinnerKeyed.distinct, if_pos hnull]
              | null | bool | int | float | str | list => exact hnull
          | null | bool | int | float | str | list => simp [Json.get, hinner, hnull]

/-- A token endpoint auth of the patch gives its values and its type to the merged one. -/
theorem merged_endpointAuth
    (hpatch : Dict.Keyed patch) {given inner : Dict}
    (hgiven : Dict.get patch "refresh" = .dict given)
    (hinner : Dict.get given "token_endpoint_auth" = .dict inner) :
    ∃ result, (Dict.get (patch.foldl mergeAuthField auth) "refresh").get
        "token_endpoint_auth" = .dict result ∧
      Dict.get result "type" = Dict.get inner "type" ∧
      ∀ key, Dict.get inner key ≠ .null → Dict.get result key = Dict.get inner key := by
  have hgivenKeyed := keyed_field hpatch hgiven
  have hinnerKeyed := keyed_field hgivenKeyed hinner
  rw [mergeAuth_refresh hpatch.distinct hgiven]
  cases Dict.get auth "refresh" with
  | dict held =>
      simp only [Json.get_dict]
      rw [mergeRefresh_endpointAuth hgivenKeyed.distinct hinner]
      cases Dict.get held "token_endpoint_auth" with
      | dict before =>
          dsimp only
          split
          next htypes =>
            refine ⟨_, rfl, ?_, fun key hkey => ?_⟩
            · rw [update_present_get hinnerKeyed.distinct]
              split
              next hnull =>
                rw [hnull] at htypes ⊢
                cases hbefore : Dict.get before "type" <;>
                  simp [hbefore, Json.equal, Json.number] at htypes ⊢
              next => rfl
            · rw [update_present_get hinnerKeyed.distinct, if_neg hkey]
          next => exact ⟨inner, rfl, rfl, fun _ _ => rfl⟩
      | null | bool | int | float | str | list =>
          exact ⟨inner, rfl, rfl, fun _ _ => rfl⟩
  | null | bool | int | float | str | list => exact ⟨inner, hinner, rfl, fun _ _ => rfl⟩

/-- The type of the token endpoint auth is that of the patch if the patch has one. -/
theorem merged_endpoint_type
    (hpatch : Dict.Keyed patch) {given inner : Dict}
    (hgiven : Dict.get patch "refresh" = .dict given)
    (hinner : Dict.get given "token_endpoint_auth" = .dict inner) :
    AuthPath.read (patch.foldl mergeAuthField auth) (.endpointAuth "type") =
      Dict.get inner "type" := by
  obtain ⟨result, hresult, htype, -⟩ := merged_endpointAuth hpatch hgiven hinner
  simp only [AuthPath.read]
  rw [hresult, Json.get_dict, htype]

theorem get_eq_str
    {value : Json} {key text : String} (hfield : value.get key = .str text) :
    ∃ fields, value = .dict fields ∧ Dict.get fields key = .str text := by
  cases value with
  | dict fields => exact ⟨fields, rfl, hfield⟩
  | null | bool | int | float | str | list => cases hfield

theorem get_eq_dict
    {value : Json} {key : String} {inner : Dict} (hinner : value.get key = .dict inner) :
    ∃ fields, value = .dict fields ∧ Dict.get fields key = .dict inner := by
  cases value with
  | dict fields => exact ⟨fields, rfl, hinner⟩
  | null | bool | int | float | str | list => cases hinner

/-- A merge takes the texts of the patch. -/
theorem merged_of_text
    (hpatch : Dict.Keyed patch) {path : AuthPath} {text : String}
    (htext : path.read patch = .str text) :
    path.read (patch.foldl mergeAuthField auth) = .str text := by
  cases path with
  | top key => exact mergeAuth_text hpatch.distinct htext
  | refresh key =>
      obtain ⟨given, hgiven, htext⟩ := get_eq_str htext
      simp only [AuthPath.read]
      rw [mergeAuth_refresh hpatch.distinct hgiven]
      cases Dict.get auth "refresh" with
      | dict held =>
          exact mergeRefresh_text (keyed_field hpatch hgiven).distinct htext
      | null | bool | int | float | str | list => exact htext
  | endpointAuth key =>
      obtain ⟨inner, hinner, htext⟩ := get_eq_str htext
      obtain ⟨given, hgiven, hinner⟩ := get_eq_dict hinner
      obtain ⟨result, hresult, -, hvalues⟩ := merged_endpointAuth hpatch hgiven hinner
      simp only [AuthPath.read]
      rw [hresult, Json.get_dict, hvalues key (by simp [htext]), htext]

end

/-! ## Checking -/

section

variable {data result auth normal : Dict} {field authType : String}

theorem requireCredentialString_get
    (hresult : requireCredentialString data field authType = .ok result) :
    (∃ text, Dict.get data field = .str text) ∧
      ∀ key, Dict.get result key = Dict.get data key := by
  unfold requireCredentialString at hresult
  split at hresult
  · cases hresult
  · obtain ⟨text, htext, hresult⟩ := bind_eq_ok.mp hresult
    cases hresult
    unfold stringCredentialValue at htext
    split at htext
    next value hvalue =>
      cases htext
      refine ⟨⟨text, hvalue⟩, fun key => ?_⟩
      by_cases hkey : field = key
      · subst hkey
        rw [Dict.get_set_same, hvalue]
      · exact Dict.get_set_other _ hkey
    next => cases htext

theorem optionalCredentialString_get
    (hresult : optionalCredentialString data field authType = .ok result) :
    ∀ key, Dict.get result key = Dict.get data key := by
  unfold optionalCredentialString at hresult
  split at hresult
  · cases hresult
    exact fun _ => rfl
  next hpresent =>
    have hrequired : requireCredentialString data field authType = .ok result := by
      rwa [requireCredentialString, if_neg hpresent]
    exact (requireCredentialString_get hrequired).2

theorem memberText_eq_ok
    {value : Json} {types : List String} {message text : String}
    (htext : memberText value types message = .ok text) :
    value = .str text ∧ text ∈ types := by
  unfold memberText at htext
  split at htext
  · split at htext
    next hmem =>
      cases htext
      exact ⟨rfl, hmem⟩
    next => cases htext
  · cases htext
  · cases htext
  · cases htext

/-- The check of a token endpoint auth keeps its type and its secret, and nothing else. -/
structure CheckedEndpoint (before after : Dict) : Prop where
  type : Dict.get after "type" = Dict.get before "type"
  isText : ∃ text, Dict.get before "type" = .str text
  secret : Dict.get after "client_secret" =
    if Dict.get before "type" = .str "none" then .null
    else Dict.get before "client_secret"
  others : ∀ key, key ≠ "type" → key ≠ "client_secret" → Dict.get after key = .null

theorem normalizeTokenEndpointAuth_checked
    {before : Json} (hresult : normalizeTokenEndpointAuth before = .ok result) :
    ∃ fields, before = .dict fields ∧ CheckedEndpoint fields result := by
  unfold normalizeTokenEndpointAuth at hresult
  split at hresult
  next fields =>
    obtain ⟨text, htext, hresult⟩ := bind_eq_ok.mp hresult
    have htype := (memberText_eq_ok htext).1
    refine ⟨fields, rfl, ?_⟩
    split at hresult
    next hsecret =>
      obtain ⟨secret, hvalue, hresult⟩ := bind_eq_ok.mp hresult
      cases hresult
      unfold stringCredentialValue at hvalue
      split at hvalue
      next value hheld =>
        cases hvalue
        have hkept : Json.str text ≠ .str "none" := by simpa using hsecret.1
        constructor
        · simp [Dict.get, htype]
        · exact ⟨text, htype⟩
        · rw [htype, if_neg hkept, hheld]
          simp [Dict.get]
        · intro key hkey hother
          simp [Dict.get, hkey.symm, hother.symm]
      next => cases hvalue
    next hnone =>
      cases hresult
      constructor
      · simp [Dict.get, htype]
      · exact ⟨text, htype⟩
      · rw [htype]
        split
        next => simp [Dict.get]
        next hkept =>
          have hother : text ≠ "none" := fun hsame => hkept (by rw [hsame])
          have hnull : Dict.get fields "client_secret" = .null := by
            by_contra hpresent
            exact hnone ⟨hother, hpresent⟩
          simp [Dict.get, hnull]
      · intro key hkey hother
        simp [Dict.get, hkey.symm]
  next => cases hresult

/-- The check of a refresh object changes nothing but its token endpoint auth. -/
structure CheckedRefresh (before after : Dict) : Prop where
  others : ∀ key, key ≠ "token_endpoint_auth" → Dict.get after key = Dict.get before key
  endpointAuth : ∃ given checked, Dict.get before "token_endpoint_auth" = .dict given ∧
    Dict.get after "token_endpoint_auth" = .dict checked ∧ CheckedEndpoint given checked

theorem normalizeOauthRefresh_checked
    {before : Json} (hresult : normalizeOauthRefresh before = .ok result) :
    ∃ fields, before = .dict fields ∧ CheckedRefresh fields result := by
  unfold normalizeOauthRefresh at hresult
  split at hresult
  next fields =>
    simp only [bind_eq_ok] at hresult
    obtain ⟨first, hfirst, second, hsecond, third, hthird, checked, hchecked, fourth,
      hfourth, hresult⟩ := hresult
    have hthirdGet : ∀ key, Dict.get third key = Dict.get fields key := by
      intro key
      rw [(requireCredentialString_get hthird).2, (requireCredentialString_get hsecond).2,
        (requireCredentialString_get hfirst).2]
    have hresultGet : ∀ key, Dict.get result key =
        Dict.get (Dict.set third "token_endpoint_auth" (.dict checked)) key := by
      intro key
      rw [optionalCredentialString_get hresult, optionalCredentialString_get hfourth]
    obtain ⟨given, hgiven, hendpoint⟩ := normalizeTokenEndpointAuth_checked hchecked
    refine ⟨fields, rfl, ?_, given, checked, ?_, ?_, hendpoint⟩
    · intro key hkey
      rw [hresultGet, Dict.get_set_other _ hkey.symm, hthirdGet]
    · rw [← hthirdGet, hgiven]
    · rw [hresultGet, Dict.get_set_same]
  next => cases hresult

/-- What the check of an auth object changes, by its type. -/
inductive CheckedAuth (py : Interpreter) (auth normal : Dict) : Prop
  | environmentVariable (networking : Dict)
      (htype : Dict.get auth "type" = .str "environment_variable")
      (hothers : ∀ key, key ≠ "networking" → Dict.get normal key = Dict.get auth key)
      (hgiven : normalizeCredentialNetworking ((Dict.get auth "networking").or
        (.dict [("type", .str "unrestricted")])) = .ok networking)
      (hnetworking : Dict.get normal "networking" = .dict networking)
  | staticBearer (htype : Dict.get auth "type" = .str "static_bearer")
      (hothers : ∀ key, Dict.get normal key = Dict.get auth key)
  | mcpOauth (htype : Dict.get auth "type" = .str "mcp_oauth")
      (hothers : ∀ key, key ≠ "expires_at" → key ≠ "refresh" →
        Dict.get normal key = Dict.get auth key)
      (hexpires : Dict.get normal "expires_at" =
        if Dict.get auth "expires_at" = .null then .null
        else .str (py.str (Dict.get auth "expires_at")))
      (hrefresh : Dict.get auth "refresh" = .null ∧ Dict.get normal "refresh" = .null ∨
        ∃ before after, Dict.get auth "refresh" = .dict before ∧
          Dict.get normal "refresh" = .dict after ∧ CheckedRefresh before after)

theorem normalizeMcpOauth_checked
    {py : Interpreter} (htype : Dict.get auth "type" = .str "mcp_oauth")
    (hnormal : normalizeMcpOauth py auth = .ok normal) : CheckedAuth py auth normal := by
  unfold normalizeMcpOauth at hnormal
  simp only [bind_eq_ok] at hnormal
  obtain ⟨first, hfirst, second, hsecond, hnormal⟩ := hnormal
  have hget : ∀ key, Dict.get second key = Dict.get auth key := by
    intro key
    rw [optionalCredentialString_get hsecond, (requireCredentialString_get hfirst).2]
  set dated := if Dict.get second "expires_at" = .null then second
    else Dict.set second "expires_at" (.str (py.str (Dict.get second "expires_at")))
    with hdated
  have hothers : ∀ key, key ≠ "expires_at" → Dict.get dated key = Dict.get auth key := by
    intro key hkey
    rw [hdated]
    split
    · exact hget key
    · rw [Dict.get_set_other _ hkey.symm, hget]
  have hexpires : Dict.get dated "expires_at" =
      if Dict.get auth "expires_at" = .null then .null
      else .str (py.str (Dict.get auth "expires_at")) := by
    rw [hdated, hget "expires_at"]
    split
    next hnull => rw [hget, hnull]
    next => rw [Dict.get_set_same]
  have hrefreshOld : Dict.get dated "refresh" = Dict.get auth "refresh" :=
    hothers _ (by decide)
  rw [hrefreshOld] at hnormal
  split at hnormal
  next hnull =>
    have hsame : dated = normal := Except.ok.inj hnormal
    rw [← hsame]
    exact .mcpOauth htype (fun key hkey _ => hothers key hkey) hexpires
      (.inl ⟨hnull, hrefreshOld.trans hnull⟩)
  next =>
    obtain ⟨refresh, hrefresh, hnormal⟩ := bind_eq_ok.mp hnormal
    cases hnormal
    obtain ⟨before, hbefore, hchecked⟩ := normalizeOauthRefresh_checked hrefresh
    refine .mcpOauth htype ?_ ?_ (.inr ⟨before, refresh, hbefore, ?_, hchecked⟩)
    · intro key hkey hother
      rw [Dict.get_set_other _ hother.symm, hothers key hkey]
    · rw [Dict.get_set_other _ (by decide), hexpires]
    · rw [Dict.get_set_same]

theorem normalizeCredentialAuth_checked
    {py : Interpreter} (hnormal : normalizeCredentialAuth py (.dict auth) = .ok normal) :
    CheckedAuth py auth normal := by
  unfold normalizeCredentialAuth at hnormal
  dsimp only at hnormal
  obtain ⟨authType, hauthType, hnormal⟩ := bind_eq_ok.mp hnormal
  obtain ⟨htype, hmem⟩ := memberText_eq_ok hauthType
  have hset : Dict.set auth "type" (.str authType) = auth := by
    have hsame := @Dict.set_get_self auth "type" (by simp [htype])
    rwa [htype] at hsame
  rw [hset] at hnormal
  split at hnormal
  next henvironment =>
    subst henvironment
    unfold normalizeEnvironmentVariable at hnormal
    simp only [bind_eq_ok, pure_eq_ok] at hnormal
    obtain ⟨first, hfirst, second, hsecond, networking, hnetworking, rfl⟩ := hnormal
    have hget : ∀ key, Dict.get second key = Dict.get auth key := by
      intro key
      rw [optionalCredentialString_get hsecond, (requireCredentialString_get hfirst).2]
    rw [hget] at hnetworking
    refine .environmentVariable networking htype ?_ hnetworking (Dict.get_set_same _ _ _)
    intro key hkey
    rw [Dict.get_set_other _ hkey.symm, hget]
  next henvironment =>
    split at hnormal
    next hbearer =>
      subst hbearer
      unfold normalizeStaticBearer at hnormal
      obtain ⟨first, hfirst, hnormal⟩ := bind_eq_ok.mp hnormal
      refine .staticBearer htype fun key => ?_
      rw [optionalCredentialString_get hnormal, (requireCredentialString_get hfirst).2]
    next hbearer =>
      obtain rfl : authType = "mcp_oauth" := by
        simp only [CREDENTIAL_AUTH_TYPES, List.mem_cons, List.not_mem_nil,
          or_false] at hmem
        rcases hmem with hsame | hsame | hsame
        · exact absurd hsame henvironment
        · exact hsame
        · exact absurd hsame hbearer
      exact normalizeMcpOauth_checked htype hnormal

end

end ManagedAgents
