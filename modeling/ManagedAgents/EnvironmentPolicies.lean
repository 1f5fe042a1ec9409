import ManagedAgents.Environments
import ManagedAgents.JsonEquality

/-!
# Network policies of environments

The configuration of an environment is read twice: for the response to a client,
and for the policy of a run.  The two agree on every accepted configuration but
those with a networking object that names no type.
-/

namespace ManagedAgents

open Fallible

/-! ## The two readings -/

/-- `value in names`, which raises `TypeError` for a list or a dictionary. -/
def oneOfTexts (value : Json) (names : List String) : Except HTTPException Bool :=
  match value with
  | .list _ | .dict _ => .error internalServerError
  | .str text => .ok (text ∈ names)
  | _ => .ok false

/-- A value that is used as a dictionary. -/
def asDict : Json → Except HTTPException Dict
  | .dict fields => .ok fields
  | _ => .error internalServerError

def networkingOrOpen (config : Dict) : Json :=
  (Dict.get config "networking").or (.dict [("type", .str "unrestricted")])

def policyFields (networkingType hosts : Json) (networking : Dict) : Dict :=
  [("type", networkingType), ("allowed_hosts", hosts),
   ("allow_mcp_servers", .bool (Dict.get networking "allow_mcp_servers").truthy),
   ("allow_package_managers",
     .bool (Dict.get networking "allow_package_managers").truthy)]

/-- The networking part of `environment_config_to_response`. -/
def networkingToResponse (networking : Dict) : Except HTTPException Dict := do
  let legacy ← oneOfTexts (Dict.get networking "type") ["restricted", "none"]
  let networking :=
    if legacy then
      policyFields (.str "limited") (getDefault networking "allowed_hosts" (.list []))
        networking
    else networking
  if Dict.get networking "type" = .str "limited" then
    let hosts ← listOf (Dict.get networking "allowed_hosts")
    return policyFields (.str "limited") (.list hosts) networking
  return networking

def packageManagers : List String := ["apt", "cargo", "gem", "go", "npm", "pip"]

/-- The lists of packages, `{key: list(packages.get(key) or []) ...}`. -/
def packageLists (packages : Dict) : Except HTTPException Dict :=
  packageManagers.mapM fun key => do
    let items ← listOf (Dict.get packages key)
    return (key, .list items)

def environmentConfigToResponse (config : Dict) : Except HTTPException Dict := do
  let normalized := Dict.pop config "_scope"
  let envType := configType normalized
  let normalized := Dict.set normalized "type" envType
  if envType ≠ .str "cloud" then
    return normalized
  let networking ← asDict (networkingOrOpen normalized)
  let networking ← networkingToResponse networking
  let normalized := Dict.set normalized "networking" (.dict networking)
  let packages ← toDict (Dict.get normalized "packages")
  let packages ← packageLists packages
  return Dict.set normalized "packages"
    (.dict (("type", .str "packages") :: packages))

/-- The networking part of `_environment_policy_summary`. -/
def networkingSummary (networking : Dict) : Except HTTPException Dict := do
  let networkingType := (Dict.get networking "type").or (.str "unrestricted")
  let legacy ← oneOfTexts networkingType ["restricted", "none"]
  let networkingType := if legacy then .str "limited" else networkingType
  let hosts ← listOf (Dict.get networking "allowed_hosts")
  return policyFields networkingType
    (.list (if networkingType = .str "unrestricted" then [] else hosts)) networking

def resourceKeys : List String := ["cpu", "memory_mb", "disk_mb", "timeout_seconds"]

def resourceSummary (resources : Dict) : Dict :=
  (resourceKeys.filter fun key => Dict.get resources key ≠ .null).map fun key =>
    (key, Dict.get resources key)

def environmentPolicySummary (config : Dict) : Except HTTPException Dict := do
  let networking ← toDict (networkingOrOpen config)
  let networking ← networkingSummary networking
  let packages ← toDict (Dict.get config "packages")
  let packages ← packageLists packages
  let resources ← toDict (Dict.get config "resources")
  return [("networking", .dict networking), ("packages", .dict packages),
    ("resources", .dict (resourceSummary resources))]

/-! ## Accepted configurations -/

section

variable {value : Json} {field path : String} {fields : Dict} {keys : List String}
  {check : Json → Except HTTPException Unit} {allowed : List Json} {message : String}

theorem unlessNull_eq_ok :
    unlessNull value check = .ok () ↔ value = .null ∨ check value = .ok () := by
  unfold unlessNull
  split
  next hnull => simp [hnull]
  next hnull => simp [hnull]

theorem validateObject_eq_ok
    {check : Dict → Except HTTPException Unit} :
    validateObject field check value = .ok () ↔
      ∃ fields, value = .dict fields ∧ check fields = .ok () := by
  cases value <;> simp [validateObject]

theorem validateFields_eq_ok
    {check : String → Json → Except HTTPException Unit} :
    validateFields fields keys path check = .ok () ↔
      ∀ key ∈ keys, Dict.get fields key = .null ∨
        check (path ++ "." ++ key) (Dict.get fields key) = .ok () := by
  unfold validateFields
  rw [List.forM_eq_forM]
  induction keys with
  | nil => simp
  | cons key rest ih =>
      rw [List.forM_cons, bind_eq_ok, List.forall_mem_cons, ← ih, ← unlessNull_eq_ok]
      constructor
      · rintro ⟨_, hkey, hrest⟩
        exact ⟨hkey, hrest⟩
      · rintro ⟨hkey, hrest⟩
        exact ⟨(), hkey, hrest⟩

theorem validateStringList_eq_ok
    (hvalid : validateStringList field value = .ok ()) :
    ∃ items, value = .list items := by
  cases value with
  | list items => exact ⟨items, rfl⟩
  | null | bool | int | float | str | dict => cases hvalid

theorem mem_of_requireMember
    (hvalid : requireMember value allowed message = .ok ()) : value ∈ allowed := by
  cases value with
  | list items => cases hvalid
  | dict fields => cases hvalid
  | null | bool | int | float | str =>
      exact not_not.mp (raiseIf_eq_ok.mp hvalid)

end

/-- A value that `list(value or [])` takes as it is. -/
def ListOrNull (value : Json) : Prop := value = .null ∨ ∃ items, value = .list items

theorem listOf_eq_ok {value : Json} (hvalue : ListOrNull value) :
    ∃ items, listOf value = .ok items := by
  rcases hvalue with rfl | ⟨items, rfl⟩
  · exact ⟨[], rfl⟩
  · cases items with
    | nil => exact ⟨[], rfl⟩
    | cons item rest => exact ⟨item :: rest, rfl⟩

/-- What the check of a networking object leaves open. -/
structure AcceptedNetworking (networking : Dict) : Prop where
  type : Dict.get networking "type" ∈
    [.str "unrestricted", .str "restricted", .str "limited", .str "none", Json.null]
  hosts : ListOrNull (Dict.get networking "allowed_hosts")

theorem validateNetworking_spec
    {value : Json} (hvalid : validateNetworking value = .ok ()) :
    value = .null ∨ ∃ networking, value = .dict networking ∧
      AcceptedNetworking networking := by
  unfold validateNetworking at hvalid
  rcases unlessNull_eq_ok.mp hvalid with hnull | hobject
  · exact Or.inl hnull
  · obtain ⟨networking, rfl, hchecks⟩ := validateObject_eq_ok.mp hobject
    obtain ⟨_, htype, hrest⟩ := bind_eq_ok.mp hchecks
    obtain ⟨_, hhosts, _⟩ := bind_eq_ok.mp hrest
    refine Or.inr ⟨networking, rfl, mem_of_requireMember htype, ?_⟩
    exact (unlessNull_eq_ok.mp hhosts).imp_right validateStringList_eq_ok

/-- What the checks of a configuration leave open for the two readings. -/
structure AcceptedConfig (config : Dict) : Prop where
  networking : Dict.get config "networking" = .null ∨
    ∃ networking, Dict.get config "networking" = .dict networking ∧
      AcceptedNetworking networking
  packages : Dict.get config "packages" = .null ∨
    ∃ packages, Dict.get config "packages" = .dict packages ∧
      ∀ key ∈ packageManagers, ListOrNull (Dict.get packages key)
  resources : Dict.get config "resources" = .null ∨
    ∃ resources, Dict.get config "resources" = .dict resources

theorem validateEnvironmentConfig_spec
    {config : Dict} (hvalid : validateEnvironmentConfig config = .ok ()) :
    AcceptedConfig config := by
  unfold validateEnvironmentConfig at hvalid
  obtain ⟨_, _, hvalid⟩ := bind_eq_ok.mp hvalid
  obtain ⟨_, hnetworking, hvalid⟩ := bind_eq_ok.mp hvalid
  obtain ⟨_, hpackages, hvalid⟩ := bind_eq_ok.mp hvalid
  obtain ⟨_, hresources, _⟩ := bind_eq_ok.mp hvalid
  refine ⟨validateNetworking_spec hnetworking, ?_, ?_⟩
  · refine (unlessNull_eq_ok.mp hpackages).imp_right fun hobject => ?_
    obtain ⟨packages, hpackages, hlists⟩ := validateObject_eq_ok.mp hobject
    refine ⟨packages, hpackages, fun key hkey => ?_⟩
    exact (validateFields_eq_ok.mp hlists key hkey).imp_right validateStringList_eq_ok
  · refine (unlessNull_eq_ok.mp hresources).imp_right fun hobject => ?_
    obtain ⟨resources, hresources, -⟩ := validateObject_eq_ok.mp hobject
    exact ⟨resources, hresources⟩

/-! ## The lists of packages -/

/-- Missing packages are no packages. -/
theorem packageLists_eq_ok
    {value : Json}
    (hvalue : value = .null ∨ ∃ packages, value = .dict packages ∧
      ∀ key ∈ packageManagers, ListOrNull (Dict.get packages key)) :
    ∃ packages lists, toDict value = .ok packages ∧
      packageLists packages = .ok lists := by
  have hlists : ∀ packages : Dict,
      (∀ key ∈ packageManagers, ListOrNull (Dict.get packages key)) →
      ∃ lists, packageLists packages = .ok lists := by
    intro packages hpackages
    refine exists_mapM_eq_ok_iff.mpr fun key hkey => ?_
    obtain ⟨items, hitems⟩ := listOf_eq_ok (hpackages key hkey)
    exact ⟨(key, .list items), by rw [hitems]; rfl⟩
  rcases hvalue with rfl | ⟨packages, rfl, hpackages⟩
  · obtain ⟨lists, hempty⟩ := hlists [] fun key _ => Or.inl rfl
    exact ⟨[], lists, rfl, hempty⟩
  · obtain ⟨lists, hpackages⟩ := hlists packages hpackages
    refine ⟨packages, lists, ?_, hpackages⟩
    cases packages <;> rfl

/-! ## The two policies -/

/-- The response and the policy of a run show the same access to the network. -/
def NetworkingAgrees (shown enforced : Dict) : Prop :=
  Dict.get shown "type" = Dict.get enforced "type" ∧
    Dict.get shown "type" ∈ [Json.str "unrestricted", Json.str "limited"] ∧
    (Dict.get shown "type" = .str "limited" →
      Dict.get shown "allowed_hosts" = Dict.get enforced "allowed_hosts" ∧
      Dict.get shown "allow_mcp_servers" = Dict.get enforced "allow_mcp_servers" ∧
      Dict.get shown "allow_package_managers" =
        Dict.get enforced "allow_package_managers")

/-- The response and the summary exist and their networking parts agree. -/
def PoliciesAgree (config : Dict) : Prop :=
  ∃ response summary shown enforced,
    environmentConfigToResponse config = .ok response ∧
      environmentPolicySummary config = .ok summary ∧
      Dict.get response "networking" = .dict shown ∧
      Dict.get summary "networking" = .dict enforced ∧
      NetworkingAgrees shown enforced

theorem networkingOrOpen_eq
    {config : Dict} (hconfig : AcceptedConfig config) :
    ∃ networking, networkingOrOpen config = .dict networking ∧
      toDict (networkingOrOpen config) = .ok networking ∧
        AcceptedNetworking networking := by
  have hopen : AcceptedNetworking [("type", .str "unrestricted")] :=
    ⟨by decide, Or.inl (by decide)⟩
  unfold networkingOrOpen
  rcases hconfig.networking with hnull | ⟨networking, hnetworking, haccepted⟩
  · rw [hnull]
    exact ⟨_, rfl, rfl, hopen⟩
  · rw [hnetworking]
    cases networking with
    | nil => exact ⟨_, rfl, rfl, hopen⟩
    | cons field rest => exact ⟨_, rfl, rfl, haccepted⟩

section

variable {config networking : Dict} {hosts : List Json} {networkingType : String}

theorem listOf_getDefault (fields : Dict) (key : String) :
    listOf (getDefault fields key (.list [])) = listOf (Dict.get fields key) := by
  unfold getDefault
  cases hkey : Dict.contains fields key with
  | true => rfl
  | false =>
      rw [Dict.get_of_not_contains hkey]
      rfl

theorem networkingToResponse_legacy
    (hlegacy : oneOfTexts (Dict.get networking "type") ["restricted", "none"] = .ok true)
    (hhosts : listOf (Dict.get networking "allowed_hosts") = .ok hosts) :
    networkingToResponse networking =
      .ok (policyFields (.str "limited") (.list hosts) networking) := by
  unfold networkingToResponse
  rw [hlegacy]
  change (listOf (getDefault networking "allowed_hosts" (.list [])) >>= fun hosts =>
    .ok (policyFields (.str "limited") (.list hosts) networking)) = _
  rw [listOf_getDefault, hhosts]
  rfl

theorem networkingToResponse_current
    (hcurrent :
      oneOfTexts (Dict.get networking "type") ["restricted", "none"] = .ok false) :
    networkingToResponse networking =
      if Dict.get networking "type" = .str "limited" then
        listOf (Dict.get networking "allowed_hosts") >>= fun hosts =>
          .ok (policyFields (.str "limited") (.list hosts) networking)
      else .ok networking := by
  unfold networkingToResponse
  rw [hcurrent]
  rfl

/-- A limited policy under one of its names, as the client sees it. -/
theorem networkingToResponse_limited
    (htype : Dict.get networking "type" = .str networkingType)
    (hlimited : networkingType ∈ ["restricted", "none", "limited"])
    (hhosts : listOf (Dict.get networking "allowed_hosts") = .ok hosts) :
    networkingToResponse networking =
      .ok (policyFields (.str "limited") (.list hosts) networking) := by
  simp only [List.mem_cons, List.not_mem_nil, or_false] at hlimited
  rcases hlimited with rfl | rfl | rfl
  · exact networkingToResponse_legacy (by rw [htype]; rfl) hhosts
  · exact networkingToResponse_legacy (by rw [htype]; rfl) hhosts
  · rw [networkingToResponse_current (by rw [htype]; rfl), if_pos htype, hhosts]
    rfl

/-- An open policy is shown as it was given. -/
theorem networkingToResponse_open
    (htype : Dict.get networking "type" ∈ [.str "unrestricted", Json.null]) :
    networkingToResponse networking = .ok networking := by
  simp only [List.mem_cons, List.not_mem_nil, or_false] at htype
  rcases htype with htype | htype
  · rw [networkingToResponse_current (by rw [htype]; rfl), if_neg (by simp [htype])]
  · rw [networkingToResponse_current (by rw [htype]; rfl), if_neg (by simp [htype])]

theorem networkingSummary_limited
    (htype : Dict.get networking "type" = .str networkingType)
    (hlimited : networkingType ∈ ["restricted", "none", "limited"])
    (hhosts : listOf (Dict.get networking "allowed_hosts") = .ok hosts) :
    networkingSummary networking =
      .ok (policyFields (.str "limited") (.list hosts) networking) := by
  simp only [List.mem_cons, List.not_mem_nil, or_false] at hlimited
  unfold networkingSummary
  rw [htype, hhosts]
  rcases hlimited with rfl | rfl | rfl <;> rfl

/-- Without a type the policy is open. -/
theorem networkingSummary_open
    (htype : Dict.get networking "type" ∈ [.str "unrestricted", Json.null])
    (hhosts : listOf (Dict.get networking "allowed_hosts") = .ok hosts) :
    networkingSummary networking =
      .ok (policyFields (.str "unrestricted") (.list []) networking) := by
  simp only [List.mem_cons, List.not_mem_nil, or_false] at htype
  unfold networkingSummary
  rw [hhosts]
  rcases htype with htype | htype <;> rw [htype] <;> rfl

/-- The two readings of a networking object agree if it names a type. -/
theorem networkingAgrees_iff
    (haccepted : AcceptedNetworking networking) :
    ∃ shown enforced,
      networkingToResponse networking = .ok shown ∧
        networkingSummary networking = .ok enforced ∧
        (NetworkingAgrees shown enforced ↔ Dict.get networking "type" ≠ .null) := by
  obtain ⟨hosts, hhosts⟩ := listOf_eq_ok haccepted.hosts
  have hopen : Dict.get networking "type" ∈ [.str "unrestricted", Json.null] →
      ∃ shown enforced,
        networkingToResponse networking = .ok shown ∧
          networkingSummary networking = .ok enforced ∧
          (NetworkingAgrees shown enforced ↔ Dict.get networking "type" ≠ .null) := by
    intro htype
    refine ⟨_, _, networkingToResponse_open htype,
      networkingSummary_open htype hhosts, ?_⟩
    simp only [List.mem_cons, List.not_mem_nil, or_false] at htype
    rcases htype with htype | htype
    · simp [NetworkingAgrees, htype, policyFields, Dict.get]
    · simp [NetworkingAgrees, htype]
  have hlimited : ∀ networkingType ∈ ["restricted", "none", "limited"],
      Dict.get networking "type" = .str networkingType →
      ∃ shown enforced,
        networkingToResponse networking = .ok shown ∧
          networkingSummary networking = .ok enforced ∧
          (NetworkingAgrees shown enforced ↔ Dict.get networking "type" ≠ .null) := by
    intro networkingType hnamed htype
    refine ⟨_, _, networkingToResponse_limited htype hnamed hhosts,
      networkingSummary_limited htype hnamed hhosts, ?_⟩
    refine iff_of_true ⟨rfl, ?_, fun _ => ⟨rfl, rfl, rfl⟩⟩ (by simp [htype])
    simp [policyFields, Dict.get]
  have htype := haccepted.type
  simp only [List.mem_cons, List.not_mem_nil, or_false] at htype
  rcases htype with htype | htype | htype | htype | htype
  · exact hopen (by simp [htype])
  · exact hlimited "restricted" (by simp) htype
  · exact hlimited "limited" (by simp) htype
  · exact hlimited "none" (by simp) htype
  · exact hopen (by simp [htype])

/-! ## The two answers -/

theorem environmentConfigToResponse_networking
    {shown : Dict} (hconfig : AcceptedConfig config)
    (hcloud : configType config = .str "cloud")
    (hnetworking : networkingOrOpen config = .dict networking)
    (hshown : networkingToResponse networking = .ok shown) :
    ∃ response, environmentConfigToResponse config = .ok response ∧
      Dict.get response "networking" = .dict shown := by
  have htype : configType (Dict.pop config "_scope") = .str "cloud" := by
    rw [← hcloud]
    simp [configType, getDefault]
  have hsource : networkingOrOpen
      (Dict.set (Dict.pop config "_scope") "type" (.str "cloud")) = .dict networking := by
    rw [← hnetworking]
    simp [networkingOrOpen]
  obtain ⟨packages, lists, hpackages, hlists⟩ := packageLists_eq_ok hconfig.packages
  have hgiven : toDict (Dict.get (Dict.set (Dict.set (Dict.pop config "_scope") "type"
      (.str "cloud")) "networking" (.dict shown)) "packages") = .ok packages := by
    rw [← hpackages]
    simp
  unfold environmentConfigToResponse
  dsimp only
  rw [htype, hsource]
  simp only [ne_eq, not_true_eq_false, if_false, asDict]
  change ∃ response, (networkingToResponse networking >>= _) = .ok response ∧ _
  rw [hshown]
  change ∃ response, (toDict _ >>= _) = .ok response ∧ _
  rw [hgiven]
  change ∃ response, (packageLists packages >>= _) = .ok response ∧ _
  rw [hlists]
  exact ⟨_, rfl, by simp⟩

theorem environmentPolicySummary_networking
    {enforced : Dict} (hconfig : AcceptedConfig config)
    (hnetworking : toDict (networkingOrOpen config) = .ok networking)
    (henforced : networkingSummary networking = .ok enforced) :
    ∃ summary, environmentPolicySummary config = .ok summary ∧
      Dict.get summary "networking" = .dict enforced := by
  obtain ⟨packages, lists, hpackages, hlists⟩ := packageLists_eq_ok hconfig.packages
  have hresources :
      ∃ resources, toDict (Dict.get config "resources") = .ok resources := by
    rcases hconfig.resources with hnull | ⟨resources, hresources⟩
    · exact ⟨[], by rw [hnull]; rfl⟩
    · refine ⟨resources, ?_⟩
      rw [hresources]
      cases resources <;> rfl
  obtain ⟨resources, hresources⟩ := hresources
  unfold environmentPolicySummary
  rw [hnetworking]
  change ∃ summary, (networkingSummary networking >>= _) = .ok summary ∧ _
  rw [henforced]
  change ∃ summary, (toDict _ >>= _) = .ok summary ∧ _
  rw [hpackages]
  change ∃ summary, (packageLists packages >>= _) = .ok summary ∧ _
  rw [hlists]
  change ∃ summary, (toDict _ >>= _) = .ok summary ∧ _
  rw [hresources]
  exact ⟨_, rfl, rfl⟩

end

/-- The policy that a client sees is the one of the runs, unless the networking
object has fields but no type. -/
theorem policiesAgree_iff
    {config : Dict} (hvalid : validateEnvironmentConfig config = .ok ())
    (hcloud : configType config = .str "cloud") :
    PoliciesAgree config ↔
      ((Dict.get config "networking").truthy = true →
        (Dict.get config "networking").get "type" ≠ .null) := by
  have hconfig := validateEnvironmentConfig_spec hvalid
  obtain ⟨networking, hsource, hdict, haccepted⟩ := networkingOrOpen_eq hconfig
  obtain ⟨shown, enforced, hshown, henforced, hagrees⟩ := networkingAgrees_iff haccepted
  obtain ⟨response, hresponse, hinResponse⟩ :=
    environmentConfigToResponse_networking hconfig hcloud hsource hshown
  obtain ⟨summary, hsummary, hinSummary⟩ :=
    environmentPolicySummary_networking hconfig hdict henforced
  have hagree : PoliciesAgree config ↔ NetworkingAgrees shown enforced := by
    constructor
    · rintro ⟨response', summary', shown', enforced', hr, hs, hshown', henforced', hsame⟩
      rw [hresponse] at hr
      rw [hsummary] at hs
      obtain rfl := Except.ok.inj hr
      obtain rfl := Except.ok.inj hs
      rw [hinResponse] at hshown'
      rw [hinSummary] at henforced'
      obtain rfl := Json.dict.inj hshown'
      obtain rfl := Json.dict.inj henforced'
      exact hsame
    · exact fun hsame => ⟨response, summary, shown, enforced, hresponse, hsummary,
        hinResponse, hinSummary, hsame⟩
  have htype : Dict.get networking "type" = (networkingOrOpen config).get "type" := by
    rw [hsource]
    rfl
  rw [hagree, hagrees, htype, networkingOrOpen, Json.or]
  split
  next htruthy => simp [htruthy]
  next hfalsy => simp [hfalsy, Json.get, Dict.get]

theorem sample_policiesAgree_iff :
    PoliciesAgree [("type", .str "cloud"),
      ("networking", .dict [("type", .str "none"), ("allowed_hosts", .null)])] :=
  (policiesAgree_iff (by decide) (by decide)).mpr (by decide)

/-- A networking object without a type is shown as it is, and enforced as open. -/
theorem untyped_networking_disagrees :
    validateEnvironmentConfig
        [("networking", .dict [("allowed_hosts", .list [.str "example.com"])])] =
        .ok () ∧
      ¬ PoliciesAgree
        [("networking", .dict [("allowed_hosts", .list [.str "example.com"])])] := by
  refine ⟨by decide, ?_⟩
  rintro ⟨response, summary, shown, enforced, hresponse, hsummary, hshown, henforced,
    hsame, -⟩
  obtain rfl := Except.ok.inj hresponse
  obtain rfl := Except.ok.inj hsummary
  obtain rfl := Json.dict.inj hshown
  obtain rfl := Json.dict.inj henforced
  revert hsame
  decide

end ManagedAgents
