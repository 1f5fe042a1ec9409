import ManagedAgents.Environments
import ManagedAgents.ValidMetadata
import ManagedAgents.Library.LabelledRuns

/-!
# Names of environments

A request that names an environment succeeds when no row of the workspace has the
name, be it deleted or not; otherwise the database refuses it and nothing turns its
exception into a response.  Nor does anything catch the exception of looking up a list
or an object in a set.
-/

namespace ManagedAgents

open Fallible LabelledRuns

/-- The request gives its environment a name. -/
def EnvironmentRequest.names : EnvironmentRequest → Bool
  | .create _ => true
  | .update _ body => body.name.isSome
  | .archive _ | .delete _ => false

def EnvironmentAnswer.Accepted : EnvironmentAnswer → Prop
  | .accepted _ => True
  | .refused _ | .integrityError | .unrendered _ => False

/-- No other environment of the workspace which is not deleted has the name. -/
def NameAvailable (rows : List ManagedEnvironment) (creates : Bool)
    (row : ManagedEnvironment) : Prop :=
  ∀ other ∈ rows, (creates = true ∨ other.id ≠ row.id) → sameName row other = true →
    other.deletedAt ≠ none

/-- The error is not the answer to an exception which nothing catches. -/
def Handled (error : HTTPException) : Prop := error.statusCode ≠ 500

@[simp] theorem handled_mk (statusCode : ℕ) (detail : String) :
    Handled ⟨statusCode, detail⟩ ↔ statusCode ≠ 500 :=
  Iff.rfl

/-- A request that names an environment succeeds if and only if the name is available,
and one that does not succeed gets an error response and changes nothing. -/
structure NameLaw (rows : List ManagedEnvironment) (call : EnvironmentCall) : Prop where
  available : ∀ row, call.written rows = .ok row → call.request.names = true →
    ((call.answer rows).Accepted ↔ NameAvailable rows call.request.creates row)
  refused : ¬(call.answer rows).Accepted →
    (∃ error, call.answer rows = .refused error ∧ Handled error) ∧ call.after rows = rows

/-- Looking it up in a set raises `TypeError`. -/
def Unhashable : Json → Prop
  | .list _ | .dict _ => True
  | _ => False

/-- A check of the configuration comes to look up a list or an object. -/
def LooksUpUnhashable (config : Dict) : Prop :=
  Unhashable (configType config) ∨
    configType config ∈ [.str "cloud", .str "self_hosted", .str "local"] ∧
      (Unhashable ((Dict.get config "networking").get "type") ∨
        validateNetworking (Dict.get config "networking") = .ok () ∧
          validatePackages (Dict.get config "packages") = .ok () ∧
            validateResources (Dict.get config "resources") = .ok () ∧
              Unhashable ((Dict.get config "sandbox").get "backend"))

def EnvironmentRequest.config : EnvironmentRequest → Option Dict
  | .create body => body.config
  | .update _ body => body.config
  | .archive _ | .delete _ => none

/-- No other row of the workspace has the name, a new identifier is new, and the given
configuration can be checked and the scope shown. -/
structure NameFree (rows : List ManagedEnvironment) (call : EnvironmentCall) : Prop where
  fresh : ∀ row, call.written rows = .ok row → call.request.names = true →
    violates rows call.request.creates row = false
  rendered : ∀ row, call.written rows = .ok row → call.request.rendered row = true
  hashable : ∀ config ∈ call.request.config, ¬LooksUpUnhashable config

/-- No two environments of a workspace have the same name or identifier. -/
structure NamedRows (rows : List ManagedEnvironment) : Prop where
  ids : (rows.map ManagedEnvironment.id).Nodup
  names : rows.Pairwise fun row other => sameName row other = false

/-- The scopes of all rows can be shown. -/
def ShownScopes (rows : List ManagedEnvironment) : Prop :=
  ∀ row ∈ rows, ¬Unhashable (Dict.get row.config "_scope")

/-! ## Exceptions -/

section

variable {value : Json} {config : Dict}

theorem handled_requireMember
    {allowed : List Json} {message : String} :
    OnlyRaises Handled (requireMember value allowed message) ↔ ¬Unhashable value := by
  cases value <;> simp [requireMember, Unhashable, internalServerError]

theorem requireMember_eq_ok
    {allowed : List Json} {message : String} {result : Unit}
    (hallowed : ∀ item ∈ allowed, ¬Unhashable item) :
    requireMember value allowed message = .ok result ↔ value ∈ allowed := by
  unfold requireMember
  split
  next items =>
    exact iff_of_false (by simp) fun hmem => hallowed _ hmem trivial
  next fields =>
    exact iff_of_false (by simp) fun hmem => hallowed _ hmem trivial
  next => simp [raiseIf_eq_ok]

theorem handled_unlessNull
    {check : Json → Except HTTPException Unit} :
    OnlyRaises Handled (unlessNull value check) ↔
      (value ≠ .null → OnlyRaises Handled (check value)) := by
  unfold unlessNull
  split <;> simp_all

theorem handled_validateObject
    {field : String} {check : Dict → Except HTTPException Unit} :
    OnlyRaises Handled (validateObject field check value) ↔
      ∀ fields, value = .dict fields → OnlyRaises Handled (check fields) := by
  cases value <;> simp [validateObject]

theorem handled_validateFields
    {check : String → Json → Except HTTPException Unit}
    (hcheck : ∀ field value, OnlyRaises Handled (check field value)) (fields : Dict)
    (keys : List String) (path : String) :
    OnlyRaises Handled (validateFields fields keys path check) := by
  unfold validateFields
  induction keys with
  | nil => exact onlyRaises_pure _ _
  | cons key rest ih =>
      rw [List.forM_eq_forM, List.forM_cons]
      exact (handled_unlessNull.mpr fun _ => hcheck _ _).bind fun _ => ih

theorem handled_validateStringList (field : String) (value : Json) :
    OnlyRaises Handled (validateStringList field value) := by
  cases value <;> simp [validateStringList]

theorem handled_validateBoolean (field : String) (value : Json) :
    OnlyRaises Handled (validateBoolean field value) := by
  cases value <;> simp [validateBoolean]

theorem handled_validatePositiveNumber (field : String) (value : Json) :
    OnlyRaises Handled (validatePositiveNumber field value) := by
  simp [validatePositiveNumber]

theorem handled_validateNetworking :
    OnlyRaises Handled (validateNetworking value) ↔ ¬Unhashable (value.get "type") := by
  have hrest : ∀ fields : Dict,
      OnlyRaises Handled (do
        unlessNull (Dict.get fields "allowed_hosts")
          (validateStringList "environment config.networking.allowed_hosts")
        validateFields fields ["allow_mcp_servers", "allow_package_managers"]
          "environment config.networking" validateBoolean) := by
    intro fields
    refine (handled_unlessNull.mpr fun _ => handled_validateStringList _ _).bind ?_
    exact fun _ => handled_validateFields handled_validateBoolean _ _ _
  unfold validateNetworking
  rw [handled_unlessNull, handled_validateObject]
  cases value with
  | dict fields =>
      simp only [ne_eq, reduceCtorEq, not_false_eq_true, Json.dict.injEq, forall_eq',
        forall_const, Json.get]
      rw [onlyRaises_bind, handled_requireMember]
      exact and_iff_left fun _ _ => hrest fields
  | null | bool | int | float | str | list => simp [Json.get, Unhashable]

theorem handled_validatePackages (value : Json) :
    OnlyRaises Handled (validatePackages value) :=
  handled_unlessNull.mpr fun _ => handled_validateObject.mpr fun fields _ =>
    handled_validateFields handled_validateStringList fields _ _

theorem handled_validateLimitObject
    (field : String) (keys : List String) (value : Json) :
    OnlyRaises Handled (validateLimitObject field keys value) :=
  handled_unlessNull.mpr fun _ => handled_validateObject.mpr fun fields _ =>
    handled_validateFields handled_validatePositiveNumber fields _ _

theorem handled_validateResources (value : Json) :
    OnlyRaises Handled (validateResources value) :=
  handled_validateLimitObject _ _ value

theorem handled_validateSandbox :
    OnlyRaises Handled (validateSandbox value) ↔ ¬Unhashable (value.get "backend") := by
  have hlimits : ∀ fields : Dict,
      OnlyRaises Handled (do
        validateLimitObject "environment config.sandbox.concurrency_limits"
          ["manifest_entries", "local_dir_files"] (Dict.get fields "concurrency_limits")
        validateLimitObject "environment config.sandbox.archive_limits"
          ["max_input_bytes", "max_extracted_bytes", "max_members"]
          (Dict.get fields "archive_limits")) := by
    intro fields
    exact (handled_validateLimitObject _ _ _).bind fun _ =>
      handled_validateLimitObject _ _ _
  unfold validateSandbox
  rw [handled_unlessNull, handled_validateObject]
  cases value with
  | dict fields =>
      simp only [ne_eq, reduceCtorEq, not_false_eq_true, Json.dict.injEq, forall_eq',
        forall_const, Json.get]
      rw [onlyRaises_bind, handled_requireMember]
      refine and_iff_left fun _ _ => ?_
      split
      · exact hlimits fields
      · exact hlimits fields
      · exact OnlyRaises.bind (onlyRaises_throw.mpr (by simp)) fun _ => hlimits fields
  | null | bool | int | float | str | list => simp [Json.get, Unhashable]

theorem handled_validateEnvironmentConfig :
    OnlyRaises Handled (validateEnvironmentConfig config) ↔
      ¬LooksUpUnhashable config := by
  have htypes : ∀ item ∈ [Json.str "cloud", .str "self_hosted", .str "local"],
      ¬Unhashable item := by
    simp [Unhashable]
  unfold validateEnvironmentConfig LooksUpUnhashable
  simp only [onlyRaises_bind, handled_requireMember, requireMember_eq_ok htypes,
    handled_validateNetworking, handled_validatePackages, handled_validateResources,
    handled_validateSandbox, forall_const, true_and]
  tauto

theorem handled_environmentScope :
    OnlyRaises Handled (environmentScope config) ↔
      ¬Unhashable (Dict.get config "_scope") := by
  unfold environmentScope
  cases Dict.get config "_scope" <;> simp [Unhashable, internalServerError]

theorem shown_of_rendered
    {request : EnvironmentRequest} {row : ManagedEnvironment}
    (hrequest : ∀ environmentId, request ≠ .delete environmentId)
    (hrendered : request.rendered row = true) :
    ¬Unhashable (Dict.get row.config "_scope") := by
  rw [← handled_environmentScope]
  intro error herror
  cases request with
  | delete environmentId => exact absurd rfl (hrequest environmentId)
  | create | update | archive => simp [EnvironmentRequest.rendered, herror] at hrendered

theorem handled_environmentName (name : String) :
    OnlyRaises Handled (normalizeEnvironmentName name) := by
  simp [normalizeEnvironmentName]

theorem handled_configWithScope (config : Dict) (scope : Option EnvironmentScope) :
    OnlyRaises Handled (environmentConfigWithScope config scope) := by
  cases scope <;> simp [environmentConfigWithScope]

theorem handled_updatedConfig
    (body : EnvironmentUpdateRequest)
    (hshown : ¬Unhashable (Dict.get config "_scope")) :
    OnlyRaises Handled (updatedConfig config body) := by
  unfold updatedConfig
  split
  · exact onlyRaises_map.mpr (handled_configWithScope _ _)
  · exact (handled_environmentScope.mpr hshown).bind fun _ =>
      onlyRaises_map.mpr (handled_configWithScope _ _)
  · exact onlyRaises_ok _ _

theorem handled_checkedConfig
    {config : Option Dict} :
    OnlyRaises Handled ((config.map validateEnvironmentConfig).getD (.ok ())) ↔
      ∀ given ∈ config, ¬LooksUpUnhashable given := by
  cases config <;> simp [handled_validateEnvironmentConfig]

theorem OnlyRaises.mapOption
    {Value Result : Type} {kind : HTTPException → Prop}
    {computation : Value → Except HTTPException Result}
    (hcomputation : ∀ value, OnlyRaises kind (computation value)) (value : Option Value) :
    OnlyRaises kind (value.mapM computation) := by
  cases value with
  | none => exact onlyRaises_pure _ _
  | some value => exact onlyRaises_map.mpr (hcomputation value)

end

section

variable {rows : List ManagedEnvironment} {call : EnvironmentCall}
  {row : ManagedEnvironment}

theorem sameName_comm (row other : ManagedEnvironment) :
    sameName row other = sameName other row := by
  unfold sameName
  simp only [eq_comm]

theorem mustGetEnvironment_eq_ok
    {workspaceId environmentId : String}
    (hrow : mustGetEnvironment rows workspaceId environmentId = .ok row) :
    row ∈ rows ∧ row.id = environmentId ∧ row.workspaceId = workspaceId ∧
      row.deletedAt = none := by
  unfold mustGetEnvironment at hrow
  split at hrow
  · cases hrow
  next found hfound =>
    split at hrow
    · cases hrow
    next hlive =>
      cases hrow
      have hsame := List.find?_some hfound
      simp only [decide_eq_true_eq] at hsame
      exact ⟨List.mem_of_find?_eq_some hfound, hsame.1, hsame.2, not_not.mp hlive⟩

/-- The row which an update writes over the one that it has found. -/
theorem written_held
    (hcreates : call.request.creates = false) (hrow : call.written rows = .ok row) :
    ∃ held ∈ rows, held.id = row.id ∧ held.workspaceId = row.workspaceId ∧
      (call.request.names = false → held.name = row.name) := by
  unfold EnvironmentCall.written at hrow
  cases hrequest : call.request with
  | create body =>
      rw [hrequest] at hcreates
      cases hcreates
  | update environmentId body =>
      simp only [hrequest] at hrow
      unfold updatedEnvironment at hrow
      simp only [bind_eq_ok, pure_eq_ok] at hrow
      obtain ⟨-, -, held, hheld, name, hname, config, -, metadata, -, rfl⟩ := hrow
      refine ⟨held, (mustGetEnvironment_eq_ok hheld).1, rfl, rfl, fun hnames => ?_⟩
      cases hgiven : body.name with
      | none =>
          rw [hgiven] at hname
          cases hname
          rfl
      | some given => simp [EnvironmentRequest.names, hgiven] at hnames
  | archive environmentId | delete environmentId =>
      simp only [hrequest, bind_eq_ok, pure_eq_ok] at hrow
      obtain ⟨held, hheld, rfl⟩ := hrow
      exact ⟨held, (mustGetEnvironment_eq_ok hheld).1, rfl, rfl, fun _ => rfl⟩

/-- A row that keeps its name violates nothing. -/
theorem violates_unnamed
    (hrows : NamedRows rows) (hnames : call.request.names = false)
    (hrow : call.written rows = .ok row) :
    violates rows call.request.creates row = false := by
  have hcreates : call.request.creates = false := by
    cases hrequest : call.request <;>
      simp [hrequest, EnvironmentRequest.names, EnvironmentRequest.creates] at hnames ⊢
  obtain ⟨held, hheld, hid, hworkspace, hname⟩ := written_held hcreates hrow
  unfold violates
  rw [hcreates, if_neg Bool.false_ne_true, List.any_eq_false]
  intro other hother hclash
  simp only [decide_eq_true_eq] at hclash
  have hne : held ≠ other := by
    rintro rfl
    exact hclash.1 hid
  have hsymmetric : Std.Symm fun row other => sameName row other = false :=
    ⟨fun first second hsame => by rwa [sameName_comm]⟩
  have hdifferent : sameName held other = false := hrows.names.forall hheld hother hne
  have hsame : sameName held other = sameName row other := by
    unfold sameName
    rw [hworkspace, hname hnames]
  rw [hsame, hclash.2] at hdifferent
  cases hdifferent

theorem handled_mustGetEnvironment (workspaceId environmentId : String) :
    OnlyRaises Handled (mustGetEnvironment rows workspaceId environmentId) := by
  unfold mustGetEnvironment
  split <;> simp

/-- A request is refused with an error response unless a check of its configuration
breaks. -/
theorem handled_written
    (hshown : ShownScopes rows) :
    OnlyRaises Handled (call.written rows) ↔
      ∀ config ∈ call.request.config, ¬LooksUpUnhashable config := by
  unfold EnvironmentCall.written
  cases call.request with
  | create body =>
      dsimp only [createdEnvironment, EnvironmentRequest.config]
      rw [onlyRaises_bind, handled_checkedConfig]
      refine and_iff_left fun _ _ => (handled_environmentName _).bind fun _ => ?_
      refine (handled_configWithScope _ _).bind fun _ => ?_
      exact (onlyRaises_normalizeMetadata (fun _ => by simp) _).bind fun _ =>
        onlyRaises_pure _ _
  | update environmentId body =>
      dsimp only [updatedEnvironment, EnvironmentRequest.config]
      rw [onlyRaises_bind, handled_checkedConfig]
      refine and_iff_left fun _ _ => onlyRaises_bind.mpr
        ⟨handled_mustGetEnvironment _ _, fun held hheld => ?_⟩
      have hscope := hshown held (mustGetEnvironment_eq_ok hheld).1
      refine (OnlyRaises.mapOption handled_environmentName _).bind fun _ => ?_
      refine (handled_updatedConfig body hscope).bind fun _ => ?_
      refine OnlyRaises.bind ?_ fun _ => onlyRaises_pure _ _
      exact OnlyRaises.mapOption
        (fun _ => onlyRaises_mergeMetadata (fun _ => by simp) _ _) _
  | archive environmentId | delete environmentId =>
      refine iff_of_true ?_ (by simp [EnvironmentRequest.config])
      exact (handled_mustGetEnvironment _ _).bind fun _ => onlyRaises_pure _ _

/-! ## Steps -/

theorem answer_of_written
    (hrow : call.written rows = .ok row) :
    call.answer rows =
      if violates rows call.request.creates row then .integrityError
      else if call.request.rendered row then .accepted row
      else .unrendered row := by
  unfold EnvironmentCall.answer
  rw [hrow]

theorem answer_of_error
    {error : HTTPException} (herror : call.written rows = .error error) :
    call.answer rows = .refused error := by
  unfold EnvironmentCall.answer
  rw [herror]

theorem accepted_iff
    (hrow : call.written rows = .ok row) :
    (call.answer rows).Accepted ↔
      violates rows call.request.creates row = false ∧
        call.request.rendered row = true := by
  rw [answer_of_written hrow]
  cases violates rows call.request.creates row <;>
    cases call.request.rendered row <;> simp [EnvironmentAnswer.Accepted]

theorem nameAvailable_of_not_violates
    (hfree : violates rows call.request.creates row = false) :
    NameAvailable rows call.request.creates row := by
  intro other hother hother' hsame
  unfold violates at hfree
  split at hfree
  next hcreates =>
    have hnone := List.any_eq_false.mp hfree other hother
    simp [hsame] at hnone
  next hcreates =>
    have hnone := List.any_eq_false.mp hfree other hother
    have hid := hother'.resolve_left hcreates
    simp [hsame, hid] at hnone

theorem nameLaw_iff_nameFree
    (hrows : NamedRows rows) (hshown : ShownScopes rows) :
    NameLaw rows call ↔ NameFree rows call := by
  constructor
  · intro hlaw
    have haccepted : ∀ row, call.written rows = .ok row →
      (call.answer rows).Accepted := by
      intro row hrow
      by_contra hnot
      obtain ⟨⟨error, herror, -⟩, -⟩ := hlaw.refused hnot
      rw [answer_of_written hrow] at herror
      split at herror
      · cases herror
      · split at herror <;> cases herror
    refine ⟨fun row hrow _ => ((accepted_iff hrow).mp (haccepted row hrow)).1,
      fun row hrow => ((accepted_iff hrow).mp (haccepted row hrow)).2,
      (handled_written hshown).mp fun error herror => ?_⟩
    have hanswer := answer_of_error herror
    have hnot : ¬(call.answer rows).Accepted := by
      rw [hanswer]
      exact id
    obtain ⟨⟨refused, hrefused, hhandled⟩, -⟩ := hlaw.refused hnot
    rw [hanswer, EnvironmentAnswer.refused.injEq] at hrefused
    rwa [hrefused]
  · intro hfree
    have hviolates : ∀ row, call.written rows = .ok row →
        violates rows call.request.creates row = false := by
      intro row hrow
      cases hnames : call.request.names with
      | true => exact hfree.fresh row hrow hnames
      | false => exact violates_unnamed hrows hnames hrow
    constructor
    · intro row hrow _
      refine iff_of_true ?_ (nameAvailable_of_not_violates (hviolates row hrow))
      exact (accepted_iff hrow).mpr ⟨hviolates row hrow, hfree.rendered row hrow⟩
    · intro hnot
      cases hwritten : call.written rows with
      | ok row =>
          exact absurd ((accepted_iff hwritten).mpr
            ⟨hviolates row hwritten, hfree.rendered row hwritten⟩) hnot
      | error error =>
          have hanswer := answer_of_error hwritten
          have hhandled := (handled_written hshown).mpr hfree.hashable error hwritten
          refine ⟨⟨error, hanswer, hhandled⟩, ?_⟩
          unfold EnvironmentCall.after
          rw [hanswer]

/-! ## Runs -/

theorem NamedRows.append
    (hrows : NamedRows rows) (hfree : violates rows true row = false) :
    NamedRows (rows ++ [row]) := by
  have hdiffers : ∀ other ∈ rows, other.id ≠ row.id ∧ sameName row other = false := by
    intro other hother
    have hnone := List.any_eq_false.mp hfree other hother
    simpa using hnone
  constructor
  · rw [List.map_append, List.nodup_append]
    refine ⟨hrows.ids, List.nodup_singleton _, ?_⟩
    intro first hfirst second hsecond
    obtain ⟨other, hother, rfl⟩ := List.mem_map.mp hfirst
    obtain rfl : second = row.id := by simpa using hsecond
    exact (hdiffers other hother).1
  · rw [List.pairwise_append]
    refine ⟨hrows.names, List.pairwise_singleton _ _, ?_⟩
    intro other hother last hlast
    obtain rfl := List.mem_singleton.mp hlast
    rw [sameName_comm]
    exact (hdiffers other hother).2

theorem NamedRows.replace
    (hrows : NamedRows rows) (hfree : violates rows false row = false) :
    NamedRows (rows.map fun other => if other.id = row.id then row else other) := by
  have hdiffers : ∀ other ∈ rows, other.id ≠ row.id → sameName row other = false := by
    intro other hother hid
    have hnone := List.any_eq_false.mp hfree other hother
    simpa [hid] using hnone
  constructor
  · rw [List.map_map]
    have hsame : rows.map (ManagedEnvironment.id ∘
        fun other => if other.id = row.id then row else other) =
          rows.map ManagedEnvironment.id := by
      apply List.map_congr_left
      intro other _
      simp only [Function.comp_apply]
      split
      next hid => exact hid.symm
      next => rfl
    rw [hsame]
    exact hrows.ids
  · rw [List.pairwise_map]
    have hboth := hrows.names.and (List.pairwise_map.mp hrows.ids)
    refine hboth.imp_of_mem ?_
    rintro first second hfirst hsecond ⟨hnames, hids⟩
    split
    next hleft =>
      split
      next hright => exact absurd (hleft.trans hright.symm) hids
      next hright => exact hdiffers second hsecond hright
    next hleft =>
      split
      next hright =>
        rw [sameName_comm]
        exact hdiffers first hfirst hleft
      next hright => exact hnames

theorem NamedRows.after (hrows : NamedRows rows) : NamedRows (call.after rows) := by
  have hwrite : ∀ row, violates rows call.request.creates row = false →
      NamedRows (writeEnvironment rows call.request.creates row) := by
    intro row hfree
    unfold writeEnvironment
    cases hcreates : call.request.creates with
    | true =>
        rw [hcreates] at hfree
        exact hrows.append hfree
    | false =>
        rw [hcreates] at hfree
        exact hrows.replace hfree
  unfold EnvironmentCall.after
  cases hwritten : call.written rows with
  | error error =>
      rw [answer_of_error hwritten]
      exact hrows
  | ok row =>
      rw [answer_of_written hwritten]
      cases hfree : violates rows call.request.creates row with
      | true => exact hrows
      | false => cases call.request.rendered row <;> exact hwrite row hfree

theorem ShownScopes.after
    (hshown : ShownScopes rows) (hfree : NameFree rows call) :
    ShownScopes (call.after rows) := by
  have hwritten : ∀ row, call.written rows = .ok row →
      ¬Unhashable (Dict.get row.config "_scope") := by
    intro row hrow
    by_cases hdelete : ∃ environmentId, call.request = .delete environmentId
    · obtain ⟨environmentId, hrequest⟩ := hdelete
      simp only [EnvironmentCall.written, hrequest, bind_eq_ok, pure_eq_ok] at hrow
      obtain ⟨held, hheld, rfl⟩ := hrow
      exact hshown held (mustGetEnvironment_eq_ok hheld).1
    · exact shown_of_rendered (not_exists.mp hdelete) (hfree.rendered row hrow)
  have hwrite : ∀ row, call.written rows = .ok row →
      ShownScopes (writeEnvironment rows call.request.creates row) := by
    intro row hrow other hother
    unfold writeEnvironment at hother
    split at hother
    · rcases List.mem_append.mp hother with hother | hother
      · exact hshown other hother
      · obtain rfl := List.mem_singleton.mp hother
        exact hwritten other hrow
    · obtain ⟨before, hbefore, rfl⟩ := List.mem_map.mp hother
      split
      · exact hwritten row hrow
      · exact hshown before hbefore
  unfold EnvironmentCall.after
  cases hrow : call.written rows with
  | error error =>
      rw [answer_of_error hrow]
      exact hshown
  | ok row =>
      rw [answer_of_written hrow]
      cases violates rows call.request.creates row with
      | true => exact hshown
      | false => cases call.request.rendered row <;> exact hwrite row hrow

/-- In every run each request obeys the law of names exactly if no row of its workspace
has the name and nothing is looked up or shown that cannot be. -/
theorem environment_names_iff
    (calls : List EnvironmentCall) :
    AllSteps environmentStep NameLaw [] calls ↔
      AllSteps environmentStep NameFree [] calls := by
  refine @allSteps_iff_of_invariant _ _ environmentStep
    (fun rows => NamedRows rows ∧ ShownScopes rows) (fun _ _ => True) _ _ ?_ ?_ [] calls
    ⟨⟨List.nodup_nil, List.Pairwise.nil⟩, by simp [ShownScopes]⟩ (allSteps_true _ _)
  · rintro rows call ⟨hrows, hshown⟩ -
    exact nameLaw_iff_nameFree hrows hshown
  · rintro rows call next ⟨hrows, hshown⟩ hlaw hstep
    obtain rfl := Option.some.inj hstep
    exact ⟨hrows.after, hshown.after ((nameLaw_iff_nameFree hrows hshown).mp hlaw)⟩

end

/-! ## A sample run -/

def sampleEnvironmentCall (uuidHex : String) (request : EnvironmentRequest) :
    EnvironmentCall where
  workspaceId := "wrkspc_default"
  uuidHex := uuidHex
  now := 0
  request := request

/-- The name of a deleted environment is given again. -/
def sampleEnvironmentCalls : List EnvironmentCall :=
  [sampleEnvironmentCall "1" (.create { name := "build" }),
   sampleEnvironmentCall "" (.delete "env_1"),
   sampleEnvironmentCall "2" (.create { name := "build" })]

theorem deleted_name_not_available :
    ¬AllSteps environmentStep NameLaw [] sampleEnvironmentCalls := by
  rintro ⟨-, hrest⟩
  obtain ⟨-, hrest⟩ := hrest _ rfl
  obtain ⟨hlaw, -⟩ := hrest _ rfl
  have hanswer : (sampleEnvironmentCall "2" (.create { name := "build" })).answer
      ((sampleEnvironmentCall "" (.delete "env_1")).after
        ((sampleEnvironmentCall "1" (.create { name := "build" })).after [])) =
          .integrityError := by
    decide
  have hnot : ¬((sampleEnvironmentCall "2" (.create { name := "build" })).answer
      ((sampleEnvironmentCall "" (.delete "env_1")).after
        ((sampleEnvironmentCall "1" (.create { name := "build" })).after
          []))).Accepted := by
    rw [hanswer]
    exact id
  obtain ⟨⟨error, herror, -⟩, -⟩ := hlaw.refused hnot
  rw [hanswer] at herror
  cases herror

end ManagedAgents
