import ManagedAgents.DictAgreement
import ManagedAgents.EnvironmentNames

/-!
# Scopes of environments

A scope that is shown was given in the scope field of a request for a self-hosted
environment, unless a client has put it into the configuration itself.
-/

namespace ManagedAgents

open Fallible LabelledRuns

/-! ## Scopes that were given -/

def EnvironmentRequest.scope : EnvironmentRequest → Option EnvironmentScope
  | .create body => body.scope
  | .update _ body => body.scope
  | .archive _ | .delete _ => none

/-- Which scopes accepted requests have given to which environments. -/
def recordScopes (rows : List ManagedEnvironment) (call : EnvironmentCall)
    (_ : List ManagedEnvironment) (given : List (String × EnvironmentScope)) :
    List (String × EnvironmentScope) :=
  match call.answer rows, call.request.scope with
  | .accepted row, some scope => (row.id, scope) :: given
  | _, _ => given

abbrev ScopedEnvironments := List ManagedEnvironment × List (String × EnvironmentScope)

def scopedStep : ScopedEnvironments → EnvironmentCall → Option ScopedEnvironments :=
  recording environmentStep recordScopes

/-- A shown scope belongs to a self-hosted environment and was given to it. -/
def ScopeGiven (given : List (String × EnvironmentScope)) (id : String) (config : Dict) :
    Prop :=
  ∀ scope, environmentScope config = .ok (some scope) →
    configType config = .str "self_hosted" ∧ (id, scope) ∈ given

def ScopesGiven (state : ScopedEnvironments) : Prop :=
  ∀ row ∈ state.1, ScopeGiven state.2 row.id row.config

def Unscoped (config : Dict) : Prop :=
  ∀ scope, environmentScope config ≠ .ok (some scope)

/-- A configuration that is stored without a scope of the request, or of the row before,
carries none of its own. -/
def EnvironmentCall.BringsNoScope (rows : List ManagedEnvironment)
    (call : EnvironmentCall) : Prop :=
  call.request.scope = none →
    match call.request with
    | .create body => ∀ config, body.config = some config → Unscoped config
    | .update environmentId body => ∀ config, body.config = some config →
        ∀ held, mustGetEnvironment rows call.workspaceId environmentId = .ok held →
          environmentScope held.config = .ok none → Unscoped config
    | .archive _ | .delete _ => True

/-- The row of the request is written. -/
def EnvironmentAnswer.Stores : EnvironmentAnswer → Prop
  | .accepted _ | .unrendered _ => True
  | .refused _ | .integrityError => False

def EnvironmentCall.SmugglesNothing (rows : List ManagedEnvironment)
    (call : EnvironmentCall) : Prop :=
  (call.answer rows).Stores → call.BringsNoScope rows

/-! ## Configurations -/

section

variable {config stored : Dict} {scope : Option EnvironmentScope}
  {given : List (String × EnvironmentScope)} {id : String}

theorem unscoped_configOrCloud
    (hconfig : Unscoped config) :
    Unscoped (configOrCloud config) := by
  unfold configOrCloud
  split
  · intro scope hscope
    cases hscope
  · exact hconfig

theorem scopeGiven_of_unscoped (hconfig : Unscoped config) : ScopeGiven given id config :=
  fun scope hscope => absurd hscope (hconfig scope)

/-- The scope that is stored with a configuration is the one which is shown. -/
theorem environmentConfigWithScope_scoped
    {scope : EnvironmentScope}
    (hstored : environmentConfigWithScope config (some scope) = .ok stored) :
    configType stored = .str "self_hosted" ∧
      environmentScope stored = .ok (some scope) := by
  unfold environmentConfigWithScope at hstored
  dsimp only at hstored
  split at hstored
  · cases hstored
  next htype =>
    cases hstored
    have htype := not_not.mp htype
    constructor
    · unfold configType getDefault at htype ⊢
      have hne : "_scope" ≠ "type" := by decide
      rw [Dict.contains_set_of_ne _ hne, Dict.get_set_other _ hne]
      exact htype
    · unfold environmentScope
      rw [Dict.get_set_same]
      cases scope <;> rfl

theorem scopeGiven_of_scoped
    {scope : EnvironmentScope}
    (hstored : environmentConfigWithScope config (some scope) = .ok stored)
    (hgiven : (id, scope) ∈ given) : ScopeGiven given id stored := by
  obtain ⟨htype, hscope⟩ := environmentConfigWithScope_scoped hstored
  intro shown hshown
  rw [hscope] at hshown
  cases hshown
  exact ⟨htype, hgiven⟩

theorem scopeGiven_of_unscoped_config
    (hstored : environmentConfigWithScope config none = .ok stored)
    (hconfig : Unscoped config) : ScopeGiven given id stored := by
  cases hstored
  exact scopeGiven_of_unscoped (unscoped_configOrCloud hconfig)

theorem ScopeGiven.mono
    {more : List (String × EnvironmentScope)} (hconfig : ScopeGiven given id config)
    (hmore : given ⊆ more) : ScopeGiven more id config := by
  intro scope hscope
  obtain ⟨htype, hmem⟩ := hconfig scope hscope
  exact ⟨htype, hmore hmem⟩

end

/-! ## Steps -/

section

variable {rows : List ManagedEnvironment} {call : EnvironmentCall}
  {row : ManagedEnvironment} {given : List (String × EnvironmentScope)}

/-- What the request has given once it is accepted. -/
def givenBy (call : EnvironmentCall) (row : ManagedEnvironment)
    (given : List (String × EnvironmentScope)) : List (String × EnvironmentScope) :=
  match call.request.scope with
  | some scope => (row.id, scope) :: given
  | none => given

theorem subset_givenBy : given ⊆ givenBy call row given := by
  unfold givenBy
  cases call.request.scope with
  | some scope => exact List.subset_cons_self _ _
  | none => exact List.Subset.refl _

theorem mem_givenBy
    {scope : EnvironmentScope} (hscope : call.request.scope = some scope) :
    (row.id, scope) ∈ givenBy call row given := by
  unfold givenBy
  rw [hscope]
  exact List.mem_cons_self

/-- The new configuration of an update. -/
theorem updatedConfig_scopeGiven
    {held : ManagedEnvironment} {body : EnvironmentUpdateRequest} {config : Dict}
    {more : List (String × EnvironmentScope)}
    (hheld : ScopeGiven more held.id held.config)
    (hpassed : ∀ scope, body.scope = some scope → (held.id, scope) ∈ more)
    (hsmuggles : body.scope = none → ∀ given, body.config = some given →
      environmentScope held.config = .ok none → Unscoped given)
    (hconfig : updatedConfig held.config body = .ok (some config)) :
    ScopeGiven more held.id config := by
  unfold updatedConfig at hconfig
  cases hscope : body.scope with
  | some scope =>
      simp only [hscope] at hconfig
      obtain ⟨stored, hstored, hsame⟩ := map_eq_ok.mp hconfig
      cases hsame
      exact scopeGiven_of_scoped hstored (hpassed scope hscope)
  | none =>
      cases hgiven : body.config with
      | none => simp [hscope, hgiven] at hconfig
      | some given =>
          simp only [hscope, hgiven, bind_eq_ok] at hconfig
          obtain ⟨scope, hshown, hconfig⟩ := hconfig
          obtain ⟨stored, hstored, hsame⟩ := map_eq_ok.mp hconfig
          cases hsame
          cases scope with
          | none =>
              exact scopeGiven_of_unscoped_config hstored
                (hsmuggles hscope given hgiven hshown)
          | some scope => exact scopeGiven_of_scoped hstored (hheld scope hshown).2

theorem written_scopeGiven
    (hrows : ∀ other ∈ rows, ScopeGiven given other.id other.config)
    (hbrings : call.BringsNoScope rows) (hrow : call.written rows = .ok row) :
    ScopeGiven (givenBy call row given) row.id row.config := by
  have hkept : ∀ held ∈ rows, ∀ written : ManagedEnvironment,
      ScopeGiven (givenBy call written given) held.id held.config :=
    fun held hheld written => (hrows held hheld).mono subset_givenBy
  unfold EnvironmentCall.written at hrow
  unfold EnvironmentCall.BringsNoScope at hbrings
  cases hrequest : call.request with
  | create body =>
      simp only [hrequest, EnvironmentRequest.scope] at hrow hbrings
      unfold createdEnvironment at hrow
      simp only [bind_eq_ok, pure_eq_ok] at hrow
      obtain ⟨-, -, name, -, config, hconfig, metadata, -, rfl⟩ := hrow
      cases hscope : body.scope with
      | some scope =>
          rw [hscope] at hconfig
          refine scopeGiven_of_scoped hconfig (mem_givenBy ?_)
          rw [hrequest]
          exact hscope
      | none =>
          rw [hscope] at hconfig
          refine scopeGiven_of_unscoped_config hconfig ?_
          cases hgiven : body.config with
          | some given => exact hbrings hscope given hgiven
          | none =>
              intro scope hshown
              cases hshown
  | update environmentId body =>
      simp only [hrequest, EnvironmentRequest.scope] at hrow hbrings
      unfold updatedEnvironment at hrow
      simp only [bind_eq_ok, pure_eq_ok] at hrow
      obtain ⟨-, -, held, hheld, name, -, config, hconfig, metadata, -, rfl⟩ := hrow
      have hmem := (mustGetEnvironment_eq_ok hheld).1
      cases config with
      | none => exact hkept held hmem _
      | some config =>
          have hscoped : ∀ more : List (String × EnvironmentScope),
              (∀ scope, body.scope = some scope → (held.id, scope) ∈ more) →
                given ⊆ more → ScopeGiven more held.id config := by
            intro more hpassed hmore
            refine updatedConfig_scopeGiven
              ((hrows held hmem).mono hmore) hpassed ?_ hconfig
            intro hscope given hgiven
            exact hbrings hscope given hgiven held hheld
          refine hscoped _ (fun scope hscope => mem_givenBy ?_) subset_givenBy
          rw [hrequest]
          exact hscope
  | archive environmentId | delete environmentId =>
      simp only [hrequest, bind_eq_ok, pure_eq_ok] at hrow
      obtain ⟨held, hheld, rfl⟩ := hrow
      exact hkept held (mustGetEnvironment_eq_ok hheld).1 _

theorem mem_writeEnvironment
    {creates : Bool} {other : ManagedEnvironment}
    (hother : other ∈ writeEnvironment rows creates row) : other ∈ rows ∨
      other = row := by
  unfold writeEnvironment at hother
  split at hother
  · simpa using hother
  · obtain ⟨old, hold, rfl⟩ := List.mem_map.mp hother
    split
    · exact .inr rfl
    · exact .inl hold

/-- A scope in the scope field is shown. -/
theorem rendered_of_scope
    {scope : EnvironmentScope} (hscope : call.request.scope = some scope)
    (hrow : call.written rows = .ok row) : call.request.rendered row = true := by
  unfold EnvironmentCall.written at hrow
  cases hrequest : call.request with
  | create body =>
      simp only [hrequest, EnvironmentRequest.scope] at hrow hscope
      unfold createdEnvironment at hrow
      simp only [bind_eq_ok, pure_eq_ok, hscope] at hrow
      obtain ⟨-, -, name, -, config, hconfig, metadata, -, rfl⟩ := hrow
      simp [EnvironmentRequest.rendered, (environmentConfigWithScope_scoped hconfig).2]
  | update environmentId body =>
      simp only [hrequest, EnvironmentRequest.scope] at hrow hscope
      unfold updatedEnvironment at hrow
      simp only [bind_eq_ok, pure_eq_ok, updatedConfig, hscope] at hrow
      obtain ⟨-, -, held, -, name, -, config, hconfig, metadata, -, rfl⟩ := hrow
      obtain ⟨stored, hstored, rfl⟩ := map_eq_ok.mp hconfig
      simp [EnvironmentRequest.rendered, (environmentConfigWithScope_scoped hstored).2]
  | archive environmentId | delete environmentId =>
      rw [hrequest] at hscope
      cases hscope

theorem ScopesGiven.step
    {state next : ScopedEnvironments} (hstate : ScopesGiven state)
    (hsmuggles : call.SmugglesNothing state.1)
    (hstep : scopedStep state call = some next) :
    ScopesGiven next := by
  obtain ⟨rows, given⟩ := state
  obtain ⟨nextRows, nextGiven⟩ := next
  obtain ⟨hrows, hgiven⟩ := recording_eq_some.mp hstep
  obtain rfl := Option.some.inj hrows
  dsimp only at hgiven hstate hsmuggles
  subst hgiven
  intro other hother
  dsimp only at hother
  unfold EnvironmentCall.after at hother
  unfold recordScopes
  cases hwritten : call.written rows with
  | error error =>
      rw [answer_of_error hwritten] at hother ⊢
      exact hstate other hother
  | ok row =>
      rw [EnvironmentCall.SmugglesNothing, answer_of_written hwritten] at hsmuggles
      rw [answer_of_written hwritten] at hother ⊢
      cases hviolates : violates rows call.request.creates row with
      | true =>
          rw [hviolates] at hother
          exact hstate other hother
      | false =>
          have hwrite : other ∈ writeEnvironment rows call.request.creates row →
              ScopeGiven (givenBy call row given) other.id other.config := by
            intro hmem
            rcases mem_writeEnvironment hmem with hold | rfl
            · exact (hstate other hold).mono subset_givenBy
            · rw [hviolates] at hsmuggles
              refine written_scopeGiven hstate (hsmuggles ?_) hwritten
              cases call.request.rendered other <;> trivial
          rw [hviolates] at hother
          cases hrendered : call.request.rendered row with
          | true =>
              rw [hrendered] at hother
              have hkept := hwrite hother
              unfold givenBy at hkept
              cases hscope : call.request.scope <;>
                simp only [hscope] at hkept <;> exact hkept
          | false =>
              rw [hrendered] at hother
              have hkept := hwrite hother
              unfold givenBy at hkept
              cases hscope : call.request.scope with
              | none =>
                  simp only [hscope] at hkept
                  exact hkept
              | some scope =>
                  rw [rendered_of_scope hscope hwritten] at hrendered
                  cases hrendered

end

/-- In every run in which no configuration smuggles a scope, the scopes that are shown
belong to self-hosted environments and were given in the scope field. -/
theorem scopes_were_given
    {calls : List EnvironmentCall} {last : ScopedEnvironments}
    (hkept : AllSteps scopedStep (fun state call => call.SmugglesNothing state.1) ([], [])
      calls)
    (hrun : run scopedStep ([], []) calls = some last) : ScopesGiven last := by
  refine run_invariant_of_allSteps ?_ ?_ hkept hrun
  · intro state call next hstate hsmuggles hstep
    exact hstate.step hsmuggles hstep
  · intro row hrow
    cases hrow

/-! ## Sample runs -/

def sampleSelfHosted : EnvironmentCall :=
  sampleEnvironmentCall "1" (.create
    { name := "build"
      config := some [("type", .str "self_hosted")]
      scope := some .account })

def sampleSmuggling : EnvironmentCall :=
  sampleEnvironmentCall "1" (.create
    { name := "build"
      config := some [("type", .str "cloud"), ("_scope", .str "organization")] })

/-- The update gives a configuration alone, to an environment with a scope and to one
without. -/
def sampleReconfiguring (environmentId type : String) : EnvironmentCall :=
  sampleEnvironmentCall "" (.update environmentId
    { config := some [("type", .str type), ("packages", .dict [])] })

def sampleScoping : List EnvironmentCall :=
  [sampleSelfHosted, sampleReconfiguring "env_1" "self_hosted",
   sampleEnvironmentCall "2" (.create { name := "test" }),
   sampleReconfiguring "env_2" "cloud"]

theorem unscoped_of_none
    {config : Dict} (hconfig : environmentScope config = .ok none) : Unscoped config := by
  intro scope hscope
  rw [hconfig] at hscope
  cases hscope

theorem sample_scopes_were_given :
    ScopesGiven ((run scopedStep ([], []) sampleScoping).get (by decide)) := by
  refine @scopes_were_given sampleScoping _ ?_ (Option.some_get _).symm
  refine ⟨fun _ hscope => (by cases hscope),
    fun _ _ =>
      ⟨fun _ _ config hconfig _ _ _ => ?_,
      fun _ _ =>
        ⟨fun _ _ config hconfig => ?_, fun _ _ => ⟨fun _ _ config hconfig _ _ _ => ?_, fun _ _ => trivial⟩⟩⟩⟩
  all_goals
    obtain rfl := Option.some.inj hconfig
    exact unscoped_of_none rfl

theorem smuggled_scope_shown :
    ¬∀ last, run scopedStep ([], []) [sampleSmuggling] = some last →
      ScopesGiven last := by
  intro hgiven
  have hshown : ∃ row ∈ ((run scopedStep ([], []) [sampleSmuggling]).get
      (by decide)).1, environmentScope row.config = .ok (some .organization) ∧
        configType row.config = .str "cloud" := by
    decide
  obtain ⟨row, hrow, hscope, htype⟩ := hshown
  have hself := (hgiven _ (Option.some_get _).symm row hrow _ hscope).1
  rw [htype] at hself
  exact absurd (Json.str.inj hself) (by decide)

end ManagedAgents
