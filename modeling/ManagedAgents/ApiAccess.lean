import ManagedAgents.ApiKeys
import ManagedAgents.Storage

/-!
# Access to the API

`require_api_access` with both providers.  In every run of the key table a token is
admitted in one stretch of committed states only, always to one workspace.
-/

namespace ManagedAgents

open Fallible LabelledRuns ReadCommitted

/-! ## Headers -/

def CMA_MANAGED_AGENTS_BETA : String := "managed-agents-2026-04-01"

def OPEN_MANAGED_AGENTS_BETA : String := "open-managed-agents-2026-04-01"

def ANTHROPIC_SKILLS_BETA : String := "skills-2025-10-02"

def ANTHROPIC_USER_PROFILES_BETA : String := "user-profiles-2026-03-24"

def ACCEPTED_MANAGED_AGENTS_BETAS : List String :=
  [CMA_MANAGED_AGENTS_BETA, OPEN_MANAGED_AGENTS_BETA, ANTHROPIC_SKILLS_BETA,
   ANTHROPIC_USER_PROFILES_BETA]

def ANTHROPIC_API_VERSION : String := "2023-06-01"

structure RequestHeaders where
  xApiKey : Option String := none
  authorization : Option String := none
  anthropicBeta : Option String := none
  openManagedAgentsBeta : Option String := none
  anthropicVersion : Option String := none

def splitHeaderValues (value : Option String) : List String :=
  (((value.getD "").toList.splitOn ',').map (strip ∘ String.ofList)).filter (· ≠ "")

def bearerToken (value : Option String) : Option String :=
  match value with
  | none => none
  | some value =>
      if startswith value "Bearer " then some (String.ofList (value.toList.drop 7)) else none

/-- `credentials.x_api_key or _bearer_token(credentials.authorization)`. -/
def RequestHeaders.token (headers : RequestHeaders) : Option String :=
  match headers.xApiKey with
  | none => bearerToken headers.authorization
  | some token => if token = "" then bearerToken headers.authorization else some token

/-! ## Providers -/

def DEFAULT_WORKSPACE_ID : String := "wrkspc_default"

def DEFAULT_WORKSPACE_SLUG : String := "default"

structure CurrentWorkspace where
  id : String
  slug : String := DEFAULT_WORKSPACE_SLUG
  source : String := "default"
deriving DecidableEq

def defaultWorkspace : CurrentWorkspace where
  id := DEFAULT_WORKSPACE_ID

def workspaceIdOrDefault (current : Option CurrentWorkspace) (value : Option String) :
    String :=
  textOr (value.getD "")
    (match current with
    | some workspace => workspace.id
    | none => DEFAULT_WORKSPACE_ID)

structure AccessSettings where
  omaApiKey : String := ""
  omaApiKeys : List String := []
  omaApiKeyWorkspaces : List (String × String) := []
  omaDefaultWorkspaceId : String := "wrkspc_default"
  omaRequireBetaHeader : Bool := true
  omaRequireAnthropicVersionHeader : Bool := true

def configuredApiKeys (primary : String) (legacy : List String) : List String :=
  (strip primary :: legacy.map strip).filter (· ≠ "")

def invalidApiKey : HTTPException := ⟨401, "Invalid API key"⟩

/-- The workspace of a request and what its transaction writes. -/
structure Admission where
  workspace : CurrentWorkspace
  statements : List KeyStatement := []

/-- `EnvApiKeyAuthProvider.authenticate`. -/
def authenticateEnv (settings : AccessSettings) (headers : RequestHeaders) :
    Except HTTPException Admission :=
  let apiKeys := configuredApiKeys settings.omaApiKey settings.omaApiKeys
  if apiKeys = [] then .ok { workspace := defaultWorkspace }
  else
    match headers.token with
    | none => .error invalidApiKey
    | some token =>
        if token ∉ apiKeys then .error invalidApiKey
        else
          let workspaceId :=
            textOr ((settings.omaApiKeyWorkspaces.lookup token).getD "")
              (textOr settings.omaDefaultWorkspaceId DEFAULT_WORKSPACE_ID)
          .ok { workspace :=
            { id := workspaceId
              slug :=
                if workspaceId = DEFAULT_WORKSPACE_ID then "default" else workspaceId
              source := "api_key" } }

/-- `DatabaseApiKeyAuthProvider.authenticate` with the keys which its query sees. -/
def authenticateDatabase (keys : List ApiKey) (now : Time) (headers : RequestHeaders) :
    Except HTTPException Admission :=
  match headers.token with
  | none => .error ⟨401, "Missing API key"⟩
  | some token =>
      if token = "" then .error ⟨401, "Missing API key"⟩
      else do
        match ← getApiKeyByToken keys token false with
        | none => .error invalidApiKey
        | some key =>
            return { workspace :=
                       { id := key.workspaceId
                         slug := key.workspaceId
                         source := "database_api_key" }
                     statements := [touchApiKey key now] }

inductive AuthProvider
  | env
  | database

def AuthProvider.authenticate (provider : AuthProvider) (settings : AccessSettings)
    (keys : List ApiKey) (now : Time) (headers : RequestHeaders) :
    Except HTTPException Admission :=
  match provider with
  | .env => authenticateEnv settings headers
  | .database => authenticateDatabase keys now headers

/-- The header checks of `require_api_access`. -/
def checkHeaders (settings : AccessSettings) (headers : RequestHeaders) :
    Except HTTPException Unit :=
  let anthropicBetaValues := splitHeaderValues headers.anthropicBeta
  let betaValues := anthropicBetaValues ++ splitHeaderValues headers.openManagedAgentsBeta
  let accepted := fun value => ACCEPTED_MANAGED_AGENTS_BETAS.contains value
  let compatibilityMode := anthropicBetaValues.any accepted
  if settings.omaRequireBetaHeader && !betaValues.any accepted then
    .error ⟨400, "Missing required beta header: " ++ CMA_MANAGED_AGENTS_BETA ++ ", " ++
      OPEN_MANAGED_AGENTS_BETA ++ ", " ++ ANTHROPIC_SKILLS_BETA ++ ", or " ++
      ANTHROPIC_USER_PROFILES_BETA⟩
  else if settings.omaRequireAnthropicVersionHeader && compatibilityMode &&
      headers.anthropicVersion.getD "" = "" then
    .error ⟨400, "Missing required Anthropic API version header: " ++
      ANTHROPIC_API_VERSION⟩
  else .ok ()

def requireApiAccess (provider : AuthProvider) (settings : AccessSettings)
    (keys : List ApiKey) (now : Time) (headers : RequestHeaders) :
    Except HTTPException Admission := do
  checkHeaders settings headers
  provider.authenticate settings keys now headers

/-! ## Transactions -/

inductive ApiKeyRequest
  | create (name : String) (workspaceId token : Option String) (metadata : Option Dict)
  | archive (token : String) (includeArchived : Bool)
  | access (headers : RequestHeaders)

/-- A request with the context variable, the draws and the clock of its process. -/
structure ApiKeyCall where
  current : Option CurrentWorkspace
  draws : KeyDraws
  now : Time
  request : ApiKeyRequest

/-- What the request writes. -/
def ApiKeyCall.handle (provider : AuthProvider) (settings : AccessSettings)
    (call : ApiKeyCall)
    (view : ℕ → List ApiKey) : Except HTTPException (List KeyStatement) :=
  match call.request with
  | .create name workspaceId token metadata =>
      .ok [.insert
        (createApiKey call.draws (workspaceIdOrDefault call.current workspaceId)
        name token metadata).1]
  | .archive token includeArchived => do
      match ← getApiKeyByToken (view 0) token includeArchived with
      | none => return []
      | some held => return [archiveApiKey held call.now]
  | .access headers => do
      let admission ← requireApiAccess provider settings (view 0) call.now headers
      return admission.statements

def ApiKeyCall.body (provider : AuthProvider) (settings : AccessSettings)
    (call : ApiKeyCall)
    (view : ℕ → List ApiKey) (current : List ApiKey) : Option (List ApiKey) :=
  match call.handle provider settings view with
  | .error _ => none
  | .ok statements => statements.foldlM KeyStatement.execute current

abbrev keyStep (provider : AuthProvider) (settings : AccessSettings) :
    Timeline (List ApiKey) → ApiKeyCall × List ℕ → Option (Timeline (List ApiKey)) :=
  ReadCommitted.step (ApiKeyCall.body provider settings)

def noKeys : Timeline (List ApiKey) where
  current := []
  past := []

section

variable {provider : AuthProvider} {settings : AccessSettings}

theorem statements_kept
    {statements : List KeyStatement} {keys next : List ApiKey} (hkeys : KeyTable keys)
    (hcommit : statements.foldlM KeyStatement.execute keys = some next) :
    KeyTable next ∧ KeysKept keys next := by
  induction statements generalizing keys with
  | nil =>
      obtain rfl := Option.some.inj hcommit
      exact ⟨hkeys, .refl keys⟩
  | cons statement rest ih =>
      rw [List.foldlM_cons] at hcommit
      obtain ⟨middle, hexecute, hrest⟩ := Option.bind_eq_some_iff.mp hcommit
      obtain ⟨hmiddle, hfirst⟩ := KeyStatement.execute_kept hkeys hexecute
      obtain ⟨hnext, hsecond⟩ := ih hmiddle hrest
      exact ⟨hnext, hfirst.trans hsecond⟩

theorem keyStep_ordered
    {timeline next : Timeline (List ApiKey)} {call : ApiKeyCall × List ℕ}
    (hordered : timeline.Ordered KeyTable KeysKept)
    (hstep : keyStep provider settings timeline call = some next) :
    next.Ordered KeyTable KeysKept := by
  refine step_ordered KeysKept.refl (fun _ _ _ => KeysKept.trans) ?_ hordered hstep
  intro call view current next hreads hbody
  unfold ApiKeyCall.body at hbody
  split at hbody
  · cases hbody
  · exact statements_kept hreads.invariant hbody

theorem noKeys_ordered : noKeys.Ordered KeyTable KeysKept where
  states := by
    intro keys hkeys
    obtain rfl := List.mem_singleton.mp hkeys
    exact KeyTable.nil
  order := List.pairwise_singleton _ _

/-! ## Admissions -/

def databaseAdmission (now : Time) (key : ApiKey) : Admission where
  workspace :=
    { id := key.workspaceId, slug := key.workspaceId, source := "database_api_key" }
  statements := [touchApiKey key now]

theorem authenticateDatabase_eq
    {keys : List ApiKey} (hkeys : KeyTable keys) (now : Time) (headers : RequestHeaders) :
    authenticateDatabase keys now headers =
      match headers.token with
      | none => .error ⟨401, "Missing API key"⟩
      | some token =>
          if token = "" then .error ⟨401, "Missing API key"⟩
          else
            match keys.find? (keySelected token false) with
            | none => .error invalidApiKey
            | some key => .ok (databaseAdmission now key) := by
  unfold authenticateDatabase
  simp only [hkeys.getApiKeyByToken_eq]
  cases headers.token with
  | none => rfl
  | some token =>
      dsimp only
      split
      · rfl
      · cases keys.find? (keySelected token false) <;> rfl

/-- The database provider admits a token if it has a live key. -/
theorem authenticateDatabase_eq_ok
    {keys : List ApiKey} (hkeys : KeyTable keys) {now : Time} {headers : RequestHeaders}
    {admission : Admission} :
    authenticateDatabase keys now headers = .ok admission ↔
      ∃ token, headers.token = some token ∧ token ≠ "" ∧
        ∃ key ∈ keys, keySelected token false key = true ∧
          admission = databaseAdmission now key := by
  rw [authenticateDatabase_eq hkeys]
  cases headers.token with
  | none => simp
  | some token =>
      by_cases hempty : token = ""
      · simp [hempty]
      · simp only [hempty, if_false, Option.some.injEq, exists_eq_left', ne_eq,
          not_false_eq_true, true_and]
        cases hfound : keys.find? (keySelected token false) with
        | none =>
            rw [List.find?_eq_none] at hfound
            refine iff_of_false (by simp) ?_
            rintro ⟨key, hkey, hselected, -⟩
            exact hfound key hkey hselected
        | some key =>
            rw [hkeys.find?_eq_some] at hfound
            constructor
            · intro hadmission
              exact ⟨key, hfound.1, hfound.2, (Except.ok.inj hadmission).symm⟩
            · rintro ⟨other, hother, hselected, rfl⟩
              have hfirst := hkeys.find?_eq_some.mpr hfound
              rw [hkeys.find?_eq_some.mpr ⟨hother, hselected⟩] at hfirst
              cases hfirst
              rfl

theorem requireApiAccess_eq_ok
    {keys : List ApiKey} {now : Time} {headers : RequestHeaders} {admission : Admission} :
    requireApiAccess provider settings keys now headers = .ok admission ↔
      checkHeaders settings headers = .ok () ∧
        provider.authenticate settings keys now headers = .ok admission := by
  unfold requireApiAccess
  rw [bind_eq_ok]
  exact ⟨fun ⟨_, hchecked, hadmission⟩ => ⟨hchecked, hadmission⟩,
    fun ⟨hchecked, hadmission⟩ => ⟨(), hchecked, hadmission⟩⟩

/-- A missing header or key, or one that is not valid. -/
def RefusesAccess (error : HTTPException) : Prop :=
  error.statusCode = 400 ∨ error.statusCode = 401

theorem authenticateEnv_onlyRaises (headers : RequestHeaders) :
    OnlyRaises RefusesAccess (authenticateEnv settings headers) := by
  unfold authenticateEnv
  dsimp only
  cases headers.token <;> simp [RefusesAccess, invalidApiKey]

/-- The query of a token never finds two rows. -/
theorem authenticateDatabase_onlyRaises
    {keys : List ApiKey} (hkeys : KeyTable keys) (now : Time) (headers : RequestHeaders) :
    OnlyRaises RefusesAccess (authenticateDatabase keys now headers) := by
  rw [authenticateDatabase_eq hkeys]
  cases headers.token with
  | none => simp [RefusesAccess]
  | some token =>
      dsimp only
      cases keys.find? (keySelected token false) <;> simp [RefusesAccess, invalidApiKey]

theorem requireApiAccess_onlyRaises
    {keys : List ApiKey} (hkeys : KeyTable keys) (now : Time) (headers : RequestHeaders) :
    OnlyRaises RefusesAccess (requireApiAccess provider settings keys now headers) := by
  unfold requireApiAccess
  refine OnlyRaises.bind ?_ fun _ => ?_
  · unfold checkHeaders
    simp [RefusesAccess]
  · cases provider with
    | env => exact authenticateEnv_onlyRaises headers
    | database => exact authenticateDatabase_onlyRaises hkeys now headers

/-- A token which an older and a newer state admit is admitted in between. -/
theorem admission_between
    {newKeys middleKeys oldKeys : List ApiKey} (hnew : KeyTable newKeys)
    (hmiddle : KeyTable middleKeys) (hold : KeyTable oldKeys)
    (hlater : KeysKept oldKeys middleKeys) (hnewer : KeysKept middleKeys newKeys)
    {headers : RequestHeaders} {first final : Time} {admitted last : Admission}
    (hadmitted : authenticateDatabase oldKeys first headers = .ok admitted)
    (hlast : authenticateDatabase newKeys final headers = .ok last) (now : Time) :
    last.workspace = admitted.workspace ∧
      ∃ between, authenticateDatabase middleKeys now headers = .ok between ∧
        between.workspace = admitted.workspace := by
  obtain ⟨token, htoken, hsome, key, hkey, hselected, rfl⟩ :=
    (authenticateDatabase_eq_ok hold).mp hadmitted
  obtain ⟨_, htoken', -, newKey, hnewKey, hnewSelected, rfl⟩ :=
    (authenticateDatabase_eq_ok hnew).mp hlast
  rw [htoken] at htoken'
  cases htoken'
  obtain ⟨middleKey, hmiddleKey, hcontinues⟩ := hlater key hkey
  obtain ⟨other, hother, hcontinuesNew⟩ := hnewer middleKey hmiddleKey
  simp only [keySelected, Bool.false_eq_true, false_or, decide_eq_true_eq]
    at hselected hnewSelected
  have hhash : middleKey.keyHash = hashApiKey token := hcontinues.hash.trans hselected.1
  obtain rfl : other = newKey := by
    refine List.inj_on_of_nodup_map hnew.hashes hother hnewKey ?_
    rw [hcontinuesNew.hash, hhash, hnewSelected.1]
  have hlive : middleKey.archivedAt = none := by
    rw [← Option.not_isSome_iff_eq_none]
    intro harchived
    have hgone := hcontinuesNew.archived harchived
    rw [hnewSelected.2] at hgone
    cases hgone
  refine ⟨?_, databaseAdmission now middleKey, ?_, ?_⟩
  · simp only [databaseAdmission, hcontinuesNew.workspace, hcontinues.workspace]
  · refine (authenticateDatabase_eq_ok hmiddle).mpr
      ⟨token, htoken, hsome, middleKey, hmiddleKey, ?_, rfl⟩
    simp [keySelected, hhash, hlive]
  · simp only [databaseAdmission, hcontinues.workspace]

/-! ## Provenance -/

/-- The request creates the key of the token in the workspace. -/
def ApiKeyCall.Creates (call : ApiKeyCall) (workspaceId keyHash : String) : Prop :=
  ∃ name value token metadata,
    call.request = .create name value token metadata ∧
      workspaceIdOrDefault call.current value = workspaceId ∧
      hashApiKey (createApiKey call.draws workspaceId name token metadata).2 = keyHash

def KeysCreated (calls : List (ApiKeyCall × List ℕ)) (keys : List ApiKey) : Prop :=
  ∀ key ∈ keys, ∃ call ∈ calls, call.1.Creates key.workspaceId key.keyHash

/-- An admission writes the use of a key and creates none. -/
theorem authenticate_creates_none
    {keys : List ApiKey} {now : Time} {headers : RequestHeaders} {admission : Admission}
    (hadmission : provider.authenticate settings keys now headers = .ok admission)
    (key : ApiKey) : KeyStatement.insert key ∉ admission.statements := by
  cases provider with
  | env =>
      simp only [AuthProvider.authenticate, authenticateEnv] at hadmission
      split at hadmission
      · cases hadmission
        simp
      · split at hadmission
        · cases hadmission
        · split at hadmission
          · cases hadmission
          · cases hadmission
            simp
  | database =>
      simp only [AuthProvider.authenticate, authenticateDatabase] at hadmission
      split at hadmission
      · cases hadmission
      · split at hadmission
        · cases hadmission
        · obtain ⟨found, -, hadmission⟩ := bind_eq_ok.mp hadmission
          cases found with
          | none => cases hadmission
          | some held =>
              cases hadmission
              simp [touchApiKey]

theorem handle_insert
    {call : ApiKeyCall} {view : ℕ → List ApiKey} {statements : List KeyStatement}
    (hhandle : call.handle provider settings view = .ok statements) {key : ApiKey}
    (hkey : KeyStatement.insert key ∈ statements) :
    call.Creates key.workspaceId key.keyHash := by
  unfold ApiKeyCall.handle at hhandle
  split at hhandle
  next name value token metadata hrequest =>
    cases hhandle
    obtain rfl : key = _ := KeyStatement.insert.inj (List.mem_singleton.mp hkey)
    exact ⟨name, value, token, metadata, hrequest, rfl, rfl⟩
  next token includeArchived hrequest =>
    obtain ⟨found, -, hhandle⟩ := bind_eq_ok.mp hhandle
    cases found with
    | none =>
        cases hhandle
        cases hkey
    | some held =>
        cases hhandle
        cases List.mem_singleton.mp hkey
  next headers hrequest =>
    obtain ⟨admission, hadmission, hhandle⟩ := bind_eq_ok.mp hhandle
    cases hhandle
    have hadmission := (requireApiAccess_eq_ok.mp hadmission).2
    exact absurd hkey (authenticate_creates_none hadmission key)

theorem statements_created
    {calls : List (ApiKeyCall × List ℕ)} {statements : List KeyStatement}
    {keys next : List ApiKey} (hkeys : KeysCreated calls keys)
    (hinserted : ∀ key, KeyStatement.insert key ∈ statements →
      ∃ call ∈ calls, call.1.Creates key.workspaceId key.keyHash)
    (hcommit : statements.foldlM KeyStatement.execute keys = some next) :
    KeysCreated calls next := by
  induction statements generalizing keys with
  | nil =>
      obtain rfl := Option.some.inj hcommit
      exact hkeys
  | cons statement rest ih =>
      rw [List.foldlM_cons] at hcommit
      obtain ⟨middle, hexecute, hrest⟩ := Option.bind_eq_some_iff.mp hcommit
      refine ih ?_ (fun key hkey => hinserted key (List.mem_cons_of_mem _ hkey)) hrest
      cases statement with
      | insert key =>
          simp only [KeyStatement.execute] at hexecute
          split at hexecute
          · cases hexecute
          · cases hexecute
            intro other hother
            rcases List.mem_append.mp hother with hother | hother
            · exact hkeys other hother
            · obtain rfl := List.mem_singleton.mp hother
              exact hinserted other List.mem_cons_self
      | update keyId columns =>
          cases hexecute
          intro key hkey
          obtain ⟨old, hold, rfl⟩ := List.mem_map.mp hkey
          have hcreated := hkeys old hold
          split
          · exact hcreated
          · exact hcreated

theorem run_created
    {calls : List (ApiKeyCall × List ℕ)} {last : Timeline (List ApiKey)}
    (hrun : run (keyStep provider settings) noKeys calls = some last) :
    ∀ keys ∈ last.history, KeysCreated calls keys := by
  have hstart : ∀ keys ∈ noKeys.history, KeysCreated calls keys := by
    intro keys hkeys
    obtain rfl := List.mem_singleton.mp hkeys
    simp [KeysCreated, noKeys]
  have hstep : ∀ timeline call next,
      (∀ keys ∈ timeline.history, KeysCreated calls keys) → call ∈ calls →
      keyStep provider settings timeline call = some next →
      ∀ keys ∈ next.history, KeysCreated calls keys := by
    intro timeline call next hcreated hmem hstep keys hkeys
    obtain ⟨-, rfl | ⟨state, hbody, rfl⟩⟩ := step_cases hstep
    · exact hcreated keys hkeys
    · rcases List.mem_cons.mp hkeys with rfl | hkeys
      · unfold ApiKeyCall.body at hbody
        split at hbody
        · cases hbody
        next statements hhandle =>
          refine statements_created (hcreated _ List.mem_cons_self) ?_ hbody
          exact fun key hkey => ⟨call, hmem, handle_insert hhandle hkey⟩
      · exact hcreated keys hkeys
  exact run_invariant_of_allSteps hstep hstart (allSteps_mem noKeys calls) hrun

/-! ## Runs -/

/-- What the headers are worth in the committed states of a run, newest first. -/
structure AccessKept (provider : AuthProvider) (settings : AccessSettings)
    (calls : List (ApiKeyCall × List ℕ)) (history : List (List ApiKey))
    (headers : RequestHeaders) : Prop where
  refusals : ∀ keys ∈ history, ∀ now,
    OnlyRaises RefusesAccess (requireApiAccess provider settings keys now headers)
  created : ∀ keys ∈ history, ∀ now admission, provider = .database →
    requireApiAccess provider settings keys now headers = .ok admission →
    ∃ token, headers.token = some token ∧
      ∃ call ∈ calls, call.1.Creates admission.workspace.id (hashApiKey token)
  stretch : ∀ newKeys middleKeys oldKeys,
    [newKeys, middleKeys, oldKeys].Sublist history →
    ∀ first final admitted latest,
      requireApiAccess provider settings oldKeys first headers = .ok admitted →
      requireApiAccess provider settings newKeys final headers = .ok latest →
      latest.workspace = admitted.workspace ∧
        ∀ now, ∃ between,
          requireApiAccess provider settings middleKeys now headers = .ok between ∧
            between.workspace = admitted.workspace

/-- A token is admitted in one stretch of committed states only, in the workspace for
which a request has created it. -/
theorem token_admitted_once
    {calls : List (ApiKeyCall × List ℕ)} {last : Timeline (List ApiKey)}
    (hrun : run (keyStep provider settings) noKeys calls = some last)
    (headers : RequestHeaders) :
    AccessKept provider settings calls last.history headers := by
  have hordered : last.Ordered KeyTable KeysKept :=
    run_invariant (fun _ _ _ hordered hstep => keyStep_ordered hordered hstep)
      noKeys_ordered hrun
  refine ⟨?_, ?_, ?_⟩
  · intro keys hkeys now
    exact requireApiAccess_onlyRaises (hordered.states keys hkeys) now headers
  · rintro keys hkeys now admission rfl hadmission
    obtain ⟨token, htoken, -, key, hkey, hselected, rfl⟩ :=
      (authenticateDatabase_eq_ok (hordered.states keys hkeys)).mp
        (requireApiAccess_eq_ok.mp hadmission).2
    obtain ⟨call, hcall, hcreates⟩ := run_created hrun keys hkeys key hkey
    have hhash : key.keyHash = hashApiKey token := (of_decide_eq_true hselected).1
    exact ⟨token, htoken, call, hcall, hhash ▸ hcreates⟩
  · intro newKeys middleKeys oldKeys hsub first final admitted latest hadmitted hlatest
    obtain ⟨hchecked, hadmitted⟩ := requireApiAccess_eq_ok.mp hadmitted
    obtain ⟨-, hlatest⟩ := requireApiAccess_eq_ok.mp hlatest
    cases provider with
    | env =>
        obtain rfl := Except.ok.inj (hadmitted.symm.trans hlatest)
        exact ⟨rfl, fun now =>
          ⟨admitted, requireApiAccess_eq_ok.mpr ⟨hchecked, hadmitted⟩, rfl⟩⟩
    | database =>
        have horder := hordered.order.sublist hsub
        simp only [List.pairwise_cons, List.mem_cons, List.not_mem_nil, or_false,
          forall_eq_or_imp, forall_eq] at horder
        have hstates := fun keys hkeys => hordered.states keys (hsub.subset hkeys)
        have hbetween := admission_between (hstates newKeys (by simp))
          (hstates middleKeys (by simp)) (hstates oldKeys (by simp)) horder.2.1
          horder.1.1 hadmitted hlatest
        refine ⟨(hbetween 0).1, fun now => ?_⟩
        obtain ⟨-, between, hok, hworkspace⟩ := hbetween now
        exact ⟨between, requireApiAccess_eq_ok.mpr ⟨hchecked, hok⟩, hworkspace⟩

end

/-! ## A key that is created, used and archived -/

def sampleKeyCall (tag : String) (request : ApiKeyRequest) : ApiKeyCall × List ℕ :=
  ({ current := none
     draws := { uuidHex := tag, tokenUrlsafe := tag }
     now := 7
     request := request }, [])

def sampleKeyHeaders : RequestHeaders where
  authorization := some "Bearer oma_a"
  openManagedAgentsBeta := some "open-managed-agents-2026-04-01"

def sampleKeyCalls : List (ApiKeyCall × List ℕ) :=
  [sampleKeyCall "a" (.create "ci" (some "red") none none),
   sampleKeyCall "b" (.access sampleKeyHeaders),
   sampleKeyCall "c" (.archive "oma_a" false),
   sampleKeyCall "d" (.access sampleKeyHeaders)]

def sampleKeys : Timeline (List ApiKey) :=
  (run (keyStep .database {}) noKeys sampleKeyCalls).get (by decide +kernel)

theorem sample_key_stretch :
    sampleKeys.history.map (fun keys =>
        (requireApiAccess .database {} keys 0 sampleKeyHeaders).toOption.isSome) =
      [false, true, true, false] ∧
    AccessKept .database {} sampleKeyCalls sampleKeys.history sampleKeyHeaders :=
  ⟨by decide +kernel, token_admitted_once (Option.some_get _).symm sampleKeyHeaders⟩

end ManagedAgents
