import ManagedAgents.CredentialResponses
import ManagedAgents.LiveContainers
import Mathlib.Data.List.Forall2

/-!
# Secrets and the runtime context

A turn learns of a credential which server it is for, its identifiers and its type.
Rows that differ in the secret texts of credentials lead to the same runtime context.
-/

namespace ManagedAgents

open NewestPage

/-! ## Statement -/

/-- The server of the credential is given as a text; only for environment variables this
is not checked. -/
def NamesServer (row : Resource) : Prop :=
  ∀ auth, Dict.get row.data "auth" = .dict auth →
    Dict.get auth "type" = .str "environment_variable" →
    TextOrNull (Dict.get auth "mcp_server_url")

/-- The rows are equal, or stored credentials that differ in secret texts only. -/
inductive SecretTwins (py : Interpreter) : Resource → Resource → Prop
  | same (row : Resource) : SecretTwins py row row
  | credential {settings otherSettings : EncryptionSettings} {row other : Resource}
      (hrow : ReachableCredential py settings row)
      (hother : ReachableCredential py otherSettings other)
      (halike : AlikeExceptSecrets row other) (hserver : NamesServer row)
      (hotherServer : NamesServer other) :
      SecretTwins py row other

/-! ## Purged credentials -/

section

variable {py : Interpreter}

theorem mcp_server_url_text
    {auth : Dict} (hshape : AuthShape auth)
    (hserver : Dict.get auth "type" = .str "environment_variable" →
      TextOrNull (Dict.get auth "mcp_server_url")) :
    TextOrNull (Dict.get auth "mcp_server_url") := by
  cases hshape with
  | staticBearer htype hurl => exact .inr hurl
  | environmentVariable htype hname hnetworking => exact hserver htype
  | mcpOauth htype hurl hexpires hrefresh => exact .inr hurl

theorem auth_type_text
    {auth : Dict} (hshape : AuthShape auth) : TextOrNull (Dict.get auth "type") := by
  cases hshape with
  | staticBearer htype hurl => exact .inr ⟨_, htype⟩
  | environmentVariable htype hname hnetworking => exact .inr ⟨_, htype⟩
  | mcpOauth htype hurl hexpires hrefresh => exact .inr ⟨_, htype⟩

theorem credentialUrl_purgedRow
    {row : Resource} (hshape : ShapedCredential row) (hserver : NamesServer row) :
    credentialUrl py.toPython (purgedRow row) = credentialUrl py.toPython row := by
  obtain ⟨auth, hauth, hfields⟩ := hshape
  have hurl := mcp_server_url_text hfields (hserver auth hauth)
  unfold credentialUrl
  rw [credentialAuth_of_get hauth, credentialAuth_of_get (get_purged_auth hauth)]
  dsimp only
  rw [get_purge (plain_keys "mcp_server_url" (by decide)), hurl.purge_eq]

theorem authType_purgedRow
    {row : Resource} (hshape : ShapedCredential row) :
    (credentialAuth (purgedRow row)).get "type" = (credentialAuth row).get "type" := by
  obtain ⟨auth, hauth, hfields⟩ := hshape
  rw [credentialAuth_of_get hauth, credentialAuth_of_get (get_purged_auth hauth)]
  exact (get_purge (plain_keys "type" (by decide)) auth).trans
    (auth_type_text hfields).purge_eq

/-! ## What twins have in common -/

variable {row other : Resource}

theorem SecretTwins.columns
    (htwins : SecretTwins py row other) : other = { row with data := other.data } := by
  cases htwins with
  | same => rfl
  | credential hrow hother halike hserver hotherServer => exact halike.columns

theorem SecretTwins.selects
    (htwins : SecretTwins py row other) (query : ResourceQuery) :
    query.selects other = query.selects row := by
  rw [htwins.columns]
  rfl

theorem SecretTwins.age
    (htwins : SecretTwins py row other) : other.age = row.age := by
  rw [htwins.columns]
  rfl

theorem SecretTwins.eq_of_type
    (htwins : SecretTwins py row other) (htype : row.resourceType ≠ .credential) :
    other = row := by
  cases htwins with
  | same => rfl
  | credential hrow hother halike hserver hotherServer => exact absurd hrow.1 htype

theorem SecretTwins.credentialUrl_eq
    (htwins : SecretTwins py row other) :
    credentialUrl py.toPython other = credentialUrl py.toPython row := by
  cases htwins with
  | same => rfl
  | credential hrow hother halike hserver hotherServer =>
      rw [← credentialUrl_purgedRow hother.shaped hotherServer, ← halike.purgedRow_eq,
        credentialUrl_purgedRow hrow.shaped hserver]

theorem SecretTwins.authType_eq
    (htwins : SecretTwins py row other) :
    (credentialAuth other).get "type" = (credentialAuth row).get "type" := by
  cases htwins with
  | same => rfl
  | credential hrow hother halike hserver hotherServer =>
      rw [← authType_purgedRow hother.shaped, ← halike.purgedRow_eq,
        authType_purgedRow hrow.shaped]

/-! ## Queries -/

variable {rows others : List Resource}

theorem listResources_twins
    (htwins : List.Forall₂ (SecretTwins py) rows others) (query : ResourceQuery)
    (limit : ℕ) :
    List.Forall₂ (SecretTwins py) (listResources rows query limit)
      (listResources others query limit) := by
  have hselected : List.Forall₂ (SecretTwins py) (rows.filter query.selects)
      (others.filter query.selects) :=
    List.rel_filter (fun _ _ hsame => by simp [hsame.selects query]) htwins
  unfold listResources page
  refine List.forall₂_take limit (forall₂_insertionSort ?_ hselected)
  intro first second other another hfirst hother
  rw [hfirst.age, hother.age]

theorem eq_of_twins
    (htwins : List.Forall₂ (SecretTwins py) rows others)
    (htypes : ∀ row ∈ rows, row.resourceType ≠ .credential) : others = rows := by
  induction htwins with
  | nil => rfl
  | cons hsame hrest ih =>
      obtain ⟨htype, htypes⟩ := List.forall_mem_cons.mp htypes
      rw [hsame.eq_of_type htype, ih htypes]

/-- Only queries for credentials see a difference. -/
theorem listResources_eq
    (htwins : List.Forall₂ (SecretTwins py) rows others) {query : ResourceQuery}
    (htype : query.resourceType ≠ .credential) (limit : ℕ) :
    listResources others query limit = listResources rows query limit := by
  refine eq_of_twins (listResources_twins htwins query limit) ?_
  intro row hrow
  have hselected := List.of_mem_filter
    ((List.mem_insertionSort _).mp (List.mem_of_mem_take hrow))
  simp only [ResourceQuery.selects, decide_eq_true_eq] at hselected
  rw [hselected.1]
  exact htype

/-! ## Credentials by server -/

/-- The entries are for the same server. -/
def TwinEntries (py : Interpreter) (entry twin : String × Resource) : Prop :=
  entry.1 = twin.1 ∧ SecretTwins py entry.2 twin.2

theorem map_fst_twins
    {entries twins : List (String × Resource)}
    (hentries : List.Forall₂ (TwinEntries py) entries twins) :
    twins.map Prod.fst = entries.map Prod.fst := by
  induction hentries with
  | nil => rfl
  | cons hsame hrest ih => rw [List.map_cons, List.map_cons, ih, hsame.1]

theorem addByUrl_twins
    {byUrl twins : List (String × Resource)}
    (hentries : List.Forall₂ (TwinEntries py) byUrl twins)
    (htwins : SecretTwins py row other) :
    List.Forall₂ (TwinEntries py) (addByUrl py.toPython byUrl row)
      (addByUrl py.toPython twins other) := by
  unfold addByUrl
  dsimp only
  rw [htwins.credentialUrl_eq, map_fst_twins hentries]
  split
  · exact List.rel_append hentries (.cons ⟨rfl, htwins⟩ .nil)
  · exact hentries

theorem foldl_addByUrl_twins
    {credentials twins : List Resource}
    (htwins : List.Forall₂ (SecretTwins py) credentials twins)
    {byUrl twinsByUrl : List (String × Resource)}
    (hentries : List.Forall₂ (TwinEntries py) byUrl twinsByUrl) :
    List.Forall₂ (TwinEntries py) (credentials.foldl (addByUrl py.toPython) byUrl)
      (twins.foldl (addByUrl py.toPython) twinsByUrl) := by
  induction htwins generalizing byUrl twinsByUrl with
  | nil => exact hentries
  | cons hsame hrest ih => exact ih (addByUrl_twins hentries hsame)

theorem lookup_twins
    {entries twins : List (String × Resource)}
    (hentries : List.Forall₂ (TwinEntries py) entries twins) (url : String) :
    Option.Rel (SecretTwins py) (entries.lookup url) (twins.lookup url) := by
  induction hentries with
  | nil => exact .none
  | @cons entry twin rest others hsame hrest ih =>
      obtain ⟨key, credential⟩ := entry
      obtain ⟨twinKey, twinCredential⟩ := twin
      obtain ⟨hkey, hcredential⟩ := hsame
      dsimp only at hkey hcredential
      subst hkey
      rw [List.lookup_cons, List.lookup_cons]
      cases hfound : url == key with
      | true => exact .some hcredential
      | false => exact ih

theorem resolveServer_twins
    {entries twins : List (String × Resource)}
    (hentries : List.Forall₂ (TwinEntries py) entries twins) (server : Dict) :
    resolveServer py.toPython twins server =
      resolveServer py.toPython entries server := by
  have hfound := lookup_twins hentries
    (normalizedMcpUrl py.toPython (.str (mcpServerUrl py.toPython server)))
  unfold resolveServer
  generalize entries.lookup _ = found at hfound ⊢
  generalize twins.lookup _ = twinFound at hfound ⊢
  cases hfound with
  | none => rfl
  | some hsame =>
      dsimp only
      rw [hsame.authType_eq, hsame.columns]

/-! ## The context -/

/-- The runtime context is the same for all secrets. -/
theorem runtime_context_hides_secrets
    (htwins : List.Forall₂ (SecretTwins py) rows others) (workspaceId : String)
    (session : ManagedSession) (version : AgentVersion) :
    runtimeContextForSession py.toPython rows workspaceId session version =
      runtimeContextForSession py.toPython others workspaceId session version := by
  have hcredentials : List.Forall₂ (SecretTwins py)
      (session.statusDetails.vaultIds.flatMap
        (vaultCredentials rows workspaceId))
      (session.statusDetails.vaultIds.flatMap
        (vaultCredentials others workspaceId)) := by
    generalize session.statusDetails.vaultIds = vaultIds
    induction vaultIds with
    | nil => exact .nil
    | cons vaultId rest ih =>
        rw [List.flatMap_cons, List.flatMap_cons]
        exact List.rel_append (listResources_twins htwins _ _) ih
  have hresolve : resolveServer py.toPython (credentialsByUrl py.toPython
        (session.statusDetails.vaultIds.flatMap (vaultCredentials others workspaceId))) =
      resolveServer py.toPython (credentialsByUrl py.toPython
        (session.statusDetails.vaultIds.flatMap (vaultCredentials rows workspaceId))) :=
    funext fun server =>
      resolveServer_twins (foldl_addByUrl_twins hcredentials .nil) server
  have hresources : memoryResources others workspaceId session.id =
      memoryResources rows workspaceId session.id := by
    unfold memoryResources
    rw [listResources_eq htwins (by simp [sessionResourceQuery])]
  have hstores : memoryStoreContext py.toPython others workspaceId =
      memoryStoreContext py.toPython rows workspaceId := by
    funext resource
    unfold memoryStoreContext contextMemories
    dsimp only
    rw [listResources_eq htwins (by simp [memoryQuery])]
  unfold runtimeContextForSession
  dsimp only
  rw [hresolve, hresources, hstores]

end

theorem sampleTokenRow_namesServer
    (token : String) :
    NamesServer (sampleTokenRow token) := by
  intro auth hauth htype
  cases hauth
  simp [Dict.get] at htype

theorem sample_runtime_context :
    runtimeContextForSession sampleInterpreter.toPython
        [sampleVault, sampleTokenRow "abc"] "wrkspc_default"
        { samplePinnedSession with statusDetails := { vaultIds := ["vault_v0"] } }
        sampleMcpVersion =
      runtimeContextForSession sampleInterpreter.toPython
        [sampleVault, sampleTokenRow "xyz"] "wrkspc_default"
        { samplePinnedSession with statusDetails := { vaultIds := ["vault_v0"] } }
        sampleMcpVersion :=
  runtime_context_hides_secrets
    (.cons (.same sampleVault)
      (.cons
        (.credential
          (@sampleTokenRow_reachable "abc" ((sampleTokenWorld "abc").get (by decide))
            (Option.some_get _).symm (by decide))
          (@sampleTokenRow_reachable "xyz" ((sampleTokenWorld "xyz").get (by decide))
            (Option.some_get _).symm (by decide))
          ⟨by decide, rfl⟩ (sampleTokenRow_namesServer "abc")
          (sampleTokenRow_namesServer "xyz"))
        .nil)) _ _ _

end ManagedAgents
