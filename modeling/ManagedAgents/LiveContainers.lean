import ManagedAgents.MemoryHistory
import ManagedAgents.Runtime.Context

/-!
# Containers behind the runtime context

The context is gathered from the children of the pinned vaults and attached
stores.  The containers themselves are not looked up, so a deleted store and a
vault that was archived or deleted still contribute.
-/

namespace ManagedAgents

def LiveVault (rows : List Resource) (vaultId : String) : Prop :=
  ∃ vault ∈ rows, vault.id = vaultId ∧ vault.resourceType = .vault ∧
    vault.deletedAt = none ∧ vault.archivedAt = none

def LiveStore (rows : List Resource) (storeId : String) : Prop :=
  ∃ store ∈ rows, store.id = storeId ∧ store.resourceType = .memoryStore ∧
    store.deletedAt = none

/-- The server is reported with a live credential of a live vault. -/
def CredentialLive (rows : List Resource) (server : Dict) : Prop :=
  ∃ credential ∈ rows, ∃ vaultId, credential.resourceType = .credential ∧
    credential.deletedAt = none ∧ credential.archivedAt = none ∧
    Dict.get server "credential_id" = .str credential.id ∧
    credential.parentId = some vaultId ∧ LiveVault rows vaultId

def MemoryLive (rows : List Resource) (item : MemoryItem) : Prop :=
  ∃ memory ∈ rows, ∃ storeId, memory.resourceType = .memory ∧ memory.id = item.memoryId ∧
    memory.parentId = some storeId ∧ LiveStore rows storeId

structure ContextLive (rows : List Resource) (context : RuntimeContext) : Prop where
  credentials : ∀ server ∈ context.mcpServers,
    Dict.get server "status" = .str "matched" → CredentialLive rows server
  memories : ∀ store ∈ context.memoryStores, ∀ item ∈ store.memories, MemoryLive rows item

/-! ## Where the containers matter -/

def offersCredential (py : Python) (rows : List Resource)
    (workspaceId url vaultId : String) :
    Bool :=
  (vaultCredentials rows workspaceId vaultId).any fun credential =>
    credentialUrl py credential = url

/-- For every server the first pinned vault with a credential for it is live,
and every attached store with memories to show is there. -/
structure ContainersLive (py : Python) (rows : List Resource) (workspaceId : String)
    (session : ManagedSession) (version : AgentVersion) : Prop where
  vaults : ∀ server ∈ toolDicts version.mcpServers,
    normalizedMcpUrl py (.str (mcpServerUrl py server)) ≠ "" →
    ∀ vaultId ∈ session.statusDetails.vaultIds.find?
      (offersCredential py rows workspaceId
        (normalizedMcpUrl py (.str (mcpServerUrl py server)))), LiveVault rows vaultId
  stores : ∀ resource ∈ memoryResources rows workspaceId session.id,
    attachedStoreId py resource ≠ "" →
    contextMemories rows workspaceId (attachedStoreId py resource) ≠ [] →
    LiveStore rows (attachedStoreId py resource)

/-! ## Credentials -/

theorem lookup_single (key url : String) (credential : Resource) :
    List.lookup url [(key, credential)] =
      if key = url then some credential else none := by
  by_cases hsame : url = key
  · subst hsame
    simp
  · have hother : (url == key) = false := beq_eq_false_iff_ne.mpr hsame
    rw [List.lookup_cons, hother, if_neg (Ne.symm hsame)]
    rfl

theorem lookup_addByUrl
    {py : Python} {url : String} (hurl : url ≠ "") (byUrl : List (String × Resource))
    (credential : Resource) :
    (addByUrl py byUrl credential).lookup url =
      (byUrl.lookup url).or
        (if credentialUrl py credential = url then some credential else none) := by
  unfold addByUrl
  dsimp only
  split
  next hadded =>
    rw [List.lookup_append, lookup_single]
  next hkept =>
    by_cases hsame : credentialUrl py credential = url
    · -- the server has a credential already
      have hmem : url ∈ byUrl.map Prod.fst := by
        by_contra habsent
        exact hkept ⟨hsame ▸ hurl, hsame ▸ habsent⟩
      obtain ⟨entry, hentry, hkey⟩ := List.mem_map.mp hmem
      have hsome : (byUrl.lookup url).isSome := by
        rw [List.lookup_isSome_iff]
        exact ⟨entry, hentry, by simp [hkey]⟩
      obtain ⟨found, hfound⟩ := Option.isSome_iff_exists.mp hsome
      simp [hfound]
    · simp [hsame]

/-- The loop keeps the first credential of each server. -/
theorem lookup_credentialsByUrl
    (py : Python) {url : String} (hurl : url ≠ "") (credentials : List Resource) :
    (credentialsByUrl py credentials).lookup url =
      credentials.find? fun credential => credentialUrl py credential = url := by
  have hloop : ∀ byUrl : List (String × Resource),
      (credentials.foldl (addByUrl py) byUrl).lookup url =
        (byUrl.lookup url).or
          (credentials.find? fun credential => credentialUrl py credential = url) := by
    induction credentials with
    | nil =>
        intro byUrl
        simp
    | cons credential rest ih =>
        intro byUrl
        rw [List.foldl_cons, ih, lookup_addByUrl hurl, Option.or_assoc]
        by_cases hsame : credentialUrl py credential = url <;> simp [hsame]
  exact hloop []

theorem lookup_credentialsByUrl_empty (py : Python) (credentials : List Resource) :
    (credentialsByUrl py credentials).lookup "" = none := by
  have hloop : ∀ byUrl : List (String × Resource), byUrl.lookup "" = none →
      (credentials.foldl (addByUrl py) byUrl).lookup "" = none := by
    induction credentials with
    | nil => exact fun byUrl hnone => hnone
    | cons credential rest ih =>
        intro byUrl hnone
        apply ih
        unfold addByUrl
        dsimp only
        split
        next hadded =>
          rw [List.lookup_append, hnone, lookup_single, if_neg hadded.1, Option.none_or]
        next => exact hnone
  exact hloop [] rfl

theorem mem_vaultCredentials
    {rows : List Resource} {workspaceId vaultId : String} {credential : Resource}
    (hcredential : credential ∈ vaultCredentials rows workspaceId vaultId) :
    credential ∈ rows ∧ credential.resourceType = .credential ∧
      credential.parentId = some vaultId ∧ credential.deletedAt = none ∧
      credential.archivedAt = none := by
  obtain ⟨hmem, hselects⟩ := List.mem_filter.mp (NewestPage.mem_of_mem_page hcredential)
  simp only [ResourceQuery.selects, decide_eq_true_eq] at hselects
  obtain ⟨htype, -, hlive, hparent, hactive⟩ := hselects
  exact ⟨hmem, htype, by simpa using hparent, by simpa using hlive,
    by simpa using hactive⟩

/-- The credential which the search finds is of the first vault that offers one. -/
theorem find?_credentials
    {py : Python} {rows : List Resource} {workspaceId url : String}
    {vaultIds : List String} :
    (vaultIds.flatMap (vaultCredentials rows workspaceId)).find?
        (fun credential => credentialUrl py credential = url) =
      (vaultIds.find? (offersCredential py rows workspaceId url)).bind fun vaultId =>
        (vaultCredentials rows workspaceId vaultId).find? fun credential =>
          credentialUrl py credential = url := by
  induction vaultIds with
  | nil => rfl
  | cons vaultId rest ih =>
      rw [List.flatMap_cons, List.find?_append, ih]
      cases hoffers : offersCredential py rows workspaceId url vaultId with
      | true =>
          obtain ⟨credential, hcredential, hurl⟩ := List.any_eq_true.mp hoffers
          have hsome :
              ((vaultCredentials rows workspaceId vaultId).find? fun credential =>
              credentialUrl py credential = url).isSome :=
            List.find?_isSome.mpr ⟨credential, hcredential, hurl⟩
          obtain ⟨found, hfound⟩ := Option.isSome_iff_exists.mp hsome
          rw [List.find?_cons_of_pos hoffers, Option.bind_some, hfound, Option.some_or]
      | false =>
          have hnone :
              ((vaultCredentials rows workspaceId vaultId).find? fun credential =>
              credentialUrl py credential = url) = none := by
            rw [List.find?_eq_none]
            exact fun credential hcredential =>
              (List.any_eq_false.mp hoffers) credential hcredential
          rw [List.find?_cons_of_neg (by simp [hoffers]), hnone, Option.none_or]

theorem resolveServer_matched
    {py : Python} {byUrl : List (String × Resource)} {server : Dict}
    {credential : Resource}
    (hfound : byUrl.lookup (normalizedMcpUrl py (.str (mcpServerUrl py server))) =
      some credential) :
    Dict.get (resolveServer py byUrl server).1 "status" = .str "matched" ∧
      Dict.get (resolveServer py byUrl server).1 "credential_id" =
        .str credential.id := by
  unfold resolveServer
  rw [hfound]
  exact ⟨rfl, rfl⟩

theorem resolveServer_missing
    {py : Python} {byUrl : List (String × Resource)} {server : Dict}
    (hnone : byUrl.lookup (normalizedMcpUrl py (.str (mcpServerUrl py server))) = none) :
    Dict.get (resolveServer py byUrl server).1 "status" = .str "missing" := by
  unfold resolveServer
  rw [hnone]
  rfl

theorem resolveServer_live_iff
    {py : Python} {rows : List Resource} (hids : (rows.map ManagedResource.id).Nodup)
    {workspaceId : String} {vaultIds : List String} (server : Dict) :
    (Dict.get (resolveServer py (credentialsByUrl py
        (vaultIds.flatMap (vaultCredentials rows workspaceId))) server).1 "status" =
          .str "matched" →
      CredentialLive rows (resolveServer py (credentialsByUrl py
        (vaultIds.flatMap (vaultCredentials rows workspaceId))) server).1) ↔
    (normalizedMcpUrl py (.str (mcpServerUrl py server)) ≠ "" →
      ∀ vaultId ∈ vaultIds.find? (offersCredential py rows workspaceId
        (normalizedMcpUrl py (.str (mcpServerUrl py server)))),
        LiveVault rows vaultId) := by
  by_cases hurl : normalizedMcpUrl py (.str (mcpServerUrl py server)) = ""
  · have hnone := lookup_credentialsByUrl_empty py
      (vaultIds.flatMap (vaultCredentials rows workspaceId))
    rw [← hurl] at hnone
    refine iff_of_true ?_ (absurd hurl)
    rw [resolveServer_missing hnone]
    simp
  · have hlookup := lookup_credentialsByUrl py hurl
      (vaultIds.flatMap (vaultCredentials rows workspaceId))
    rw [find?_credentials] at hlookup
    cases hfirst : vaultIds.find? (offersCredential py rows workspaceId
      (normalizedMcpUrl py (.str (mcpServerUrl py server)))) with
    | none =>
        rw [hfirst] at hlookup
        rw [resolveServer_missing hlookup]
        simp
    | some vaultId =>
        have hoffers := List.find?_some hfirst
        unfold offersCredential at hoffers
        obtain ⟨credential, hfound⟩ := Option.isSome_iff_exists.mp
          (List.find?_isSome.mpr (List.any_eq_true.mp hoffers))
        rw [hfirst, Option.bind_some, hfound] at hlookup
        obtain ⟨hstatus, hid⟩ := resolveServer_matched hlookup
        obtain ⟨hmem, htype, hparent, hlive, hactive⟩ :=
          mem_vaultCredentials (List.mem_of_find?_eq_some hfound)
        simp only [hstatus, forall_const, ne_eq, hurl, not_false_eq_true, Option.mem_def,
          Option.some.injEq, forall_eq']
        constructor
        · rintro ⟨other, hother, otherVault, -, -, -, hotherId, hotherParent, hvault⟩
          rw [hid, Json.str.injEq] at hotherId
          obtain rfl := List.inj_on_of_nodup_map hids hother hmem hotherId.symm
          obtain rfl : vaultId = otherVault :=
            Option.some.inj (hparent.symm.trans hotherParent)
          exact hvault
        · intro hvault
          exact ⟨credential, hmem, vaultId, htype, hlive, hactive, hid, hparent, hvault⟩

/-! ## Memories -/

theorem mem_contextMemories
    {rows : List Resource} {workspaceId storeId : String} {memory : Resource}
    (hmemory : memory ∈ contextMemories rows workspaceId storeId) :
    memory ∈ rows ∧ memory.resourceType = .memory ∧ memory.parentId = some storeId := by
  have hlisted := (List.mem_filter.mp hmemory).1
  obtain ⟨hmem, hselects⟩ := List.mem_filter.mp (NewestPage.mem_of_mem_page hlisted)
  simp only [ResourceQuery.selects, memoryQuery, decide_eq_true_eq] at hselects
  obtain ⟨htype, -, -, hparent, -⟩ := hselects
  exact ⟨hmem, htype, by simpa using hparent⟩

theorem memoryLive_iff
    {py : Python} {rows : List Resource} (hids : (rows.map ManagedResource.id).Nodup)
    {workspaceId storeId : String} {memory : Resource}
    (hmemory : memory ∈ contextMemories rows workspaceId storeId) :
    MemoryLive rows (memoryContextItem py memory) ↔ LiveStore rows storeId := by
  obtain ⟨hmem, htype, hparent⟩ := mem_contextMemories hmemory
  constructor
  · rintro ⟨other, hother, otherStore, -, hid, hotherParent, hstore⟩
    obtain rfl := List.inj_on_of_nodup_map hids hother hmem hid
    obtain rfl : storeId = otherStore := Option.some.inj (hparent.symm.trans hotherParent)
    exact hstore
  · intro hstore
    exact ⟨memory, hmem, storeId, htype, rfl, hparent, hstore⟩

theorem memoryStoreContext_live_iff
    {py : Python} {rows : List Resource} (hids : (rows.map ManagedResource.id).Nodup)
    {workspaceId : String} (resource : Resource) :
    (∀ store ∈ memoryStoreContext py rows workspaceId resource,
        ∀ item ∈ store.memories, MemoryLive rows item) ↔
      (attachedStoreId py resource ≠ "" →
        contextMemories rows workspaceId (attachedStoreId py resource) ≠ [] →
        LiveStore rows (attachedStoreId py resource)) := by
  unfold memoryStoreContext
  dsimp only
  split
  next hempty => simp [hempty]
  next hgiven =>
    simp only [Option.mem_def, Option.some.injEq, forall_eq', List.forall_mem_map, hgiven,
      ne_eq, not_false_eq_true, forall_const]
    constructor
    · intro hitems hsome
      obtain ⟨memory, hmemory⟩ := List.exists_mem_of_ne_nil _ hsome
      exact (memoryLive_iff hids hmemory).mp (hitems memory hmemory)
    · intro hstore memory hmemory
      exact (memoryLive_iff hids hmemory).mpr (hstore (List.ne_nil_of_mem hmemory))

theorem runtime_context_live_iff
    (py : Python) (table : Table ResourceStatus Dict) (workspaceId : String)
    (session : ManagedSession) (version : AgentVersion) :
    ContextLive table.rows
        (runtimeContextForSession py table.rows workspaceId session version) ↔
      ContainersLive py table.rows workspaceId session version := by
  constructor
  · rintro ⟨hcredentials, hmemories⟩
    constructor
    · intro server hserver
      apply (resolveServer_live_iff table.ids server).mp
      exact hcredentials _ (List.mem_map_of_mem (List.mem_map_of_mem hserver))
    · intro resource hresource
      apply (memoryStoreContext_live_iff table.ids resource).mp
      intro store hstore
      exact hmemories store (List.mem_filterMap.mpr ⟨resource, hresource, hstore⟩)
  · rintro ⟨hvaults, hstores⟩
    constructor
    · intro entry hentry
      obtain ⟨pair, hpair, rfl⟩ := List.mem_map.mp hentry
      obtain ⟨server, hserver, rfl⟩ := List.mem_map.mp hpair
      exact (resolveServer_live_iff table.ids server).mpr (hvaults server hserver)
    · intro store hstore
      obtain ⟨resource, hresource, hfound⟩ := List.mem_filterMap.mp hstore
      exact (memoryStoreContext_live_iff table.ids resource).mpr
        (hstores resource hresource)
        store hfound

/-- An archived vault with a credential. -/
def sampleVaultTable : Table ResourceStatus Dict where
  rows :=
    [{ id := "vault_a0", workspaceId := "wrkspc_default", resourceType := .vault,
       status := .archived, data := [], createdAt := 0, archivedAt := some 2 },
     { id := "cred_b0", workspaceId := "wrkspc_default", resourceType := .credential,
       parentId := some "vault_a0", status := .active, createdAt := 1,
       data := [("auth", .dict [("type", .str "static_bearer"),
         ("mcp_server_url", .str "https://mcp.example/")])] }]
  ids := by decide

def sampleMcpVersion : AgentVersion :=
  { sampleVersion with
    mcpServers := [.dict [("type", .str "url"), ("name", .str "tracker"),
      ("url", .str "https://mcp.example")]] }

def samplePinnedSession : ManagedSession where
  id := "sess_1"
  agentId := "agent_1"
  agentVersion := 1
  environmentId := "env_1"
  statusDetails := { vaultIds := ["vault_a0"] }

def sampleVaultContext : RuntimeContext :=
  runtimeContextForSession samplePython sampleVaultTable.rows "wrkspc_default"
    samplePinnedSession sampleMcpVersion

theorem sample_archived_vault_matched :
    ¬ContextLive sampleVaultTable.rows sampleVaultContext := by
  intro hlive
  have hmatched : ∃ server ∈ sampleVaultContext.mcpServers,
      Dict.get server "status" = .str "matched" := by decide
  have harchived : ∀ vault ∈ sampleVaultTable.rows, vault.resourceType = .vault →
      vault.archivedAt ≠ none := by decide
  obtain ⟨server, hserver, hstatus⟩ := hmatched
  obtain ⟨-, -, vaultId, -, -, -, -, -, vault, hvault, -, htype, -, hactive⟩ :=
    hlive.credentials server hserver hstatus
  exact harchived vault hvault htype hactive

end ManagedAgents
