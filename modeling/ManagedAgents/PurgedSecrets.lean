import ManagedAgents.LiveContainers
import ManagedAgents.SealedSecrets

/-!
# Purged secrets

Archiving and deleting a credential replace its secret values by null.  A deleted
credential is not found again; an archived one is, and an update may give it new
secrets.
-/

namespace ManagedAgents

open Fallible LabelledRuns ReadCommitted

def IsNull (value : Json) : Prop := value = .null

theorem isNull_null : IsNull .null := rfl

theorem isNull_equal
    (left right : Json) (hequal : Json.equal left right = true) :
    IsNull left ↔ IsNull right := by
  unfold IsNull
  cases left <;> cases right <;> simp_all [Json.equal, Json.number]

/-- The credential was archived or deleted. -/
def Marked (row : Resource) : Prop := row.archivedAt ≠ none ∨ row.deletedAt ≠ none

instance (row : Resource) : Decidable (Marked row) :=
  inferInstanceAs (Decidable (_ ∨ _))

def MarkedPurged (rows : List Resource) : Prop :=
  ∀ row ∈ rows, IsCredential row → Marked row → Dict.SecretsHold IsNull row.data

/-- The update gives values only to keys which are not secret. -/
def CredentialRequest.BringsNoSecret : CredentialRequest → Prop
  | .update _ _ body => ∀ field ∈ body.fields, KeptPatchHolds IsNull IsNull field
  | .create .. | .archive .. | .delete .. | .validate .. | .other _ => True

/-- A request that marks its credential, or finds it marked, has read the row which is
there now and brings no secret. -/
def CredentialCall.KeepsPurged (call : CredentialCall) (view : View)
    (current : List Resource) : Prop :=
  ∀ old ∈ current, IsCredential old → call.request.addressed = some old.id →
    call.request.marks = true ∨ Marked old →
      old ∈ view 0 ∧ call.request.BringsNoSecret

/-- The credentials from which the entries of a session's servers are made. -/
def handedOver (py : Python) (rows : List Resource) (workspaceId : String)
    (vaultIds : List String) : List Resource :=
  (credentialsByUrl py
    (vaultIds.flatMap (vaultCredentials rows workspaceId))).map Prod.snd

/-! ## Handed-over credentials -/

theorem mem_credentialsByUrl
    {py : Python} {credentials : List Resource} {entry : String × Resource}
    (hentry : entry ∈ credentialsByUrl py credentials) : entry.2 ∈ credentials := by
  have hloop : ∀ (rest : List Resource) (byUrl : List (String × Resource)),
      entry ∈ rest.foldl (addByUrl py) byUrl → entry ∈ byUrl ∨ entry.2 ∈ rest := by
    intro rest
    induction rest with
    | nil => exact fun byUrl hmem => .inl hmem
    | cons credential rest ih =>
        intro byUrl hmem
        rcases ih _ hmem with hadded | hrest
        · unfold addByUrl at hadded
          dsimp only at hadded
          split at hadded
          · rcases List.mem_append.mp hadded with hbefore | hnew
            · exact .inl hbefore
            · obtain rfl := List.mem_singleton.mp hnew
              exact .inr List.mem_cons_self
          · exact .inl hadded
        · exact .inr (List.mem_cons_of_mem _ hrest)
  rcases hloop credentials [] hentry with hempty | hmem
  · cases hempty
  · exact hmem

theorem handedOver_unmarked
    {py : Python} {rows : List Resource} {workspaceId : String} {vaultIds : List String}
    {credential : Resource}
    (hhanded : credential ∈ handedOver py rows workspaceId vaultIds) :
    ¬Marked credential := by
  obtain ⟨entry, hentry, rfl⟩ := List.mem_map.mp hhanded
  obtain ⟨vaultId, -, hcredential⟩ := List.mem_flatMap.mp (mem_credentialsByUrl hentry)
  obtain ⟨-, -, -, hlive, hactive⟩ := mem_vaultCredentials hcredential
  rintro (harchived | hdeleted)
  · exact harchived hactive
  · exact hdeleted hlive

section

variable {py : Interpreter} {settings : EncryptionSettings}

/-! ## Nulls stay nulls -/

theorem encryptSecret_null (cipher : SecretCipher) :
    Encrypts (encryptSecret cipher) IsNull IsNull where
  text := by
    intro value draw encrypted next hencrypted
    simp [IsNull]
  other := by
    intro value draw encrypted next hvalue hwalk
    exact walk_eq_leaf trivial hwalk

theorem newData_purged
    {call : CredentialCall} {held : Resource} {data : Dict}
    (hshape : CredentialShape held.data) (hbrings : call.request.BringsNoSecret)
    (hheld : call.request.marks = true ∨ Dict.SecretsHold IsNull held.data)
    (hdata : NewData py settings call held data) : Dict.SecretsHold IsNull data := by
  unfold NewData at hdata
  cases hrequest : call.request <;> simp only [hrequest] at hdata hbrings hheld
  case update vaultId credentialId body =>
    obtain ⟨merged, hmerged, hnormal⟩ := hdata
    have hnulls : Dict.SecretsHold IsNull held.data := by
      simpa [CredentialRequest.marks] using hheld
    have hkeyed := mergeCredentialUpdate_keyed hshape.keyed body.keyed hmerged
    have hcontains := mergeCredentialUpdate_contains hshape hmerged
    have hmissing : Dict.contains merged "auth" = false → IsNull (.str "") := by
      rw [hcontains]
      exact fun habsent => nomatch habsent
    refine (normalizeCredentialData_secretsHold_iff hkeyed (encryptSecret_null _)
      (fun _ hvalue => hvalue) isNull_null hmissing hnormal).mpr ?_
    exact mergeCredentialUpdate_keptBody hshape body.keyed (fun _ hvalue => hvalue)
      isNull_null hnulls hbrings hmerged
  case archive | delete =>
    subst hdata
    exact purgeCredentialSecretData_secretsHold py _ _ isNull_null
  case validate =>
    have hnulls : Dict.SecretsHold IsNull held.data := by
      simpa [CredentialRequest.marks] using hheld
    exact validatedCredentialData_secretsHold hshape hnulls isNull_null hdata

/-! ## Runs -/

/-- The credential row has the shape of stored data, and is purged once it is marked. -/
structure CredentialRow (row : Resource) : Prop where
  shape : CredentialShape row.data
  purged : Marked row → Dict.SecretsHold IsNull row.data

structure PurgeRows (rows : List Resource) : Prop where
  ids : (rows.map ManagedResource.id).Nodup
  credentials : ∀ row ∈ rows, IsCredential row → CredentialRow row

theorem credentialRow_rewritten
    {call : CredentialCall} {view : View} {current : List Resource}
    {row held old : Resource}
    {data : Dict} (hview : PurgeRows (view 0)) (hcurrent : PurgeRows current)
    (hkeeps : call.KeepsPurged view current) (hheld : held ∈ view 0)
    (haddressed : call.request.addressed = some held.id)
    (hcredential : IsCredential held) (hold : old ∈ current) (hid : old.id = held.id)
    (htype : IsCredential old) (hdata : NewData py settings call held data)
    (hrow : row.data = data ∨ Dict.equal data held.data = true ∧ row.data = old.data)
    (hmarks : row.archivedAt = old.archivedAt ∧ row.deletedAt = old.deletedAt ∨
      call.request.marks = true) : CredentialRow row := by
  have hheldRow := hview.credentials held hheld hcredential
  have holdRow := hcurrent.credentials old hold htype
  constructor
  · rcases hrow with hrow | ⟨-, hrow⟩
    · rw [hrow]
      exact newData_shape hheldRow.shape hdata
    · rw [hrow]
      exact holdRow.shape
  · intro hmarked
    have hcause : call.request.marks = true ∨ Marked old := by
      rcases hmarks with ⟨harchived, hdeleted⟩ | hmarks
      · rw [Marked, harchived, hdeleted] at hmarked
        exact .inr hmarked
      · exact .inl hmarks
    obtain ⟨hfresh, hbrings⟩ := hkeeps old hold htype (hid ▸ haddressed) hcause
    obtain rfl := List.inj_on_of_nodup_map hview.ids hfresh hheld hid
    have hpurged :=
      newData_purged hheldRow.shape hbrings (hcause.imp_right hheldRow.purged)
      hdata
    rcases hrow with hrow | ⟨hequal, hrow⟩
    · rw [hrow]
      exact hpurged
    · rw [hrow]
      have hkeyed := (newData_shape hheldRow.shape hdata).keyed
      exact (hkeyed.secretsHold_of_equal hheldRow.shape.keyed isNull_null isNull_equal
        hequal).mp hpurged

/-- Archived and deleted credentials hold no secret, and none is handed to a
session, in every run whose requests bring no new secret to such a credential. -/
theorem marked_credentials_purged
    {start : List Resource} (hids : (start.map ManagedResource.id).Nodup)
    (hstart : ∀ row ∈ start, ¬IsCredential row) {last : CredentialWorld}
    {calls : List (CredentialCall × List ℕ)}
    (hkept : AllSteps (credentialStep py settings)
      (OnCommit (CredentialCall.body py settings) CredentialCall.KeepsPurged)
      { current := start, past := [] } calls)
    (hrun : run (credentialStep py settings) { current := start, past := [] } calls =
      some last) :
    ∀ state ∈ last.history, MarkedPurged state ∧
      ∀ workspaceId vaultIds,
        ∀ credential ∈ handedOver py.toPython state workspaceId vaultIds,
          ¬Marked credential := by
  have hordered : last.Ordered PurgeRows (fun _ _ => True) := by
    refine run_ordered (fun _ => trivial) (fun _ _ _ _ _ => trivial) ?_ ?_ hkept hrun
    · intro world call ages next hkeep hviews _ _ hcurrent hbody
      have hkeeps := hkeep (by simp [hbody])
      refine ⟨⟨call.ids hcurrent.ids hbody, fun row hrow htype => ?_⟩, trivial⟩
      cases CredentialCall.rowChange hbody hrow htype with
      | kept hrow => exact hcurrent.credentials row hrow htype
      | created vaultId body hrequest hdata hlive =>
          refine ⟨normalizeCredentialData_shape body.keyed hdata, fun hmarked => ?_⟩
          rcases hmarked with harchived | hdeleted
          · exact absurd hlive.1 harchived
          · exact absurd hlive.2 hdeleted
      | rewritten held old data hheld haddressed hcredential hold hid holdType hdata
          hwritten hmarks =>
          exact credentialRow_rewritten (hviews 0) hcurrent hkeeps hheld haddressed
            hcredential hold hid holdType hdata hwritten hmarks
    · constructor
      · intro state hstate
        obtain rfl : state = start := by simpa [Timeline.history] using hstate
        exact ⟨hids, fun row hrow htype => absurd htype (hstart row hrow)⟩
      · simp [Timeline.history]
  intro state hstate
  refine ⟨fun row hrow htype => ?_, fun _ _ _ hhanded => handedOver_unmarked hhanded⟩
  exact ((hordered.states state hstate).credentials row hrow htype).purged

end

/-! ## Sample runs -/

def sampleStored : CredentialCall × List ℕ :=
  sampleStoring sampleAuthBody

def sampleArchiving : CredentialCall × List ℕ :=
  sampleCredentialCall "d" (.archive "vault_v0" "cred_c0")

/-- The update of an archived credential with a new token. -/
def sampleRevival : CredentialCall × List ℕ :=
  sampleCredentialCall "e" (.update "vault_v0" "cred_c0"
    { fields := [("auth", .dict [("type", .str "static_bearer"), ("token", .str "abc")])]
      keyed := by decide })

def sampleStoredWorld : CredentialWorld :=
  (credentialStep sampleInterpreter sampleSettings sampleVaultWorld sampleStored).get
    (by decide)

def samplePurgedWorld : CredentialWorld :=
  (run (credentialStep sampleInterpreter sampleSettings) sampleVaultWorld
    [sampleStored, sampleArchiving]).get (by decide)

def sampleRevivedWorld : CredentialWorld :=
  (run (credentialStep sampleInterpreter sampleSettings) sampleVaultWorld
    [sampleStored, sampleArchiving, sampleRevival]).get (by decide)

theorem sampleArchiving_keepsPurged :
    AllSteps (credentialStep sampleInterpreter sampleSettings)
      (OnCommit (CredentialCall.body sampleInterpreter sampleSettings)
        CredentialCall.KeepsPurged)
      sampleVaultWorld [sampleStored, sampleArchiving] := by
  refine ⟨fun _ old _ _ haddressed => (by cases haddressed), fun next hnext => ?_⟩
  obtain rfl : next = sampleStoredWorld :=
    Option.some.inj (hnext.symm.trans (Option.some_get _).symm)
  exact ⟨fun _ old hold _ _ _ => ⟨hold, trivial⟩, fun _ _ => trivial⟩

theorem sample_marked_credentials_purged :
    MarkedPurged samplePurgedWorld.current ∧
      ∀ workspaceId vaultIds,
        ∀ credential ∈ handedOver sampleInterpreter.toPython samplePurgedWorld.current
            workspaceId vaultIds,
          ¬Marked credential :=
  @marked_credentials_purged sampleInterpreter sampleSettings [sampleVault]
    (by decide) sampleVault_not_credential samplePurgedWorld
    [sampleStored, sampleArchiving] sampleArchiving_keepsPurged (Option.some_get _).symm
    _ List.mem_cons_self

/-- The ciphertext which the update stores again. -/
def sampleRevivedAuth : Dict :=
  [("type", .str "static_bearer"), ("mcp_server_url", .str "https://mcp.test"),
   ("token", .str "enc:v1:AAAAAAAAAAAAAAAAr8UjVBCe9lovXMuz8FIJeBTfPA==")]

theorem sample_archived_credential_revived :
    run (credentialStep sampleInterpreter sampleSettings) sampleVaultWorld
        [sampleStored, sampleArchiving, sampleRevival] = some sampleRevivedWorld ∧
      ¬MarkedPurged sampleRevivedWorld.current := by
  refine ⟨(Option.some_get _).symm, fun hpurged => ?_⟩
  have hrevived : ∃ row ∈ sampleRevivedWorld.current, row.resourceType = .credential ∧
      Marked row ∧ ("auth", Json.dict sampleRevivedAuth) ∈ row.data := by
    decide
  have hkey : isSecretKey "token" = true := isSecretKey_secret _ (by simp)
  obtain ⟨row, hrow, htype, hmarked, hfield⟩ := hrevived
  have hauth := Json.secretsHold_dict.mp (hpurged row hrow htype hmarked _ hfield).2
  have htoken := (hauth _ (List.mem_cons_of_mem _
    (List.mem_cons_of_mem _ List.mem_cons_self))).1 hkey
  cases htoken

end ManagedAgents
